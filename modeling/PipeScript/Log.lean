import PipeScript.Diagnostic

/-!
What is logged on the way from a source text to its tree.

There is a record for every token that is read, for the start and the end of
both stages, for every token that the parser has eaten, and for the token that
it refuses.
-/

namespace PipeScript

/-- How closely a log record follows the work. -/
inductive LogLevel
  | debug
  | trace
deriving DecidableEq

/-- One record of a log. -/
inductive LogRecord
  /-- A token was read. -/
  | lexed (t : Token)
  /-- All tokens were read. -/
  | tokenized (count : Nat)
  /-- The parser starts. -/
  | parsing (count : Nat)
  /-- The parser has eaten a token, and the next one came into view. -/
  | ate (eaten next : Token)
  /-- The tree is complete. -/
  | parsed (count : Nat)
  /-- A token does not fit a part of the grammar. -/
  | failed (production : Production) (t : Token)
deriving DecidableEq

namespace LogRecord

/-- What is logged of a single token follows more closely than the rest. -/
def level : LogRecord → LogLevel
  | lexed _ | ate _ _ => .trace
  | tokenized _ | parsing _ | parsed _ | failed _ _ => .debug

/-- The text of a record. -/
def message : LogRecord → String
  | lexed t =>
    "lexed " ++ t.display ++ " at " ++ toString t.span.line ++ ":" ++ toString t.span.column
  | tokenized count => "tokenized " ++ toString count ++ " tokens"
  | parsing count => "parsing " ++ toString count ++ " tokens"
  | ate eaten next => "ate " ++ eaten.display ++ ", got " ++ next.display
  | parsed count => "parsed " ++ toString count ++ " nodes"
  | failed production t =>
    production.name ++ " failed at line " ++ toString t.line ++ " on " ++ t.display

/-- A record as it is written. -/
def line (record : LogRecord) : LogLevel × String := (record.level, record.message)

end LogRecord

end PipeScript
