import PipeScript.Parse.Step
import PipeScript.Token.Buffer

/-!
Parsing a token buffer.

A run takes the tokens in one by one, each exactly once, and stops at the first
one that is accepted or refused. It keeps a record of the tokens it has eaten
(`Advance`). Only the end of the input is ever accepted, and it is never eaten,
so on a token buffer a run always comes to an end (`run_ne_unfinished`), and
`TokenBuffer.parse` gives a tree or an error.
-/

namespace PipeScript

/-- A token was eaten, and the next one came into view. -/
structure Advance where
  eaten : Token
  next : Token
deriving DecidableEq

/-- How a run ends. -/
inductive Outcome
  | accepted (root : NodeId)
  | rejected (error : ParseError)
  /-- The tokens ran out before the end of the input. -/
  | unfinished
deriving DecidableEq

/-- A run of the parser: how it ended, what it had built by then, and the tokens
it had eaten. -/
structure Run where
  outcome : Outcome
  draft : Draft
  advances : Array Advance

namespace Parse

/-- Takes tokens in from a control on. -/
def runFrom (control : Control) (draft : Draft) (advances : Array Advance) : List Token → Run
  | [] => ⟨.unfinished, draft, advances⟩
  | t :: rest =>
    match step t control draft with
    | (.accept root, draft) => ⟨.accepted root, draft, advances⟩
    | (.reject error, draft) => ⟨.rejected error, draft, advances⟩
    | (.proceed control, draft) =>
      runFrom control draft (advances.push ⟨t, rest.headD t⟩) rest

/-- Takes in the tokens of a program. -/
def run (tokens : List Token) : Run := runFrom (.opened .program) .empty #[] tokens

/-! ## The end of the input -/

/-- The end of the input starts no operand. -/
theorem takeOperand_endOfInput {t : Token} (h : t.kind = .endOfInput) (pending : Option Pending)
    (outer : Context) (draft : Draft) (control : Control) :
    (takeOperand t pending outer draft).1 ≠ .proceed control := by
  simp [takeOperand, h]

/-- The end of the input starts no statement. -/
theorem takeStatement_endOfInput {t : Token} (h : t.kind = .endOfInput) (block : Block)
    (list : OpenList) (draft : Draft) (control : Control) :
    (takeStatement t block list draft).1 ≠ .proceed control := by
  cases block <;> simp [takeStatement, h]

/-- The end of the input starts no argument. -/
theorem takeArgument_endOfInput {t : Token} (h : t.kind = .endOfInput) (paren : Token)
    (callee : NodeId) (before : List (Token × NodeId)) (pending : Option Pending) (outer : Context)
    (draft : Draft) (control : Control) :
    (takeArgument t paren callee before pending outer draft).1 ≠ .proceed control := by
  simp [takeArgument, h, Kind.startsExpression]

/-- No parser goes on behind the end of the input. -/
theorem step_endOfInput {t : Token} (h : t.kind = .endOfInput) (control : Control) (draft : Draft)
    (control' : Control) : (step t control draft).1 ≠ .proceed control' := by
  cases control with
  | opened block => exact takeStatement_endOfInput h _ _ _ _
  | symbol block list => simp [step, h]
  | assign name block list => simp [step, h]
  | operand pending outer => exact takeOperand_endOfInput h _ _ _ _
  | operator value outer =>
    simp only [step, h, reduceCtorEq, if_false]
    cases outer with
    | program list purpose => exact takeStatement_endOfInput h _ _ _ _
    | function brace list purpose pending outer => exact takeStatement_endOfInput h _ _ _ _
    | callee paren pending outer => exact takeArgument_endOfInput h _ _ _ _ _ _ _
    | argument first paren callee before pending outer =>
      exact takeArgument_endOfInput h _ _ _ _ _ _ _

theorem runFrom_ne_unfinished {last : Token} (h : last.kind = .endOfInput) (tokens : List Token)
    (control : Control) (draft : Draft) (advances : Array Advance) :
    (runFrom control draft advances (tokens ++ [last])).outcome ≠ .unfinished := by
  induction tokens generalizing control draft advances with
  | nil =>
    simp only [List.nil_append, runFrom]
    split
    · simp
    · simp
    · rename_i control' _ taken
      exact absurd (congrArg Prod.fst taken) (step_endOfInput h control draft control')
  | cons t tokens ih =>
    simp only [List.cons_append, runFrom]
    split
    · simp
    · simp
    · exact ih _ _ _

/-- A run over a token buffer comes to an end. -/
theorem run_ne_unfinished (buffer : TokenBuffer) : (run buffer.tokens).outcome ≠ .unfinished :=
  runFrom_ne_unfinished buffer.last_kind _ _ _ _

end Parse

/-! ## Trees -/

namespace Run

/-- The tree of a run that has come to an end, or the error it ended with. -/
def result (run : Run) (finished : run.outcome ≠ .unfinished) : Except ParseError Tree :=
  match outcome : run.outcome with
  | .accepted root => .ok { run.draft.arena with root }
  | .rejected error => .error error
  | .unfinished => absurd outcome finished

end Run

/-- The tree of a program, or the error of the first token that does not fit. -/
def TokenBuffer.parse (buffer : TokenBuffer) : Except ParseError Tree :=
  (Parse.run buffer.tokens).result (Parse.run_ne_unfinished buffer)

end PipeScript
