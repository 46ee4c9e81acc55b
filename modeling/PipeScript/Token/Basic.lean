import PipeScript.Number.Layout
import PipeScript.Source.Span

/-!
Tokens of the script language.

A token is its kind, the lexeme it was written as with the place of that
lexeme, and the value the lexeme stands for, if its kind has one. The name that
messages use for a kind is `Kind.describe`; the way they quote a token is
`Token.display`.
-/

namespace PipeScript

/-! ## Kinds -/

/-- The kinds of tokens. -/
inductive Kind
  | endOfInput
  | identifier
  | number
  | letKeyword
  | pipe
  | arrow
  | equality
  | assign
  | leftBrace
  | rightBrace
  | leftParen
  | rightParen
deriving DecidableEq

namespace Kind

/-- How a kind is written that has just one spelling; the others have none here. -/
def spelling : Kind → List Char
  | endOfInput | identifier | number => []
  | letKeyword => ['l', 'e', 't']
  | pipe => ['|', '>']
  | arrow => ['-', '>']
  | equality => ['=', '=']
  | assign => ['=']
  | leftBrace => ['{']
  | rightBrace => ['}']
  | leftParen => ['(']
  | rightParen => [')']

/-- What messages call a token of this kind. -/
def describe : Kind → String
  | endOfInput => "end of input"
  | identifier => "symbol"
  | number => "number"
  | kind => String.ofList ('\'' :: kind.spelling ++ ['\''])

/-- Whether a word is the keyword or an identifier. -/
def ofWord (word : List Char) : Kind :=
  if word = letKeyword.spelling then letKeyword else identifier

/-- Expressions start with a number, an identifier or an opening bracket. -/
def startsExpression (kind : Kind) : Bool :=
  kind = number ∨ kind = identifier ∨ kind = leftBrace ∨ kind = leftParen

end Kind

/-! ## Tokens -/

/-- What a lexeme stands for: nothing besides its kind, a text, or a number. -/
inductive Literal
  | none
  | text (value : String)
  | number (value : Binary64)
deriving DecidableEq

/-- A token with its place in the source. -/
structure Token where
  kind : Kind
  span : Span
  lexeme : String
  value : Literal
deriving DecidableEq

namespace Token

/-- The line a token starts on. -/
def line (t : Token) : Nat := t.span.line

/-- The text value of a token, whatever its kind. -/
def text? (t : Token) : Option String :=
  match t.value with
  | .text value => some value
  | _ => none

/-- The number value of a token, whatever its kind. -/
def number? (t : Token) : Option Binary64 :=
  match t.value with
  | .number value => some value
  | _ => none

/-- How messages quote a token: the end of the input has a name, an identifier
and a number show their value, and every other token its lexeme. -/
def display (t : Token) : String :=
  match t.kind, t.value with
  | .endOfInput, _ => "EOF"
  | .identifier, .text name => "ID(" ++ name ++ ")"
  | .number, .number value => "NUM(" ++ value.fixed 6 ++ ")"
  | _, _ => "'" ++ t.lexeme ++ "'"

end Token

end PipeScript
