import PipeScript.Text.Hidden

/-!
Texts and characters between quotes, as dumps write them.

A backslash, the surrounding quote and the four common controls have a short
escape. A character that shows nothing of its own is written by its code point.
Every other character stands for itself, so a text in double quotes keeps its
apostrophes, and a character in apostrophes its double quote.
-/

namespace PipeScript.Text

/-- The letter of the short escape of a character between `quote` marks. -/
def escapeLetter? (quote c : Char) : Option Char :=
  if c = '\t' then some 't'
  else if c = '\r' then some 'r'
  else if c = '\n' then some 'n'
  else if c = '\x00' then some '0'
  else if c = '\\' ∨ c = quote then some c
  else none

/-- A character by its code point, in the fewest lower-case hexadecimal digits. -/
def codePoint (c : Char) : List Char :=
  '\\' :: 'u' :: '{' :: Nat.toDigits 16 c.toNat ++ ['}']

/-- One character as it stands between `quote` marks. -/
def escape (quote c : Char) : List Char :=
  match escapeLetter? quote c with
  | some letter => ['\\', letter]
  | none => if isHidden c then codePoint c else [c]

/-- A text in double quotes. -/
def quoted (text : String) : String :=
  String.ofList ('"' :: text.toList.flatMap (escape '"') ++ ['"'])

/-- A character in apostrophes. -/
def quotedChar (c : Char) : String :=
  String.ofList ('\'' :: escape '\'' c ++ ['\''])

end PipeScript.Text
