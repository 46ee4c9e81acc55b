/-!
Structured text for values.

A `Dump` is the shape of a value: a word, a labelled part, or a group of parts
in brackets behind a name. It is written on one line by `compact`, and with a
line for every part, four spaces deeper for every level, by `pretty`.
-/

namespace PipeScript

/-- The brackets of a group. -/
inductive Brackets
  /-- Around labelled parts, as in `Span { start: 0, len: 1 }`. -/
  | braces
  /-- Around parts that go by their order, as in `Some(1)`. -/
  | parens
  /-- Around the items of a list, as in `[1, 2]`. -/
  | square

namespace Brackets

/-- What stands before the first part. -/
def opening : Brackets → String
  | braces => " \x7b"
  | parens => "("
  | square => "["

/-- What stands behind the last part. -/
def closing : Brackets → String
  | braces => "\x7d"
  | parens => ")"
  | square => "]"

/-- Braces keep their distance from what is between them on one line. -/
def padding : Brackets → String
  | braces => " "
  | _ => ""

end Brackets

/-- The shape of a value. -/
inductive Dump
  | word (text : String)
  | part (label : String) (value : Dump)
  | group (name : String) (brackets : Brackets) (parts : List Dump)

namespace Dump

/-! ## Common shapes -/

/-- A value with named parts. -/
def record (name : String) (parts : List Dump) : Dump := group name .braces parts

/-- A value with parts in order. -/
def tuple (name : String) (parts : List Dump) : Dump := group name .parens parts

/-- A list of values. -/
def list (items : List Dump) : Dump := group "" .square items

/-- A value that may be missing. -/
def optional : Option Dump → Dump
  | none => word "None"
  | some value => tuple "Some" [value]

/-- A natural number. -/
def nat (n : Nat) : Dump := word (toString n)

/-! ## Writing -/

mutual

/-- Writes a value on one line behind some text. -/
def writeCompact : Dump → String → String
  | word text, out => out ++ text
  | part label value, out => writeCompact value (out ++ label ++ ": ")
  | group name brackets parts, out =>
    let out := writeParts parts (out ++ name ++ brackets.opening ++ brackets.padding)
    out ++ brackets.padding ++ brackets.closing

/-- Writes parts with commas between them behind some text. -/
def writeParts : List Dump → String → String
  | [], out => out
  | [last], out => writeCompact last out
  | value :: rest, out => writeParts rest (writeCompact value out ++ ", ")

end

/-- The spaces before a line of some level. -/
def indent (level : Nat) : String := String.ofList (List.replicate (4 * level) ' ')

mutual

/-- Writes a value behind some text, on lines of a level. -/
def writePretty (level : Nat) : Dump → String → String
  | word text, out => out ++ text
  | part label value, out => writePretty level value (out ++ label ++ ": ")
  | group name brackets [], out => out ++ name ++ brackets.opening ++ brackets.closing
  | group name brackets (first :: rest), out =>
    let out := writeLines (level + 1) (first :: rest) (out ++ name ++ brackets.opening ++ "\n")
    out ++ indent level ++ brackets.closing

/-- Writes each part on lines of its own behind some text. -/
def writeLines (level : Nat) : List Dump → String → String
  | [], out => out
  | value :: rest, out =>
    writeLines level rest (writePretty level value (out ++ indent level) ++ ",\n")

end

/-- A value on one line. -/
def compact (value : Dump) : String := value.writeCompact ""

/-- A value with a line for every part. -/
def pretty (value : Dump) : String := value.writePretty 0 ""

end Dump

end PipeScript
