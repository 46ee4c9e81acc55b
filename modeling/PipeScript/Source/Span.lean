/-!
Places in a source text.

A `Position` counts bytes from the start of the text, and lines and columns
from one. A column is one character wide, whatever the character; only a line
feed starts a new line. A `Span` is the stretch of a lexeme: where it starts
and how many bytes it takes.
-/

namespace PipeScript

/-- How many bytes some characters take in the source. -/
def byteLength (chars : List Char) : Nat := chars.foldr (fun c n => c.utf8Size + n) 0

/-! ## Positions -/

/-- A place in a source text. -/
structure Position where
  offset : Nat
  line : Nat
  column : Nat
deriving DecidableEq

namespace Position

/-- Where every text starts. -/
def origin : Position := ⟨0, 1, 1⟩

/-- The place behind a character. -/
def after (p : Position) (c : Char) : Position :=
  if c = '\n' then ⟨p.offset + c.utf8Size, p.line + 1, 1⟩
  else ⟨p.offset + c.utf8Size, p.line, p.column + 1⟩

/-- The place behind some characters. -/
def advance (p : Position) (chars : List Char) : Position := chars.foldl after p

@[simp] theorem advance_nil (p : Position) : p.advance [] = p := rfl

@[simp] theorem advance_cons (p : Position) (c : Char) (chars : List Char) :
    p.advance (c :: chars) = (p.after c).advance chars := rfl

theorem advance_append (p : Position) (a b : List Char) :
    p.advance (a ++ b) = (p.advance a).advance b :=
  List.foldl_append ..

end Position

/-! ## Spans -/

/-- Where a lexeme stands: the byte it starts at, its length in bytes, and the
line and column of its first character. -/
structure Span where
  start : Nat
  len : Nat
  line : Nat
  column : Nat
deriving DecidableEq

/-- The characters behind the first `n` bytes, if a character ends there. -/
def dropBytes? : Nat → List Char → Option (List Char)
  | 0, chars => some chars
  | _ + 1, [] => none
  | n + 1, c :: chars =>
    if c.utf8Size ≤ n + 1 then dropBytes? (n + 1 - c.utf8Size) chars else none

/-- The characters of the first `n` bytes, if a character ends there. -/
def takeBytes? : Nat → List Char → Option (List Char)
  | 0, _ => some []
  | _ + 1, [] => none
  | n + 1, c :: chars =>
    if c.utf8Size ≤ n + 1 then (takeBytes? (n + 1 - c.utf8Size) chars).map (c :: ·) else none

namespace Span

/-- A span of `len` bytes that starts at a position. -/
def ofPosition (p : Position) (len : Nat) : Span := ⟨p.offset, len, p.line, p.column⟩

/-- The byte behind the span. -/
def stop (s : Span) : Nat := s.start + s.len

/-- The text that a span covers in a source, if it lies within it and cuts no
character. -/
def slice? (s : Span) (source : String) : Option String :=
  ((dropBytes? s.start source.toList).bind (takeBytes? s.len)).map String.ofList

end Span

end PipeScript
