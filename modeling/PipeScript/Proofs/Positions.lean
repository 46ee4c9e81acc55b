import PipeScript.Proofs.Draining
import PipeScript.Proofs.Relocation

/-!
# Places in the source

A lexer keeps a byte offset, a line and a column, and moves all three with every character that it
takes in. `Position.at?` reads the line and the column of an offset off the source instead: by the
line feeds before it, and the characters behind the last of these. The two agree for every answer
of every read, whatever was asked of the lexer before, errors included (`Lexer.nextToken_placedIn`).

What a run of calls keeps is that the lexer stands in its source: what it has left comes behind
the text that has moved its place to where it is (`Lexer.StandsIn`).
-/

namespace PipeScript

/-! ## Lines and columns -/

namespace Position

/-- The place at a byte of a source, if a character starts or the source ends there. A line feed
starts a line, and every other character takes one column. -/
def at? (source : String) (offset : Nat) : Option Position :=
  (takeBytes? offset source.toList).map fun before =>
    ⟨offset, 1 + before.count '\n', 1 + (before.rtakeWhile (· ≠ '\n')).length⟩

/-- Behind a part of a source the counters have moved to the place that is there. -/
theorem at?_byteLength {source : String} {before rest : List Char}
    (split : source.toList = before ++ rest) :
    at? source (byteLength before) = some (origin.advance before) := by
  rw [at?, split, takeBytes?_append, Option.map_some, advance_origin, shift_origin]
  rfl

end Position

namespace Lexer

/-! ## A lexer in its source -/

/-- What a lexer has left is what its source has behind the text that it has taken in. -/
def StandsIn (lexer : Lexer) (source : String) : Prop :=
  ∃ taken, source.toList = taken ++ lexer.rest ∧ lexer.place = Position.origin.advance taken

variable {lexer : Lexer} {source : String}

theorem standsIn_ofSource (source : String) : (ofSource source).StandsIn source :=
  ⟨[], rfl, rfl⟩

theorem StandsIn.skip (stands : lexer.StandsIn source) {chars rest : List Char}
    (eq : lexer.rest = chars ++ rest) : (lexer.skip chars).StandsIn source := by
  obtain ⟨taken, split, place⟩ := stands
  refine ⟨taken ++ chars, ?_, ?_⟩
  · rw [rest_skip, split, eq, List.drop_left, List.append_assoc]
  · rw [place_skip, place, Position.advance_append]

/-- A read leaves a lexer in its source. -/
theorem StandsIn.nextToken (stands : lexer.StandsIn source) :
    lexer.nextToken.2.StandsIn source := by
  rcases eq : lexer.nextToken with ⟨answer, behind⟩
  cases read_of_eq eq with
  | @last gap whole _ => exact stands.skip (whole.trans (List.append_nil gap).symm)
  | lexeme text _ _ _ => exact stands.skip (text.trans (List.append_assoc ..).symm)
  | stray text _ _ =>
    apply stands.skip
    rw [text, List.append_assoc, List.singleton_append]

/-- So does every call, and a schedule of calls. -/
theorem StandsIn.after (stands : lexer.StandsIn source) (calls : List Call) :
    (lexer.after calls).StandsIn source := by
  induction calls generalizing lexer with
  | nil => exact stands
  | cons c calls ih =>
    rw [Lexer.after]
    rcases lexer.call_cases c with ⟨-, -, nothing⟩ | ⟨flag, read, -, -⟩
    · rw [nothing]
      exact ih stands
    · rw [read]
      have flagged : (lexer.nextToken.2.flagged flag).StandsIn source := stands.nextToken
      exact ih flagged

/-! ## Answers -/

/-- An answer and the lexer behind it, read at the right place of a source. A token has the line
and the column of the byte that it starts at, and the text goes on behind its lexeme; the end of
the input starts where the source ends. An error has the line of its character, and the text goes
on behind that. -/
def PlacedIn (source : String) : Except LexError Token × Lexer → Prop
  | (.ok t, behind) =>
    Position.at? source t.span.start = some ⟨t.span.start, t.span.line, t.span.column⟩ ∧
      dropBytes? t.span.start source.toList = some (t.lexeme.toList ++ behind.rest) ∧
      (t.kind = .endOfInput → t.span.start = source.utf8ByteSize)
  | (.error e, behind) =>
    ∃ offset, (Position.at? source offset).map Position.line = some e.line ∧
      dropBytes? offset source.toList = some (e.character :: behind.rest)

/-- A lexeme that stands behind some part of a source makes a token that says so. -/
theorem place_ofLexeme {before chars rest : List Char}
    (split : source.toList = before ++ (chars ++ rest)) (kind : Kind) {t : Token}
    (eq : t = .ofLexeme kind chars (Position.origin.advance before)) :
    Position.at? source t.span.start = some ⟨t.span.start, t.span.line, t.span.column⟩ ∧
      dropBytes? t.span.start source.toList = some (t.lexeme.toList ++ rest) := by
  have start : t.span.start = byteLength before := by
    rw [eq, Token.ofLexeme, Span.ofPosition, Position.offset_advance]
    exact Nat.zero_add _
  have lexeme : t.lexeme.toList = chars := by
    rw [eq, Token.ofLexeme, String.toList_ofList]
  have place : (⟨t.span.start, t.span.line, t.span.column⟩ : Position) =
      Position.origin.advance before := by
    rw [eq]
    rfl
  constructor
  · rw [place, start, Position.at?_byteLength split]
  · rw [start, lexeme, split, dropBytes?_append]

/-- A lexer that stands in its source answers with the right places. -/
theorem StandsIn.placedIn (stands : lexer.StandsIn source) :
    PlacedIn source lexer.nextToken := by
  obtain ⟨taken, split, place⟩ := stands
  have spot (gap : List Char) :
      lexer.place.advance gap = Position.origin.advance (taken ++ gap) := by
    rw [place, Position.advance_append]
  rcases eq : lexer.nextToken with ⟨answer, behind⟩
  cases read_of_eq eq with
  | @last gap whole _ =>
    have ended : source.toList = (taken ++ gap) ++ ([] ++ []) := by
      rw [split, whole, List.append_nil, List.append_nil]
    have left : (lexer.skip gap).rest = [] := by rw [rest_skip, whole, List.drop_length]
    obtain ⟨places, text⟩ :=
      place_ofLexeme ended .endOfInput (t := .endAt (lexer.place.advance gap)) (by rw [spot]; rfl)
    refine ⟨places, by rw [left]; exact text, fun _ => ?_⟩
    rw [spot, ← byteLength_eq_utf8ByteSize, ended, List.append_nil, List.append_nil]
    exact (Position.offset_advance _ _).trans (Nat.zero_add _)
  | @lexeme gap chars rest kind text _ spells _ =>
    have found : source.toList = (taken ++ gap) ++ (chars ++ rest) := by
      rw [split, text, List.append_assoc]
    have left : (lexer.skip (gap ++ chars)).rest = rest := rest_skip_gap text
    obtain ⟨places, text⟩ := place_ofLexeme found kind (congrArg _ (spot gap))
    refine ⟨places, by rw [left]; exact text, fun ending => ?_⟩
    exact absurd ending (kind_ne_endOfInput ⟨chars, spells⟩)
  | @stray gap rest c text _ _ =>
    have found : source.toList = (taken ++ gap) ++ c :: rest := by
      rw [split, text, List.append_assoc]
    have left : (lexer.skip (gap ++ [c])).rest = rest := rest_skip_gap text
    refine ⟨byteLength (taken ++ gap), ?_, ?_⟩
    · rw [Position.at?_byteLength found, spot, Option.map_some]
    · rw [found, dropBytes?_append, left]

/-- Whatever a lexer was asked before, also behind errors, the answer of its next read has the
place of what it is about. -/
theorem nextToken_placedIn (source : String) (calls : List Call) :
    PlacedIn source ((ofSource source).after calls).nextToken :=
  ((standsIn_ofSource source).after calls).placedIn

end Lexer

end PipeScript
