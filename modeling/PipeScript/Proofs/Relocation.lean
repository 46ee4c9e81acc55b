import Mathlib.Data.List.DropRight
import PipeScript.Proofs.Strays
import PipeScript.Proofs.Tiling

/-!
# Texts behind other texts

A `Shift` says how far the places in a text move when another text is put before it. Bytes and
lines move everywhere, columns on the first line alone.

With a gap between them, two texts are read as if each stood alone: a lexeme does not go on with
a blank (`Tiled.append`), and behind it the lexer is in the same state as at the start of a text
but for its place (`Tiled.shift`). So the tokens are those of the first text and, moved, those of
the second one (`TokenBuffer.exists_ofSource_append`); and if the second one has a stray
character, then it is the first of both (`TokenBuffer.ofSource_append_error`).
-/

namespace PipeScript

/-! ## Shifts -/

/-- How far places move. -/
structure Shift where
  bytes : Nat
  lines : Nat
  /-- How far they move on the first line. -/
  columns : Nat

namespace Shift

/-- How far a text moves what stands behind it: by its bytes, its line feeds, and the
characters behind the last line feed or, without one, all its characters. -/
def past (text : List Char) : Shift where
  bytes := byteLength text
  lines := text.count '\n'
  columns := (text.rtakeWhile (· ≠ '\n')).length

end Shift

/-- The column of a place on some line, moved. -/
def Shift.column (s : Shift) (line column : Nat) : Nat :=
  if line = 1 then column + s.columns else column

/-- A place, moved. -/
def Position.shift (p : Position) (s : Shift) : Position where
  offset := p.offset + s.bytes
  line := p.line + s.lines
  column := s.column p.line p.column

/-- A span of the same length, moved. -/
def Span.shift (span : Span) (s : Shift) : Span where
  start := span.start + s.bytes
  len := span.len
  line := span.line + s.lines
  column := s.column span.line span.column

/-- The same token at its new place. -/
def Token.shift (t : Token) (s : Shift) : Token := { t with span := t.span.shift s }

/-- The same error on its new line. -/
def LexError.shift (e : LexError) (s : Shift) : LexError := { e with line := e.line + s.lines }

namespace Position

variable {p : Position} (s : Shift)

theorem shift_after (isLine : 0 < p.line) (c : Char) :
    (p.shift s).after c = (p.after c).shift s := by
  have columns : s.column p.line p.column + 1 = s.column p.line (p.column + 1) := by
    unfold Shift.column
    split <;> omega
  unfold after
  by_cases feed : c = '\n'
  · have notFirst : p.line + 1 ≠ 1 := by omega
    simp only [feed, ↓reduceIte, shift, Shift.column, notFirst, mk.injEq, and_true]
    omega
  · simp only [feed, ↓reduceIte, shift, columns, mk.injEq, and_true]
    omega

theorem line_advance_pos (isLine : 0 < p.line) (chars : List Char) :
    0 < (p.advance chars).line := by
  rw [line_advance]
  exact Nat.add_pos_left isLine _

/-- Moving on over some characters is the same before and after a shift. -/
theorem shift_advance (isLine : 0 < p.line) (chars : List Char) :
    (p.shift s).advance chars = (p.advance chars).shift s := by
  induction chars generalizing p with
  | nil => rfl
  | cons c chars ih =>
    have stays : 0 < (p.after c).line := line_advance_pos isLine [c]
    rw [advance_cons, advance_cons, shift_after s isLine, ih stays]

theorem shift_origin : origin.shift s = ⟨s.bytes, 1 + s.lines, 1 + s.columns⟩ := by
  simp only [shift, origin, Shift.column, ↓reduceIte, Nat.zero_add]

/-- The place behind a text is where it moves the start of the next one to. -/
theorem advance_origin (text : List Char) :
    origin.advance text = origin.shift (.past text) := by
  rw [shift_origin]
  induction text using List.reverseRecOn with
  | nil => rfl
  | append_singleton text c ih =>
    rw [advance_append, ih, advance_cons, advance_nil]
    simp only [after, Shift.past, byteLength_append, byteLength_singleton, List.count_append,
      List.rtakeWhile_concat]
    by_cases feed : c = '\n'
    · simp [feed, Nat.add_assoc]
    · simp [feed, Nat.add_assoc]

end Position

/-! ## Tokens behind other tokens -/

/-- Two gaps are one. -/
theorem all_isBlank_append {gap more : List Char} (blank : gap.all isBlank)
    (blankToo : more.all isBlank) : (gap ++ more).all isBlank := by
  rw [List.all_append, blank, blankToo, Bool.and_self]

namespace Tiled

variable {place : Position} {text : List Char} {ts : List Token}

/-- The lexemes of a text are the same wherever it stands. -/
theorem shift (tiled : Tiled place text ts) (isLine : 0 < place.line) (s : Shift) :
    Tiled (place.shift s) text (ts.map (·.shift s)) := by
  induction tiled with
  | @last place gap blank =>
    have atEnd : Tiled (place.shift s) gap [.endAt ((place.shift s).advance gap)] :=
      Tiled.last blank
    rw [Position.shift_advance s isLine] at atEnd
    exact atEnd
  | @lexeme place gap chars rest kind ts blank spells stops tiled ih =>
    have others := ih (Position.line_advance_pos isLine _)
    rw [← Position.shift_advance s isLine] at others
    have whole := Tiled.lexeme blank spells stops others
    rw [Position.shift_advance s isLine] at whole
    exact whole

/-- Blanks may be put before a text. -/
theorem behind_blanks {gap : List Char} (tiled : Tiled (place.advance gap) text ts)
    (blank : gap.all isBlank) : Tiled place (gap ++ text) ts := by
  generalize eq : place.advance gap = behind at tiled
  cases tiled with
  | @last _ more blankMore =>
    subst eq
    rw [← Position.advance_append]
    exact Tiled.last (all_isBlank_append blank blankMore)
  | @lexeme _ more chars rest kind ts blankMore spells stops tiled =>
    subst eq
    rw [← Position.advance_append, ← List.append_assoc] at *
    exact Tiled.lexeme (all_isBlank_append blank blankMore) spells stops tiled

/-- With a gap between them, one text is read behind another. -/
theorem append {before us : List Token} {last : Token} {gap rest : List Char}
    (first : Tiled place text (before ++ [last])) (blank : gap.all isBlank) (nonempty : gap ≠ [])
    (second : Tiled (place.advance (text ++ gap)) rest us) :
    Tiled place (text ++ (gap ++ rest)) (before ++ us) := by
  generalize eq : before ++ [last] = ts at first
  induction first generalizing before with
  | @last place more blankMore =>
    obtain ⟨rfl, -⟩ := List.append_eq_singleton_iff.mp eq |>.resolve_right (by simp)
    rw [← List.append_assoc]
    exact second.behind_blanks (all_isBlank_append blankMore blank)
  | @lexeme place more chars text kind ts blankMore spells stops tiled ih =>
    cases before with
    | nil =>
      cases eq
      exact absurd rfl tiled.ne_nil
    | cons t before =>
      cases eq
      -- A lexeme that stops at the end of the first text stops at the gap.
      have stopsToo : ∀ c ∈ (text ++ (gap ++ rest)).head?, kind.goesOn c = false := by
        obtain ⟨d, ds, rfl⟩ := List.exists_cons_of_ne_nil nonempty
        cases text with
        | nil =>
          intro c mem
          cases mem
          exact kind.goesOn_of_isBlank (List.all_eq_true.mp blank d List.mem_cons_self)
        | cons c text => exact stops
      rw [← List.append_assoc, List.append_assoc _ text, Position.advance_append] at second
      have others := ih second rfl
      have whole := Tiled.lexeme blankMore spells stopsToo others
      simpa only [List.append_assoc, List.cons_append] using whole

end Tiled

/-! ## Strays behind tokens -/

theorem Clean.append {a b : List Char} (first : Clean a) (second : Clean b) : Clean (a ++ b) := by
  intro line rest
  rw [List.append_assoc, first, second, List.count_append, Nat.add_assoc]

theorem clean_of_blank {gap : List Char} (blank : gap.all isBlank) : Clean gap := by
  apply clean_of_isPlain
  rw [List.all_eq_true] at blank ⊢
  intro c mem
  exact isPlain_of_isBlank (blank c mem)

/-- A text that has tokens has no strays, and decides of nothing behind it. -/
theorem Tiled.clean {place : Position} {text : List Char} {ts : List Token}
    (tiled : Tiled place text ts) : Clean text := by
  induction tiled with
  | last blank => exact clean_of_blank blank
  | @lexeme place gap chars rest kind ts blank spells stops _ ih =>
    have lexeme : Clean chars := (munch_lexeme_clean (munch_of_spells spells stops)).1
    exact (clean_of_blank blank).append (lexeme.append ih)

/-- The strays of a text are on other lines when it starts on another one. -/
theorem straysFrom_add (s : Shift) (before : Option Char) (line : Nat) (text : List Char) :
    straysFrom before (line + s.lines) text = (straysFrom before line text).map (·.shift s) := by
  induction text generalizing before line with
  | nil => rfl
  | cons c rest ih =>
    rw [straysFrom, straysFrom, List.map_append, ← ih, Nat.add_right_comm]
    split
    · rfl
    · rfl

/-! ## Buffers -/

namespace TokenBuffer

theorem ofSource_eq_error {source : String} {e : LexError} :
    ofSource source = .error e ↔ (strays source.toList).head? = some e := by
  rw [← error?_ofSource]
  cases ofSource source <;> simp [Lexer.error?]

variable {first gap second : String} {front : TokenBuffer}

/-- Behind a source and a gap there are the tokens that the second source has on its own, moved
to where they stand. -/
theorem exists_ofSource_append {behind : TokenBuffer} (lexed : ofSource first = .ok front)
    (blank : gap.toList.all isBlank) (nonempty : gap ≠ "")
    (lexedToo : ofSource second = .ok behind) :
    ∃ buffer, ofSource (first ++ gap ++ second) = .ok buffer ∧
      buffer.body = front.body ++ behind.body.map (·.shift (.past (first ++ gap).toList)) ∧
      buffer.last = behind.last.shift (.past (first ++ gap).toList) := by
  have placed := (ofSource_eq_ok.mp lexedToo).shift Nat.one_pos (.past (first ++ gap).toList)
  rw [← Position.advance_origin, String.toList_append] at placed
  have gapNonempty : gap.toList ≠ [] := fun empty => nonempty (String.toList_eq_nil_iff.mp empty)
  have whole := (ofSource_eq_ok.mp lexed).append blank gapNonempty placed
  rw [← List.append_assoc, ← String.toList_append, ← String.toList_append] at whole
  obtain ⟨buffer, lexedWhole, tokensEq⟩ := whole.exists_ofSource
  rw [tokens, tokens, List.map_append, List.map_singleton, ← List.append_assoc] at tokensEq
  obtain ⟨body, last⟩ := List.append_inj' tokensEq rfl
  exact ⟨buffer, lexedWhole, body, List.singleton_inj.mp last⟩

/-- An error of the second source is the error of both, on its new line. -/
theorem ofSource_append_error {e : LexError} (lexed : ofSource first = .ok front)
    (blank : gap.toList.all isBlank) (failed : ofSource second = .error e) :
    ofSource (first ++ gap ++ second) = .error (e.shift (.past (first ++ gap).toList)) := by
  have clean : Clean (first ++ gap).toList := by
    rw [String.toList_append]
    exact (ofSource_eq_ok.mp lexed).clean.append (clean_of_blank blank)
  rw [ofSource_eq_error, strays_eq_straysFrom] at failed ⊢
  have moved := straysFrom_add (.past (first ++ gap).toList) none 1 second.toList
  rw [String.toList_append, clean]
  exact (congrArg List.head? moved).trans (List.head?_map.trans (congrArg (Option.map _) failed))

end TokenBuffer

end PipeScript
