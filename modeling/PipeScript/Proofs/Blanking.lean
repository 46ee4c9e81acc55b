import PipeScript.Proofs.Draining
import PipeScript.Proofs.Relocation

/-!
# Spaces in the place of strays

The characters that a lexer reports on its way to the end of the input may as well be blanks: with
as many spaces in the place of each as it has bytes, a source has the tokens that the lexer reads
off it around the errors (`TokenBuffer.ofSource_blanked`), at the same bytes and on the same
lines. Columns may differ, as a character that takes several bytes takes one column.

So a stray ends the lexeme before it and starts nothing, and no lexemes around it become one. The
proof follows the drain of the lexer and tiles the rest of the changed text behind each read. What
carries it is that a lexeme that stops where the text goes on stops at a space, too.
-/

namespace PipeScript

/-! ## The changed source -/

/-- A text from some byte on, with spaces in the place of the characters that start at certain
bytes. -/
def blankAt (offsets : List Nat) (offset : Nat) : List Char → List Char
  | [] => []
  | c :: rest =>
    (if offset ∈ offsets then List.replicate c.utf8Size ' ' else [c]) ++
      blankAt offsets (offset + c.utf8Size) rest

namespace Lexer

/-- The bytes at which the characters start that a lexer reports up to the end of the input. A
reported character is the last one that the read has taken in. -/
def reported (lexer : Lexer) : List Nat :=
  if isEnd lexer.nextToken.1 then
    []
  else
    (error? lexer.nextToken.1).toList.map
        (fun e => lexer.nextToken.2.place.offset - e.character.utf8Size) ++
      lexer.nextToken.2.reported
termination_by lexer.rest.length
decreasing_by
  rename_i more
  apply nextToken_progress
  intro t found last
  rw [found] at more
  exact more (decide_eq_true last)

/-- Nothing is reported at a byte before the place of the lexer. -/
theorem le_of_mem_reported (lexer : Lexer) : ∀ b ∈ lexer.reported, lexer.place.offset ≤ b := by
  induction lexer using drain.induct with
  | case1 lexer ending =>
    rw [reported, if_pos ending]
    simp
  | case2 lexer more ih =>
    rw [reported, if_neg more]
    rcases eq : lexer.nextToken with ⟨answer, behind⟩
    rw [eq] at more ih
    cases read_of_eq eq with
    | last => exact absurd rfl more
    | @lexeme gap chars _ _ _ _ _ _ =>
      rw [place_skip, Position.offset_advance] at ih
      intro b mem
      exact Nat.le_trans (Nat.le_add_right _ _) (ih b mem)
    | @stray gap _ c _ _ _ =>
      rw [place_skip, Position.offset_advance, byteLength_append, byteLength_singleton] at ih
      intro b mem
      rcases List.mem_cons.mp mem with here | later
      · rw [here, place_skip, Position.offset_advance, byteLength_append, byteLength_singleton]
        dsimp only
        omega
      · exact Nat.le_trans (Nat.le_add_right _ _) (ih b later)

end Lexer

/-- A source with spaces in the place of the characters that its lexer reports. -/
def blanked (source : String) : String :=
  String.ofList (blankAt (Lexer.ofSource source).reported 0 source.toList)

/-- All that a token says but its column. -/
def Token.withoutColumn (t : Token) : Kind × String × Literal × Nat × Nat × Nat :=
  (t.kind, t.lexeme, t.value, t.span.start, t.span.len, t.span.line)

/-! ## Changing a text -/

/-- Characters before all the bytes are kept. -/
theorem blankAt_append {offsets : List Nat} {offset : Nat} {chars : List Char}
    (later : ∀ b ∈ offsets, offset + byteLength chars ≤ b) (rest : List Char) :
    blankAt offsets offset (chars ++ rest) =
      chars ++ blankAt offsets (offset + byteLength chars) rest := by
  induction chars generalizing offset with
  | nil => rfl
  | cons c chars ih =>
    rw [byteLength_cons, ← Nat.add_assoc] at later
    have kept : offset ∉ offsets := by
      intro mem
      have := later offset mem
      have := c.utf8Size_pos
      omega
    rw [List.cons_append, blankAt, if_neg kept, ih later, byteLength_cons, ← Nat.add_assoc]
    rfl

/-- Bytes before the text do not matter. -/
theorem blankAt_cons_of_lt {b offset : Nat} (before : b < offset) (offsets : List Nat)
    (text : List Char) : blankAt (b :: offsets) offset text = blankAt offsets offset text := by
  induction text generalizing offset with
  | nil => rfl
  | cons c rest ih =>
    have apart : offset ∈ b :: offsets ↔ offset ∈ offsets := by
      rw [List.mem_cons, or_iff_right (Nat.ne_of_gt before)]
    rw [blankAt, blankAt, ih (Nat.lt_add_right _ before)]
    simp only [apart]

/-- The first character at one of the bytes is the first one to become spaces. -/
theorem blankAt_first {offsets : List Nat} {offset : Nat} {gap : List Char} {c : Char}
    (later : ∀ b ∈ offsets, offset + byteLength (gap ++ [c]) ≤ b) (rest : List Char) :
    blankAt ((offset + byteLength gap) :: offsets) offset (gap ++ c :: rest) =
      gap ++ List.replicate c.utf8Size ' ' ++
        blankAt offsets (offset + byteLength (gap ++ [c])) rest := by
  rw [byteLength_append, byteLength_singleton, ← Nat.add_assoc] at later ⊢
  have positive : 0 < c.utf8Size := c.utf8Size_pos
  have behind : ∀ b ∈ (offset + byteLength gap) :: offsets, offset + byteLength gap ≤ b := by
    intro b mem
    rcases List.mem_cons.mp mem with here | further
    · exact Nat.le_of_eq here.symm
    · exact Nat.le_trans (Nat.le_add_right _ _) (later b further)
  rw [blankAt_append behind, blankAt, if_pos List.mem_cons_self,
    blankAt_cons_of_lt (Nat.lt_add_of_pos_right positive), List.append_assoc]

/-- A changed text starts as it did before, or with a space. -/
theorem head?_blankAt {offsets : List Nat} {offset : Nat} {text : List Char} :
    ∀ c ∈ (blankAt offsets offset text).head?, c ∈ text.head? ∨ c = ' ' := by
  cases text with
  | nil => simp [blankAt]
  | cons d rest =>
    intro c mem
    obtain ⟨n, size⟩ := Nat.exists_eq_add_of_lt d.utf8Size_pos
    rw [blankAt, size] at mem
    split at mem
    · rw [Nat.zero_add, List.replicate_succ] at mem
      exact Or.inr (Option.some.inj mem).symm
    · exact Or.inl mem

theorem blankAt_nil (offset : Nat) (text : List Char) : blankAt [] offset text = text := by
  have nowhere : ∀ b ∈ ([] : List Nat), offset + byteLength text ≤ b := by simp
  have kept := blankAt_append nowhere []
  rw [List.append_nil, blankAt, List.append_nil] at kept
  exact kept

/-! ## Reading the changed source -/

/-- Two places at the same byte and on the same line. -/
def Position.Level (p q : Position) : Prop := p.offset = q.offset ∧ p.line = q.line

theorem Position.Level.advance {p q : Position} (level : p.Level q) (chars : List Char) :
    (p.advance chars).Level (q.advance chars) := by
  obtain ⟨offset, line⟩ := level
  constructor
  · rw [offset_advance, offset_advance, offset]
  · rw [line_advance, line_advance, line]

/-- Spaces lead to where a character leads that takes as many bytes and is no line feed. -/
theorem Position.Level.advance_spaces {p q : Position} (level : p.Level q) {c : Char}
    (notFeed : c ≠ '\n') : (p.advance (List.replicate c.utf8Size ' ')).Level (q.advance [c]) := by
  obtain ⟨offset, line⟩ := level
  have bytes (n : Nat) : byteLength (List.replicate n ' ') = n := by
    induction n with
    | zero => rfl
    | succ n ih =>
      have one : ' '.utf8Size = 1 := rfl
      rw [List.replicate_succ, byteLength_cons, ih, one, Nat.add_comm]
  constructor
  · rw [offset_advance, offset_advance, offset, bytes, byteLength_singleton]
  · have feeds : (List.replicate c.utf8Size ' ').count '\n' = 0 := by
      simp [List.count_replicate]
    have feed : [c].count '\n' = 0 := by simp [notFeed]
    rw [line_advance, line_advance, line, feeds, feed]

theorem Token.withoutColumn_ofLexeme {p q : Position} (level : p.Level q) (kind : Kind)
    (chars : List Char) :
    (ofLexeme kind chars p).withoutColumn = (ofLexeme kind chars q).withoutColumn := by
  obtain ⟨offset, line⟩ := level
  simp only [withoutColumn, ofLexeme, Span.ofPosition, offset, line]

namespace Tiled

variable {offsets : List Nat} {offset : Nat} {place : Position} {gap chars rest : List Char}
  {ts : List Token}

/-- A lexeme before all the bytes is read as it was: where it stopped at a character, it stops at
a space in its place. -/
theorem blankAt_lexeme {kind : Kind} (blank : gap.all isBlank) (spells : kind.Spells chars)
    (stops : ∀ c ∈ rest.head?, kind.goesOn c = false)
    (later : ∀ b ∈ offsets, offset + byteLength (gap ++ chars) ≤ b)
    (tiled : Tiled (place.advance (gap ++ chars))
      (blankAt offsets (offset + byteLength (gap ++ chars)) rest) ts) :
    Tiled place (blankAt offsets offset (gap ++ (chars ++ rest)))
      (.ofLexeme kind chars (place.advance gap) :: ts) := by
  rw [← List.append_assoc, blankAt_append later, List.append_assoc]
  apply Tiled.lexeme blank spells _ tiled
  intro c mem
  rcases head?_blankAt c mem with old | rfl
  · exact stops c old
  · exact kind.goesOn_of_isBlank rfl

/-- Behind a gap, the spaces in the place of a character are more of the gap. -/
theorem blankAt_stray {c : Char} (blank : gap.all isBlank)
    (later : ∀ b ∈ offsets, offset + byteLength (gap ++ [c]) ≤ b)
    (tiled : Tiled (place.advance (gap ++ List.replicate c.utf8Size ' '))
      (blankAt offsets (offset + byteLength (gap ++ [c])) rest) ts) :
    Tiled place (blankAt ((offset + byteLength gap) :: offsets) offset (gap ++ c :: rest)) ts := by
  have spaces : (List.replicate c.utf8Size ' ').all isBlank := by
    simp [List.all_replicate, isBlank]
  rw [blankAt_first later]
  exact tiled.behind_blanks (all_isBlank_append blank spaces)

end Tiled

namespace Lexer

/-- The tokens that a lexer gives up to the end of the input, whatever errors are among them. -/
def tokensLeft (lexer : Lexer) : List Token := lexer.drain.filterMap Except.toOption

/-- With spaces in the place of what a lexer reports, what it has left is tiled with the tokens
that it gives, from any place on that differs in its column at most. -/
theorem exists_tiled_blankAt (lexer : Lexer) {place : Position} (level : place.Level lexer.place) :
    ∃ ts, Tiled place (blankAt lexer.reported lexer.place.offset lexer.rest) ts ∧
      ts.map Token.withoutColumn = lexer.tokensLeft.map Token.withoutColumn := by
  induction lexer using drain.induct generalizing place with
  | case1 lexer ending =>
    rw [tokensLeft, drain, reported, if_pos ending, if_pos ending, blankAt_nil]
    rcases eq : lexer.nextToken with ⟨answer, behind⟩
    rw [eq] at ending
    cases read_of_eq eq with
    | @last gap whole blank =>
      rw [whole]
      refine ⟨_, Tiled.last blank, ?_⟩
      exact congrArg (· :: []) (Token.withoutColumn_ofLexeme (level.advance gap) .endOfInput [])
    | lexeme _ _ spells _ =>
      exact absurd (of_decide_eq_true ending) (kind_ne_endOfInput ⟨_, spells⟩)
    | stray => cases ending
  | case2 lexer more ih =>
    have later := lexer.nextToken.2.le_of_mem_reported
    rw [tokensLeft, drain, reported, if_neg more, if_neg more]
    rcases eq : lexer.nextToken with ⟨answer, behind⟩
    rw [eq] at more ih later
    cases read_of_eq eq with
    | last => exact absurd rfl more
    | @lexeme gap chars rest kind text blank spells stops =>
      obtain ⟨ts, tiled, same⟩ := ih (level.advance (gap ++ chars))
      rw [place_skip, Position.offset_advance] at later
      rw [rest_skip_gap text, place_skip, Position.offset_advance] at tiled
      rw [text]
      refine ⟨_, Tiled.blankAt_lexeme blank spells stops later tiled, ?_⟩
      have head := Token.withoutColumn_ofLexeme (level.advance gap) kind chars
      rw [List.map_cons, same, head]
      rfl
    | @stray gap rest c text blank notBlank =>
      have notFeed : c ≠ '\n' := by
        rintro rfl
        cases notBlank
      have levelBehind := (level.advance gap).advance_spaces notFeed
      rw [← Position.advance_append, ← Position.advance_append] at levelBehind
      obtain ⟨ts, tiled, same⟩ := ih levelBehind
      have rest_eq : (lexer.skip (gap ++ [c])).rest = rest := rest_skip_gap text
      rw [place_skip, Position.offset_advance, rest_eq] at tiled
      rw [place_skip, Position.offset_advance] at later
      have changed := Tiled.blankAt_stray blank later tiled
      have offset_eq : (lexer.skip (gap ++ [c])).place.offset - c.utf8Size =
          lexer.place.offset + byteLength gap := by
        rw [place_skip, Position.offset_advance, byteLength_append, byteLength_singleton]
        omega
      rw [← text, ← offset_eq] at changed
      exact ⟨ts, changed, same⟩

end Lexer

/-! ## The tokens of the changed source -/

/-- With spaces in the place of the characters that are reported, a source has the tokens that the
lexer gives around its errors, in the same places but for columns. -/
theorem TokenBuffer.ofSource_blanked (source : String) :
    ∃ buffer, ofSource (blanked source) = .ok buffer ∧
      buffer.tokens.map Token.withoutColumn =
        (Lexer.ofSource source).tokensLeft.map Token.withoutColumn := by
  have level : Position.origin.Level (Lexer.ofSource source).place := ⟨rfl, rfl⟩
  obtain ⟨ts, tiled, same⟩ := (Lexer.ofSource source).exists_tiled_blankAt level
  have changed : (blanked source).toList =
      blankAt (Lexer.ofSource source).reported 0 source.toList := String.toList_ofList
  have tiledSource : Tiled .origin (blanked source).toList ts := by
    rw [changed]
    exact tiled
  obtain ⟨buffer, lexed, rfl⟩ := tiledSource.exists_ofSource
  exact ⟨buffer, lexed, same⟩

end PipeScript
