import Mathlib.Data.List.Chain
import PipeScript.Proofs.Tiling

/-!
# Where lexemes need a gap between them

Lexemes that are written one behind the other are read back one by one, unless two of them are
taken for one. `Kind.Fuses` lists the pairs of kinds for which that happens. It depends on the
kinds alone: a lexeme goes on with the first character of the next one, whatever the two
lexemes are, or it does not, whatever they are (`goesOn_iff_fuses`).

`TokenBuffer.ofSource_spaced_iff` says that these pairs need a gap and that no others do.
-/

namespace PipeScript

/-! ## Texts -/

/-- Some blanks, or none. -/
abbrev Gap := { chars : List Char // chars.all isBlank }

/-- The text of some lexemes, each behind its gap, with one more gap behind the last one. -/
def spaced : List (Gap × Leaf Spelling) → Gap → List Char
  | [], trailing => trailing.1
  | (gap, leaf) :: items, trailing => gap.1 ++ (leaf.2.1 ++ spaced items trailing)

/-- What a token says apart from its place: its kind, its lexeme and its value. -/
def Token.content (t : Token) : Kind × String × Literal := (t.kind, t.lexeme, t.value)

/-- What a token that is spelled this way says. -/
def Leaf.content (leaf : Leaf Spelling) : Kind × String × Literal :=
  (leaf.1, String.ofList leaf.2.1, .ofLexeme leaf.1 leaf.2.1)

/-- What the end of the input says. -/
def endContent : Kind × String × Literal := (.endOfInput, "", .none)

/-! ## Pairs of kinds -/

namespace Kind

/-- The keyword is a word, as identifiers are. -/
def isWord (kind : Kind) : Bool := kind = identifier ∨ kind = letKeyword

/-- The pairs of kinds whose lexemes are read as one, or as two others, where nothing stands
between them. -/
def Fuses (left right : Kind) : Prop :=
  left = number ∧ right = number ∨
    left.isWord ∧ (right.isWord ∨ right = number) ∨
    left = assign ∧ (right = assign ∨ right = equality)

instance (left right : Kind) : Decidable (left.Fuses right) :=
  inferInstanceAs (Decidable (_ ∨ _ ∨ _))

/-- What the first character of a lexeme says about its kind. -/
theorem Spells.head {kind : Kind} {c : Char} {cs : List Char} (spells : kind.Spells (c :: cs)) :
    (isDigit c ↔ kind = number) ∧ (isWordPart c ↔ kind.isWord ∨ kind = number) ∧
      (c = '=' ↔ kind = assign ∨ kind = equality) := by
  cases kind with
  | endOfInput => exact spells.elim
  | number =>
    have digit : isDigit c := (Bool.and_eq_true_iff.mp spells.2).1
    have part : isWordPart c := by rw [isWordPart, digit, Bool.or_true]
    have notEquals : c ≠ '=' := by
      rintro rfl
      exact absurd digit (by decide)
    simp [digit, part, notEquals]
  | identifier =>
    have start : isWordStart c := spells.1.1
    have part : isWordPart c := by rw [isWordPart, start, Bool.true_or]
    have notEquals : c ≠ '=' := by
      rintro rfl
      exact absurd start (by decide)
    simp [isDigit_of_isWordStart start, part, notEquals, isWord]
  | _ =>
    cases spells
    decide

/-- A lexeme goes on with the first character of another one if their kinds say so. -/
theorem goesOn_iff_fuses (left : Kind) {right : Kind} {c : Char} {cs : List Char}
    (spells : right.Spells (c :: cs)) : left.goesOn c ↔ left.Fuses right := by
  obtain ⟨digit, part, equals⟩ := spells.head
  cases left with
  | number => simp [goesOn, Fuses, isWord, digit]
  | identifier => simp [goesOn, Fuses, isWord, part]
  | letKeyword => simp [goesOn, Fuses, isWord, part]
  | assign => simp [goesOn, Fuses, isWord, equals]
  | _ => simp [goesOn, Fuses, isWord]

end Kind

/-! ## Reading -/

/-- A lexeme does not go on with what stands behind it unless it fuses with the next lexeme and
has no gap behind it. -/
theorem stops_spaced_iff (kind : Kind) (items : List (Gap × Leaf Spelling)) (trailing : Gap) :
    (∀ c ∈ (spaced items trailing).head?, kind.goesOn c = false) ↔
      ∀ item ∈ items.head?, item.1.1 = [] → ¬ kind.Fuses item.2.1 := by
  have blanks {gap : List Char} (blank : gap.all isBlank) :
      ∀ c ∈ gap.head?, kind.goesOn c = false := by
    intro c mem
    exact kind.goesOn_of_isBlank (List.all_eq_true.mp blank c (List.mem_of_mem_head? mem))
  rcases items with - | ⟨⟨⟨gap, blank⟩, ⟨next, chars, spells⟩⟩, items⟩
  · exact iff_of_true (blanks trailing.2) (by simp)
  · obtain ⟨c, cs, eq, -⟩ := head_not_blank ⟨chars, spells⟩
    cases show chars = c :: cs from eq
    cases gap with
    | nil =>
      have fuses := kind.goesOn_iff_fuses spells
      simp [spaced, ← fuses]
    | cons d gap =>
      have stops := blanks blank
      simpa [spaced] using stops

/-- A text is read as the lexemes that it was written for as long as none of them goes on. -/
theorem exists_tiled_spaced_cons (place : Position) (gap : Gap) (leaf : Leaf Spelling)
    (rest : List Char) (contents : List (Kind × String × Literal)) :
    (∃ ts, Tiled place (gap.1 ++ (leaf.2.1 ++ rest)) ts ∧
        ts.map Token.content = leaf.content :: contents) ↔
      (∀ c ∈ rest.head?, leaf.1.goesOn c = false) ∧
        ∃ ts, Tiled (place.advance (gap.1 ++ leaf.2.1)) rest ts ∧
          ts.map Token.content = contents := by
  obtain ⟨gap, blank⟩ := gap
  obtain ⟨kind, chars, spells⟩ := leaf
  constructor
  · rintro ⟨ts, tiled, contentsEq⟩
    simp only at tiled ⊢
    generalize eq : gap ++ (chars ++ rest) = text at tiled
    have notBlank := spells.head_not_blank rest
    -- The text has one first gap, and behind it the two lexemes are spelled alike.
    cases tiled with
    | last blankText =>
      have isEnd : Kind.endOfInput = kind := congrArg (·.1) (List.cons.inj contentsEq).1
      exact absurd isEnd.symm (kind_ne_endOfInput ⟨chars, spells⟩)
    | @lexeme _ gap' chars' rest' _ ts blank' spells' stops tiled =>
      obtain ⟨contentEq, restEq⟩ := List.cons.inj contentsEq
      obtain ⟨rfl, lexemes⟩ := Prod.mk.inj contentEq
      have gaps : gap = gap' := by
        rw [← takeWhile_append_of_head blank notBlank, eq,
          takeWhile_append_of_head blank' (spells'.head_not_blank rest')]
      have chars_eq : chars' = chars := String.ofList_injective (Prod.mk.inj lexemes).1
      subst gaps chars_eq
      cases List.append_cancel_left (List.append_cancel_left eq)
      exact ⟨stops, ts, tiled, restEq⟩
  · rintro ⟨stops, ts, tiled, contentsEq⟩
    refine ⟨_, Tiled.lexeme blank spells stops tiled, ?_⟩
    rw [List.map_cons, contentsEq]
    rfl

theorem exists_tiled_spaced (items : List (Gap × Leaf Spelling)) (trailing : Gap)
    (place : Position) :
    (∃ ts, Tiled place (spaced items trailing) ts ∧
        ts.map Token.content = items.map (·.2.content) ++ [endContent]) ↔
      items.IsChain fun left right => right.1.1 = [] → ¬ left.2.1.Fuses right.2.1 := by
  induction items generalizing place with
  | nil => exact iff_of_true ⟨_, Tiled.last trailing.2, rfl⟩ List.isChain_nil
  | cons item items ih =>
    obtain ⟨gap, leaf⟩ := item
    rw [List.isChain_cons, ← stops_spaced_iff leaf.1 items trailing,
      ← ih (place.advance (gap.1 ++ leaf.2.1))]
    exact exists_tiled_spaced_cons place gap leaf _ _

namespace TokenBuffer

/-- Lexemes that are written one behind the other are read back as they are if and only if there
is a gap between any two that would fuse. -/
theorem ofSource_spaced_iff (items : List (Gap × Leaf Spelling)) (trailing : Gap) :
    (∃ buffer, ofSource (String.ofList (spaced items trailing)) = .ok buffer ∧
        buffer.tokens.map Token.content = items.map (·.2.content) ++ [endContent]) ↔
      items.IsChain fun left right => right.1.1 = [] → ¬ left.2.1.Fuses right.2.1 := by
  rw [← exists_tiled_spaced items trailing .origin]
  constructor
  · rintro ⟨buffer, lexed, contents⟩
    have tiled := ofSource_eq_ok.mp lexed
    rw [String.toList_ofList] at tiled
    exact ⟨buffer.tokens, tiled, contents⟩
  · rintro ⟨ts, tiled, contents⟩
    rw [← String.toList_ofList (l := spaced items trailing)] at tiled
    obtain ⟨buffer, lexed, rfl⟩ := tiled.exists_ofSource
    exact ⟨buffer, lexed, contents⟩

/-- Behind `==` another `=` needs no gap, but it does need one before it. -/
example : ¬ Kind.Fuses .equality .assign ∧ Kind.Fuses .assign .equality := by decide

end TokenBuffer

end PipeScript
