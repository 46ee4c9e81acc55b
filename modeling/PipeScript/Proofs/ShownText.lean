import PipeScript.Proofs.Strays
import PipeScript.Proofs.WrittenText

/-!
# What tokens are shown with

A token of a source is shown with the characters of words, the signs of operators and brackets, the
apostrophes around these and the point of a number: there is nothing in it that a text around it
would have to escape, and nothing that breaks a line (`Token.madeOf_display`). A token that was not
read off a source can be shown with any characters at all.
-/

namespace PipeScript

/-! ## Texts by their characters -/

/-- All characters of a text are of some sort. -/
def MadeOf (sort : Char → Prop) (text : String) : Prop := ∀ c ∈ text.toList, sort c

instance (sort : Char → Prop) [DecidablePred sort] : DecidablePred (MadeOf sort) :=
  fun text => List.decidableBAll sort text.toList

namespace MadeOf

variable {sort other : Char → Prop} {a b : String}

theorem mono (ofSort : ∀ c, sort c → other c) (made : MadeOf sort a) : MadeOf other a :=
  fun c mem => ofSort c (made c mem)

theorem append (first : MadeOf sort a) (second : MadeOf sort b) : MadeOf sort (a ++ b) := by
  intro c mem
  rw [String.toList_append] at mem
  exact (List.mem_append.mp mem).elim (first c) (second c)

theorem ofList {chars : List Char} (each : ∀ c ∈ chars, sort c) :
    MadeOf sort (String.ofList chars) := by
  intro c mem
  rw [String.toList_ofList] at mem
  exact each c mem

theorem of_mem {chars : List Char} (made : MadeOf sort (String.ofList chars)) {c : Char}
    (mem : c ∈ chars) : sort c := by
  rw [← String.toList_ofList (l := chars)] at mem
  exact made c mem

end MadeOf

/-! ## Digits -/

/-- The digits of a number are those below the base. -/
theorem exists_digitChar_of_mem_toDigits {b n : Nat} (base : 1 < b) {c : Char}
    (mem : c ∈ Nat.toDigits b n) : ∃ d < b, c = d.digitChar := by
  induction n using Nat.strongRecOn with
  | ind n ih =>
    rw [Nat.toDigits_eq_if base] at mem
    split at mem
    · rename_i less
      exact ⟨n, less, List.mem_singleton.mp mem⟩
    · rename_i notLess
      rcases List.mem_append.mp mem with leading | last
      · exact ih (n / b) (Nat.div_lt_self (by omega) base) leading
      · exact ⟨n % b, Nat.mod_lt n (by omega), List.mem_singleton.mp last⟩

/-- Up to the hexadecimal ones, digits are characters of words. -/
theorem isWordPart_of_mem_toDigits {b n : Nat} (base : 1 < b) (small : b ≤ 16) {c : Char}
    (mem : c ∈ Nat.toDigits b n) : isWordPart c := by
  have hexadecimal : ∀ d < 16, isWordPart (Nat.digitChar d) := by decide
  obtain ⟨d, less, rfl⟩ := exists_digitChar_of_mem_toDigits base mem
  exact hexadecimal d (Nat.lt_of_lt_of_le less small)

/-! ## Tokens -/

/-- What tokens are shown with beside the characters of words. -/
def signs : List Char := ['(', ')', '{', '}', '=', '|', '-', '>', '\'', '.']

/-- The characters that a token of a source is shown with. -/
def IsShown (c : Char) : Prop := isWordPart c ∨ c ∈ signs

instance : DecidablePred IsShown := fun c =>
  inferInstanceAs (Decidable (isWordPart c ∨ c ∈ signs))

theorem isShown_of_mem_digitText {n : Nat} {c : Char} (mem : c ∈ digitText n) : IsShown c :=
  Or.inl (isWordPart_of_mem_toDigits (by decide) (by decide) mem)

namespace Binary64

theorem madeOf_signed (x : Binary64) {magnitude : List Char}
    (shown : ∀ c ∈ magnitude, IsShown c) : MadeOf IsShown (x.signed magnitude) := by
  have sign : MadeOf IsShown (String.ofList (if x.negative then ['-'] else [])) := by
    cases x.negative <;> decide
  have infinite : MadeOf IsShown (String.ofList ['i', 'n', 'f']) := by decide
  by_cases notANumber : x.isNaN
  · rw [signed, if_pos notANumber]
    decide
  · rw [signed, if_neg notANumber, String.ofList_append, String.ofList_append]
    split
    · exact sign.append (.ofList shown)
    · exact sign.append infinite

/-- Numbers are written with digits, a point, and names for what is not finite. -/
theorem madeOf_fixed (x : Binary64) (places : Nat) : MadeOf IsShown (x.fixed places) := by
  have zero : IsShown '0' := by decide
  have point : IsShown '.' := by decide
  apply x.madeOf_signed
  refine List.forall_mem_append.mpr ⟨fun c => isShown_of_mem_digitText, ?_⟩
  refine List.forall_mem_cons.mpr ⟨point, List.forall_mem_append.mpr ⟨?_, ?_⟩⟩
  · intro c mem
    rw [List.eq_of_mem_replicate mem]
    exact zero
  · exact fun c => isShown_of_mem_digitText

end Binary64

/-- A lexeme is of characters that tokens are shown with. -/
theorem Kind.Spells.madeOf {kind : Kind} {lexeme : String} (spells : kind.Spells lexeme.toList) :
    MadeOf IsShown lexeme := by
  have fixed (eq : lexeme.toList = kind.spelling)
      (made : MadeOf IsShown (String.ofList kind.spelling)) : MadeOf IsShown lexeme := by
    rw [← eq, String.ofList_toList] at made
    exact made
  cases kind with
  | endOfInput => exact spells.elim
  | number =>
    intro c mem
    exact Or.inl (isWordPart_of_isDigit (List.all_eq_true.mp spells.2 c mem))
  | identifier =>
    obtain ⟨c, cs, eq, start, parts⟩ := spells.1.exists_cons
    have head : isWordPart c := by rw [isWordPart, start, Bool.true_or]
    rw [MadeOf, eq]
    refine List.forall_mem_cons.mpr ⟨Or.inl head, fun d mem => Or.inl ?_⟩
    exact List.all_eq_true.mp parts d mem
  | _ => exact fixed spells (by decide)

/-- What is shown of a token of a source is its name, its number or its lexeme, and brackets or
apostrophes around that. -/
theorem Token.madeOf_display {t : Token}
    (spelled : t.kind = .endOfInput ∨ t.kind.Spells t.lexeme.toList)
    (valued : t.value = .ofLexeme t.kind t.lexeme.toList) : MadeOf IsShown t.display := by
  have closing : MadeOf IsShown ")" := by decide
  unfold display
  rw [valued]
  by_cases ending : t.kind = .endOfInput
  · rw [ending]
    exact (by decide : MadeOf IsShown "EOF")
  have lexeme : MadeOf IsShown t.lexeme := (spelled.resolve_left ending).madeOf
  cases kind : t.kind with
  | endOfInput => exact absurd kind ending
  | identifier =>
    have opening : MadeOf IsShown "ID(" := by decide
    rw [Literal.ofLexeme, String.ofList_toList]
    exact (opening.append lexeme).append closing
  | number =>
    have opening : MadeOf IsShown "NUM(" := by decide
    exact (opening.append (Binary64.madeOf_fixed _ 6)).append closing
  | _ =>
    have quote : MadeOf IsShown "'" := by decide
    exact (quote.append lexeme).append quote

end PipeScript
