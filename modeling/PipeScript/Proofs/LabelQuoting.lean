import Mathlib.Algebra.Ring.Parity
import Mathlib.Data.List.Induction
import PipeScript.Proofs.Drawing

/-!
# Labels between their quotes

A declaration puts the text of a token between two quotes. The closing one has to be found again,
whatever the token: a quote of its own must not end the label, and a backslash at its end must not
hide the quote behind it. It is the backslashes directly before a quote that decide. A reader that
undoes escapes ends a label at the first quote with an even number of them.

Escaping doubles every run of backslashes that the text ends in (`backslashesBehind_escaped`), and
it puts one backslash more before each quote of the text (`exists_of_quote_escaped`). So the number
is odd before the quotes inside a label, and even before the one that closes it. `SafelyQuoted`
holds what follows from that, and `Digraph.declare_safelyQuoted` says so of every declaration.
-/

namespace PipeScript

/-! ## Escaping in two passes -/

/-- A text with every occurrence of a character replaced. -/
def replaceEach (c : Char) (replacement text : List Char) : List Char :=
  text.flatMap fun d => if d = c then replacement else [d]

/-- Labels are escaped as if the backslashes were replaced first, and then the quotes. -/
theorem replaceEach_passes (text : List Char) :
    replaceEach '"' ['\\', '"'] (replaceEach '\\' ['\\', '\\'] text) =
      text.flatMap labelEscape := by
  rw [replaceEach, replaceEach, List.flatMap_assoc]
  refine congrArg (text.flatMap ·) (funext fun c => ?_)
  by_cases backslash : c = '\\'
  · subst backslash
    decide
  · rw [if_neg backslash, List.flatMap_singleton, labelEscape]
    by_cases quote : c = '"'
    · rw [if_pos quote, if_pos (Or.inr quote), quote]
    · rw [if_neg quote, if_neg (not_or_intro backslash quote)]

/-- The other way round, the backslash of an escaped quote would be taken for one of the text. -/
example : replaceEach '\\' ['\\', '\\'] (replaceEach '"' ['\\', '"'] ['"']) = ['\\', '\\', '"'] :=
  by decide

/-! ## Backslashes before a place -/

/-- How many backslashes a text ends in. -/
def backslashesBehind (text : List Char) : Nat := (text.reverse.takeWhile (· = '\\')).length

theorem backslashesBehind_concat (text : List Char) (c : Char) :
    backslashesBehind (text ++ [c]) = if c = '\\' then backslashesBehind text + 1 else 0 := by
  by_cases backslash : c = '\\' <;> simp [backslashesBehind, backslash]

/-- The backslashes that a text ends in are escaped by as many again. -/
theorem backslashesBehind_escaped (text : List Char) :
    backslashesBehind (text.flatMap labelEscape) = 2 * backslashesBehind text := by
  induction text using List.reverseRecOn with
  | nil => rfl
  | append_singleton text c ih =>
    rw [List.flatMap_append, List.flatMap_singleton, backslashesBehind_concat, labelEscape]
    by_cases backslash : c = '\\'
    · rw [if_pos (Or.inl backslash), if_pos backslash, backslash,
        List.append_cons, backslashesBehind_concat, backslashesBehind_concat, ih]
      simp only [if_true]
      omega
    · rw [if_neg backslash]
      split
      · rw [List.append_cons, backslashesBehind_concat, if_neg backslash]
      · rw [backslashesBehind_concat, if_neg backslash]

/-- Of what a character is written as, only what a quote is written as has a quote in it. -/
theorem labelEscape_eq_append_quote {c : Char} {before after : List Char}
    (eq : labelEscape c = before ++ '"' :: after) : c = '"' ∧ before = ['\\'] := by
  unfold labelEscape at eq
  split at eq
  · rcases before with _ | ⟨_, _ | ⟨_, before⟩⟩
    · cases eq
    · cases eq
      exact ⟨rfl, rfl⟩
    · simp at eq
  · rename_i plain
    rcases before with _ | ⟨_, before⟩
    · cases eq
      exact absurd (Or.inr rfl) plain
    · simp at eq

/-- A quote in an escaped text is one of the text, with a backslash of its own before it. -/
theorem exists_of_quote_escaped {text before after : List Char}
    (eq : text.flatMap labelEscape = before ++ '"' :: after) :
    ∃ pre post, text = pre ++ '"' :: post ∧ before = pre.flatMap labelEscape ++ ['\\'] := by
  induction text generalizing before with
  | nil => exact absurd eq.symm (by simp)
  | cons c text ih =>
    rw [List.flatMap_cons] at eq
    -- The quote stands behind what `c` is written as, or is a part of it.
    rcases List.append_eq_append_iff.mp eq with ⟨others, rfl, behind⟩ | ⟨part, written, behind⟩
    · obtain ⟨pre, post, rfl, rfl⟩ := ih behind
      exact ⟨c :: pre, post, rfl, by rw [List.flatMap_cons, List.append_assoc]⟩
    · cases part with
      | nil =>
        rw [List.append_nil] at written
        have first : text.flatMap labelEscape = [] ++ '"' :: after := behind.symm
        obtain ⟨pre, post, -, nothing⟩ := ih first
        exact absurd nothing (by simp)
      | cons d part =>
        cases (List.cons.inj behind).1
        obtain ⟨rfl, rfl⟩ := labelEscape_eq_append_quote written
        exact ⟨[], text, rfl, rfl⟩

/-! ## Reading a label -/

/-- Reads on from behind the opening quote of a label: what the label says once its escapes are
undone, and what stands behind its closing quote. -/
def readLabel : List Char → Option (List Char × List Char)
  | [] => none
  | '"' :: rest => some ([], rest)
  | '\\' :: '\\' :: rest => (readLabel rest).map fun read => ('\\' :: read.1, read.2)
  | '\\' :: '"' :: rest => (readLabel rest).map fun read => ('"' :: read.1, read.2)
  | c :: rest => (readLabel rest).map fun read => (c :: read.1, read.2)

/-- A label is read as the text that was escaped, up to the quote that closes it. -/
theorem readLabel_escaped (text rest : List Char) :
    readLabel (text.flatMap labelEscape ++ '"' :: rest) = some (text, rest) := by
  induction text with
  | nil => rfl
  | cons c text ih =>
    rw [List.flatMap_cons, List.append_assoc, labelEscape]
    split
    · rename_i escaped
      rcases escaped with rfl | rfl <;> simp [readLabel, ih]
    · rename_i plain
      obtain ⟨notBackslash, notQuote⟩ := not_or.mp plain
      simp [readLabel, notBackslash, ih]

/-! ## Declarations -/

/-- How a text stands between the quotes of a label: escaped as a whole, so that no quote ends the
label but the closing one, and a reader gets the text back. -/
structure SafelyQuoted (shown inner : String) : Prop where
  escaped : inner.toList =
    replaceEach '"' ['\\', '"'] (replaceEach '\\' ['\\', '\\'] shown.toList)
  inside : ∀ before after, inner.toList = before ++ '"' :: after → Odd (backslashesBehind before)
  closing : Even (backslashesBehind inner.toList)
  read : ∀ rest, readLabel (inner.toList ++ '"' :: rest) = some (shown.toList, rest)

theorem safelyQuoted_labelText (shown : String) : SafelyQuoted shown (labelText shown) := by
  have inner : (labelText shown).toList = shown.toList.flatMap labelEscape := String.toList_ofList
  constructor
  · rw [inner, replaceEach_passes]
  · intro before after eq
    obtain ⟨pre, post, -, rfl⟩ := exists_of_quote_escaped (inner.symm.trans eq)
    rw [backslashesBehind_concat, if_pos rfl, backslashesBehind_escaped]
    exact odd_two_mul_add_one _
  · rw [inner, backslashesBehind_escaped]
    exact even_two_mul _
  · intro rest
    rw [inner, readLabel_escaped]

/-- Texts that are quoted alike are the same. -/
theorem SafelyQuoted.shown_eq {shown other inner : String} (quoted : SafelyQuoted shown inner)
    (quotedToo : SafelyQuoted other inner) : shown = other := by
  have same := (quoted.read []).symm.trans (quotedToo.read [])
  exact String.toList_injective (congrArg Prod.fst (Option.some.inj same))

/-- A declaration adds one line to a graph. Whatever the token of the node is, its label is quoted
safely, and tokens that are shown differently have different labels. -/
theorem Digraph.declare_safelyQuoted (graph : Digraph) (node : Node) :
    ∃ above, graph.text = above ++ graphFooter ∧
      (graph.declare node).text = above ++ ("\t" ++ nodeName node.id ++ " [label = \"" ++
        labelText node.token.display ++ "\"]\n") ++ graphFooter ∧
      SafelyQuoted node.token.display (labelText node.token.display) ∧
      ∀ other : Token, labelText node.token.display = labelText other.display ↔
        node.token.display = other.display := by
  refine ⟨graph.items.foldl (fun text item => text ++ item.text) graphHeader, rfl, ?_,
    safelyQuoted_labelText _, fun other => ?_⟩
  · rw [declare, text, Array.foldl_push]
    rfl
  · constructor
    · intro same
      refine (safelyQuoted_labelText node.token.display).shown_eq ?_
      rw [same]
      exact safelyQuoted_labelText other.display
    · exact congrArg labelText

end PipeScript
