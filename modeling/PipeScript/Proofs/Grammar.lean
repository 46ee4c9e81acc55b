import PipeScript.Token.Basic

/-!
# The grammar of programs

The grammar is data: each nonterminal has one rule, a `Phrase` that is put together from
tokens and nonterminals by sequence, choice and repetition. `Derives` relates a phrase to
the sequences of kinds that can be read as it. It is a relation on sequences alone; nothing
in it says from which end they are read, or how far one has to look ahead.

The grammar has no empty alternatives beside repetition and its choices differ in their
first token, so what a phrase asks for behind one token is a phrase again. The lemmas
`Derives.call_cons`, `Derives.statements_cons`, `Derives.arguments_cons` and
`Derives.operators_cons` say which.
-/

namespace PipeScript

/-! ## Phrases and rules -/

/-- The parts of a program that have a rule of their own. -/
inductive Nonterminal
  | program
  | statementList
  | statement
  | expression
  | call
  | primary
deriving DecidableEq

/-- One side of a rule. -/
inductive Phrase
  | token (kind : Kind)
  | part (name : Nonterminal)
  | seq (first second : Phrase)
  | either (left right : Phrase)
  | many (item : Phrase)
deriving DecidableEq

namespace Phrase

/-- The operators of an expression behind its first operand, each with the next one. -/
def operators : Phrase := many (seq (token .pipe) (part .call))

/-- The statements of a list. -/
def statements : Phrase := many (part .statement)

/-- The arguments of a call. -/
def arguments : Phrase := many (part .expression)

end Phrase

open Phrase in
/-- The rules of the grammar. -/
def Nonterminal.rule : Nonterminal → Phrase
  | program => seq (part statementList) (token .endOfInput)
  | statementList => statements
  | statement =>
    either
      (seq (token .letKeyword) (seq (token .identifier) (seq (token .assign) (part expression))))
      (part expression)
  | expression => seq (part call) operators
  | call =>
    either
      (seq (token .leftParen) (seq (part expression) (seq arguments (token .rightParen))))
      (part primary)
  | primary =>
    either (token .number) (either (token .identifier)
      (seq (token .leftBrace) (seq (part statementList) (token .rightBrace))))

/-- `Derives phrase kinds`: the kinds, in this order, can be read as the phrase. -/
inductive Derives : Phrase → List Kind → Prop
  | token {kind : Kind} : Derives (.token kind) [kind]
  | part {name : Nonterminal} {ks : List Kind} : Derives name.rule ks → Derives (.part name) ks
  | seq {a b : Phrase} {ks ls : List Kind} :
    Derives a ks → Derives b ls → Derives (.seq a b) (ks ++ ls)
  | left {a b : Phrase} {ks : List Kind} : Derives a ks → Derives (.either a b) ks
  | right {a b : Phrase} {ks : List Kind} : Derives b ks → Derives (.either a b) ks
  | done {a : Phrase} : Derives (.many a) []
  | more {a : Phrase} {ks ls : List Kind} :
    Derives a ks → Derives (.many a) ls → Derives (.many a) (ks ++ ls)

namespace Derives

variable {a b c rest : Phrase} {name : Nonterminal} {k kind : Kind} {ks : List Kind}

/-! ## Reading a phrase backwards -/

theorem part_iff : Derives (.part name) ks ↔ Derives name.rule ks := by
  constructor
  · intro h
    cases h with
    | part body => exact body
  · exact Derives.part

theorem either_iff : Derives (.either a b) ks ↔ Derives a ks ∨ Derives b ks := by
  constructor
  · intro h
    cases h with
    | left l => exact Or.inl l
    | right r => exact Or.inr r
  · rintro (l | r)
    · exact Derives.left l
    · exact Derives.right r

theorem seq_iff :
    Derives (.seq a b) ks ↔ ∃ ls ms, ks = ls ++ ms ∧ Derives a ls ∧ Derives b ms := by
  constructor
  · intro h
    cases h with
    | seq first second => exact ⟨_, _, rfl, first, second⟩
  · rintro ⟨ls, ms, rfl, first, second⟩
    exact Derives.seq first second

theorem many_iff : Derives (.many a) ks ↔ ks = [] ∨ Derives (.seq a (.many a)) ks := by
  constructor
  · intro h
    cases h with
    | done => exact Or.inl rfl
    | more first others => exact Or.inr (Derives.seq first others)
  · rintro (rfl | h)
    · exact Derives.done
    · obtain ⟨ls, ms, rfl, first, others⟩ := seq_iff.mp h
      exact Derives.more first others

theorem token_iff : Derives (.token kind) ks ↔ ks = [kind] := by
  constructor
  · intro h
    cases h
    rfl
  · rintro rfl
    exact Derives.token

/-! ## The first part of a sequence -/

theorem seq_seq : Derives (.seq (.seq a b) c) ks ↔ Derives (.seq a (.seq b c)) ks := by
  constructor
  · intro h
    obtain ⟨_, ns, rfl, ab, last⟩ := seq_iff.mp h
    obtain ⟨ls, ms, rfl, first, second⟩ := seq_iff.mp ab
    rw [List.append_assoc]
    exact Derives.seq first (Derives.seq second last)
  · intro h
    obtain ⟨ls, _, rfl, first, bc⟩ := seq_iff.mp h
    obtain ⟨ms, ns, rfl, second, last⟩ := seq_iff.mp bc
    rw [← List.append_assoc]
    exact Derives.seq (Derives.seq first second) last

theorem seq_congr_left {d : Phrase} (same : ∀ ls, Derives a ls ↔ Derives d ls) :
    Derives (.seq a rest) ks ↔ Derives (.seq d rest) ks := by
  simp only [seq_iff, same]

theorem seq_congr_right {d : Phrase} (same : ∀ ls, Derives b ls ↔ Derives d ls) :
    Derives (.seq a b) ks ↔ Derives (.seq a d) ks := by
  simp only [seq_iff, same]

theorem seq_part : Derives (.seq (.part name) rest) ks ↔ Derives (.seq name.rule rest) ks :=
  seq_congr_left fun _ => part_iff

theorem seq_either :
    Derives (.seq (.either a b) rest) ks ↔ Derives (.seq a rest) ks ∨ Derives (.seq b rest) ks := by
  simp only [seq_iff, either_iff]
  constructor
  · rintro ⟨ls, ms, split, l | r, others⟩
    · exact Or.inl ⟨ls, ms, split, l, others⟩
    · exact Or.inr ⟨ls, ms, split, r, others⟩
  · rintro (⟨ls, ms, split, l, others⟩ | ⟨ls, ms, split, r, others⟩)
    · exact ⟨ls, ms, split, Or.inl l, others⟩
    · exact ⟨ls, ms, split, Or.inr r, others⟩

/-- A repetition in front of a phrase is left out, or gives one item and goes on. -/
theorem seq_many :
    Derives (.seq (.many a) rest) ks ↔
      Derives rest ks ∨ Derives (.seq a (.seq (.many a) rest)) ks := by
  rw [← seq_seq]
  constructor
  · intro h
    obtain ⟨ls, ms, rfl, items, others⟩ := seq_iff.mp h
    rcases many_iff.mp items with rfl | more
    · exact Or.inl others
    · exact Or.inr (Derives.seq more others)
  · rintro (others | h)
    · exact Derives.seq Derives.done others
    · obtain ⟨ls, ms, rfl, more, others⟩ := seq_iff.mp h
      exact Derives.seq (many_iff.mpr (Or.inr more)) others

@[simp] theorem token_cons : Derives (.token kind) (k :: ks) ↔ k = kind ∧ ks = [] := by
  rw [token_iff, List.cons.injEq]

@[simp] theorem seq_token_cons :
    Derives (.seq (.token kind) rest) (k :: ks) ↔ k = kind ∧ Derives rest ks := by
  constructor
  · intro h
    obtain ⟨ls, ms, split, first, others⟩ := seq_iff.mp h
    rw [token_iff.mp first, List.singleton_append, List.cons.injEq] at split
    obtain ⟨rfl, rfl⟩ := split
    exact ⟨rfl, others⟩
  · rintro ⟨rfl, others⟩
    exact Derives.seq Derives.token others

/-! ## One token taken off the front -/

open Phrase Nonterminal

theorem seq_expression :
    Derives (.seq (.part expression) rest) ks ↔
      Derives (.seq (.part call) (.seq operators rest)) ks := by
  rw [seq_part]
  exact seq_seq

theorem seq_statementList :
    Derives (.seq (.part statementList) rest) ks ↔ Derives (.seq statements rest) ks :=
  seq_part

/-- An operand is told by its first token. -/
theorem call_cons :
    Derives (.seq (.part call) rest) (k :: ks) ↔
      k = .leftParen ∧ Derives (.seq (.part call)
        (.seq operators (.seq arguments (.seq (.token .rightParen) rest)))) ks ∨
      k = .number ∧ Derives rest ks ∨ k = .identifier ∧ Derives rest ks ∨
      k = .leftBrace ∧ Derives (.seq statements (.seq (.token .rightBrace) rest)) ks := by
  rw [seq_part]
  simp only [rule, seq_either]
  refine or_congr ?_ ?_
  · rw [seq_seq, seq_token_cons, seq_seq, seq_expression]
    exact and_congr_right fun _ => seq_congr_right fun _ => seq_congr_right fun _ => seq_seq
  · rw [seq_part]
    simp only [rule, seq_either, seq_seq, seq_token_cons, seq_statementList]

/-- What does not start an expression does not start an operand. -/
theorem startsExpression_of_call (h : Derives (.seq (.part call) rest) (k :: ks)) :
    k.startsExpression := by
  rcases call_cons.mp h with ⟨rfl, _⟩ | ⟨rfl, _⟩ | ⟨rfl, _⟩ | ⟨rfl, _⟩ <;> rfl

/-- Behind an operand there is an operator, or what follows the expression. -/
theorem operators_cons :
    Derives (.seq operators rest) (k :: ks) ↔
      Derives rest (k :: ks) ∨
      k = .pipe ∧ Derives (.seq (.part call) (.seq operators rest)) ks := by
  unfold operators
  rw [seq_many, seq_seq, seq_token_cons]

/-- In an argument list there is an argument, or what follows the list. -/
theorem arguments_cons :
    Derives (.seq arguments rest) (k :: ks) ↔
      Derives rest (k :: ks) ∨
      Derives (.seq (.part call) (.seq operators (.seq arguments rest))) (k :: ks) := by
  unfold arguments
  rw [seq_many, seq_expression]

/-- In a statement list there is a definition, an expression, or what follows the list. -/
theorem statements_cons :
    Derives (.seq statements rest) (k :: ks) ↔
      Derives rest (k :: ks) ∨
      k = .letKeyword ∧ Derives (.seq (.token .identifier) (.seq (.token .assign)
        (.seq (.part call) (.seq operators (.seq statements rest))))) ks ∨
      Derives (.seq (.part call) (.seq operators (.seq statements rest))) (k :: ks) := by
  unfold statements
  rw [seq_many, seq_part]
  simp only [rule, seq_either]
  rw [seq_expression, seq_seq, seq_token_cons, seq_seq]
  refine or_congr_right (or_congr_left (and_congr_right fun _ => seq_congr_right fun ls => ?_))
  rw [seq_seq]
  exact seq_congr_right fun _ => seq_expression

end Derives

/-! ## Kinds inside a program -/

/-- The kinds that can stand before the end of a program. Two operators have a spelling,
but no rule mentions them. -/
def Kind.inner (kind : Kind) : Bool :=
  kind ≠ .endOfInput ∧ kind ≠ .arrow ∧ kind ≠ .equality

/-- Whether a phrase asks for nothing but kinds inside a program. -/
def Phrase.inner : Phrase → Bool
  | token kind => kind.inner
  | part name => name ≠ .program
  | seq a b | either a b => a.inner && b.inner
  | many a => a.inner

/-- The rules below that of a program ask for kinds inside one. -/
theorem Nonterminal.inner_rule {name : Nonterminal} (h : name ≠ .program) :
    name.rule.inner = true := by
  cases name with
  | program => exact absurd rfl h
  | _ => rfl

theorem Derives.inner {phrase : Phrase} {ks : List Kind} (h : Derives phrase ks) :
    phrase.inner = true → ∀ k ∈ ks, k.inner = true := by
  induction h with
  | token =>
    intro inner k mem
    rw [List.mem_singleton] at mem
    rw [mem]
    exact inner
  | part _ ih =>
    intro inner
    exact ih (Nonterminal.inner_rule (of_decide_eq_true inner))
  | seq _ _ first second =>
    intro inner k mem
    rw [Phrase.inner, Bool.and_eq_true] at inner
    rcases List.mem_append.mp mem with l | r
    · exact first inner.1 k l
    · exact second inner.2 k r
  | left _ ih =>
    intro inner
    rw [Phrase.inner, Bool.and_eq_true] at inner
    exact ih inner.1
  | right _ ih =>
    intro inner
    rw [Phrase.inner, Bool.and_eq_true] at inner
    exact ih inner.2
  | done =>
    intro _ k mem
    cases mem
  | more _ _ first others =>
    intro inner k mem
    rcases List.mem_append.mp mem with l | r
    · exact first inner k l
    · exact others inner k r

/-- A program is a statement list with the end of the input behind it. -/
theorem Derives.program_iff {ks : List Kind} :
    Derives (.part .program) ks ↔
      ∃ ls, ks = ls ++ [.endOfInput] ∧ Derives .statements ls := by
  rw [part_iff, Nonterminal.rule, seq_iff]
  constructor
  · rintro ⟨ls, ms, split, list, last⟩
    rw [token_iff.mp last] at split
    exact ⟨ls, split, part_iff.mp list⟩
  · rintro ⟨ls, split, list⟩
    exact ⟨ls, _, split, part_iff.mpr list, Derives.token⟩

end PipeScript
