import PipeScript.Proofs.Grammar
import PipeScript.Proofs.ParserRun

/-!
# The parser accepts the grammar

What a parser still has to read is a phrase of the grammar: the rest of the construct it is
in, the rest of the one around that, and so on up to the end of the program
(`Control.remainder`). A step takes one token off the front of that phrase: whatever follows
the token, the phrase before the step can be read with the token in front exactly if the
phrase behind the step can be read without it (`Parse.step_admits`). A step that refuses a
token does so because nothing behind it could make the phrase complete.

So a run keeps the two sides of the acceptance theorem together, one token at a time, and
neither soundness nor completeness needs an induction of its own over the grammar.
-/

namespace PipeScript

open Phrase

/-! ## Remainders -/

/-- What is left to read behind an expression that stands in a context. -/
def Context.remainder : Context → Phrase
  | program _ _ => seq statements (token .endOfInput)
  | function _ _ _ _ outer =>
    seq statements (seq (token .rightBrace) (seq operators outer.remainder))
  | callee _ _ outer | argument _ _ _ _ _ outer =>
    seq arguments (seq (token .rightParen) (seq operators outer.remainder))

/-- What is left to read behind the statements of a block. -/
def Block.closing : Block → Phrase
  | program => token .endOfInput
  | function _ _ outer => seq (token .rightBrace) (seq operators outer.remainder)

/-- What is left to read in a block, from the start of a statement on. -/
def Block.remainder (block : Block) : Phrase := seq statements block.closing

/-- What is left to read, and what the next token has to be. -/
def Control.remainder : Control → Phrase
  | opened block => block.remainder
  | symbol block _ =>
    seq (token .identifier) (seq (token .assign)
      (seq (part .call) (seq operators block.remainder)))
  | assign _ block _ => seq (token .assign) (seq (part .call) (seq operators block.remainder))
  | operand _ outer => seq (part .call) (seq operators outer.remainder)
  | operator _ outer => seq operators outer.remainder

/-- Behind an expression in a statement list the list goes on. -/
@[simp] theorem Block.remainder_context (block : Block) (list : OpenList) (purpose : Purpose) :
    (block.context list purpose).remainder = block.remainder := by
  cases block <;> rfl

/-- Which kinds may follow a token that was given a verdict. -/
def Verdict.Admits : Verdict → List Kind → Prop
  | proceed control, ks => Derives control.remainder ks
  | accept _, ks => ks = []
  | reject _, _ => False

namespace Parse

variable {t : Token} {ks : List Kind}

/-! ## One token -/

theorem completeOperand_admits (value : NodeId) (pending : Option Pending) (outer : Context)
    (draft : Draft) :
    (completeOperand value pending outer draft).1.Admits ks ↔
      Derives (.seq operators outer.remainder) ks := by
  cases pending <;> rfl

theorem takeOperand_admits (t : Token) (pending : Option Pending) (outer : Context)
    (draft : Draft) :
    (takeOperand t pending outer draft).1.Admits ks ↔
      Derives (.seq (.part .call) (.seq operators outer.remainder)) (t.kind :: ks) := by
  rw [Derives.call_cons]
  unfold takeOperand
  split
  · rename_i kind
    rw [completeOperand_admits, kind]
    simp
  · rename_i kind
    rw [completeOperand_admits, kind]
    simp
  · rename_i kind
    simp [kind, Verdict.Admits, Control.remainder, Block.remainder, Block.closing]
  · rename_i kind
    simp [kind, Verdict.Admits, Control.remainder, Context.remainder]
  · rename_i number identifier brace paren
    constructor
    · intro impossible
      exact impossible.elim
    · rintro (⟨kind, _⟩ | ⟨kind, _⟩ | ⟨kind, _⟩ | ⟨kind, _⟩)
      · exact paren kind
      · exact number kind
      · exact identifier kind
      · exact brace kind

/-- A block is closed by one of two kinds, neither of which starts a statement. -/
theorem closing_cons {block : Block} {k : Kind} (h : Derives block.closing (k :: ks)) :
    k = .endOfInput ∨ k = .rightBrace := by
  cases block with
  | program => exact Or.inl (Derives.token_cons.mp h).1
  | function brace pending outer => exact Or.inr (Derives.seq_token_cons.mp h).1

theorem takeStatement_admits (t : Token) (block : Block) (list : OpenList) (draft : Draft) :
    (takeStatement t block list draft).1.Admits ks ↔ Derives block.remainder (t.kind :: ks) := by
  rw [Block.remainder, Derives.statements_cons]
  have noCall {rest : Phrase} (h : t.kind.startsExpression = false) :
      ¬ Derives (.seq (.part .call) rest) (t.kind :: ks) := by
    intro call
    rw [Derives.startsExpression_of_call call] at h
    cases h
  have noClosing (notEnd : t.kind ≠ .endOfInput) (notBrace : t.kind ≠ .rightBrace) :
      ¬ Derives block.closing (t.kind :: ks) :=
    fun closing => (closing_cons closing).elim notEnd notBrace
  by_cases isLet : t.kind = .letKeyword
  · rw [takeStatement_letKeyword list draft isLet]
    rw [isLet] at noClosing noCall ⊢
    have noClosing := noClosing nofun nofun
    simp only [noClosing, noCall rfl, false_or, or_false, true_and]
    rfl
  by_cases isEnd : t.kind = .endOfInput
  · have noCall := @noCall
    rw [isEnd] at noCall
    simp only [isEnd, noCall rfl, or_false, reduceCtorEq, false_and]
    cases block with
    | program =>
      rw [takeStatement_program_endOfInput list draft isEnd]
      exact (Derives.token_cons.trans (and_iff_right rfl)).symm
    | function brace pending outer =>
      rw [takeStatement_function_endOfInput list draft isEnd]
      exact ⟨False.elim, fun closing => nomatch (Derives.seq_token_cons.mp closing).1⟩
  by_cases isBrace : t.kind = .rightBrace
  · rw [isBrace] at noCall
    simp only [isBrace, noCall rfl, or_false, reduceCtorEq, false_and]
    cases block with
    | program =>
      rw [takeStatement_program_rightBrace list draft isBrace]
      exact ⟨False.elim, fun closing => nomatch (Derives.token_cons.mp closing).1⟩
    | function brace pending outer =>
      rw [takeStatement_function_rightBrace list draft isBrace, completeOperand_admits]
      exact (Derives.seq_token_cons.trans (and_iff_right rfl)).symm
  · rw [takeStatement_eq_takeOperand list draft isLet isEnd isBrace, takeOperand_admits]
    simp only [noClosing isEnd isBrace, isLet, false_and, false_or, Block.remainder_context]
    rfl

theorem takeArgument_admits (t paren : Token) (callee : NodeId) (before : List (Token × NodeId))
    (pending : Option Pending) (outer : Context) (draft : Draft) :
    (takeArgument t paren callee before pending outer draft).1.Admits ks ↔
      Derives (.seq arguments (.seq (.token .rightParen) (.seq operators outer.remainder)))
        (t.kind :: ks) := by
  rw [Derives.arguments_cons, Derives.seq_token_cons]
  unfold takeArgument
  split
  · rename_i starts
    have notParen : t.kind ≠ .rightParen := by
      intro h
      rw [h] at starts
      cases starts
    rw [takeOperand_admits]
    simp only [notParen, false_and, false_or]
    rfl
  · rename_i starts
    have noCall {rest : Phrase} : ¬ Derives (.seq (.part .call) rest) (t.kind :: ks) :=
      fun call => starts (Derives.startsExpression_of_call call)
    simp only [noCall, or_false]
    split
    · rename_i isParen
      rw [completeOperand_admits, isParen]
      exact (and_iff_right rfl).symm
    · rename_i notParen
      simp only [notParen, false_and]
      rfl

theorem takeBehind_admits (t : Token) (value : NodeId) (outer : Context) (draft : Draft) :
    (takeBehind t value outer draft).1.Admits ks ↔ Derives outer.remainder (t.kind :: ks) := by
  cases outer with
  | program list purpose => exact takeStatement_admits ..
  | function brace list purpose pending outer => exact takeStatement_admits ..
  | callee paren pending outer => exact takeArgument_admits ..
  | argument first paren callee before pending outer => exact takeArgument_admits ..

/-- No context goes on with an operator. -/
theorem not_remainder_pipe (outer : Context) : ¬ Derives outer.remainder (.pipe :: ks) := by
  have noCall {rest : Phrase} : ¬ Derives (.seq (.part .call) rest) (.pipe :: ks) :=
    fun call => nomatch Derives.startsExpression_of_call call
  cases outer with
  | program list purpose =>
    simp [Context.remainder, Derives.statements_cons, noCall]
  | function brace list purpose pending outer =>
    simp [Context.remainder, Derives.statements_cons, noCall]
  | callee paren pending outer =>
    simp [Context.remainder, Derives.arguments_cons, noCall]
  | argument first paren callee before pending outer =>
    simp [Context.remainder, Derives.arguments_cons, noCall]

/-- A step takes its token off the front of what is left to read. -/
theorem step_admits (t : Token) (control : Control) (draft : Draft) :
    (step t control draft).1.Admits ks ↔ Derives control.remainder (t.kind :: ks) := by
  cases control with
  | opened block => exact takeStatement_admits ..
  | symbol block list =>
    rw [Control.remainder, Derives.seq_token_cons, step]
    split
    · rename_i kind
      simp only [kind, true_and]
      rfl
    · rename_i kind
      simp only [kind, false_and]
      rfl
  | assign name block list =>
    rw [Control.remainder, Derives.seq_token_cons, step]
    split
    · rename_i kind
      simp only [kind, true_and, Verdict.Admits, Control.remainder, Block.remainder_context]
    · rename_i kind
      simp only [kind, false_and]
      rfl
  | operand pending outer => exact takeOperand_admits ..
  | operator value outer =>
    rw [Control.remainder, Derives.operators_cons, step]
    split
    · rename_i kind
      simp only [kind, not_remainder_pipe, false_or, true_and]
      rfl
    · rename_i kind
      rw [takeBehind_admits]
      simp only [kind, false_and, or_false]

/-! ## Whole runs -/

/-- Reading some tokens takes them off the front of what is left to read. -/
theorem Reads.derives_iff {ts : List Token} {c c' : Control} {d d' : Draft}
    (read : Reads ts c d c' d') :
    Derives c.remainder (ts.map Token.kind ++ ks) ↔ Derives c'.remainder ks := by
  induction read with
  | refl => exact Iff.rfl
  | @step t ts c c' c'' d d' d'' taken _ ih =>
    have admits : (Verdict.proceed c').Admits (ts.map Token.kind ++ ks) ↔ _ :=
      congrArg Prod.fst taken ▸ step_admits t c d
    rw [List.map_cons, List.cons_append]
    exact admits.symm.trans ih

/-- Before the first token all of a program is left to read. -/
theorem derives_opened_program :
    Derives (Control.opened .program).remainder ks ↔ Derives (.part .program) ks := by
  rw [Derives.part_iff]
  exact Derives.seq_statementList.symm

/-- What may follow the tokens before a step, when they are read from the start. -/
theorem Reads.program_iff {before : List Token} {c : Control} {d : Draft}
    (read : Reads before (.opened .program) .empty c d) (t : Token) (ks : List Kind) :
    Derives (.part .program) (before.map Token.kind ++ t.kind :: ks) ↔
      (Parse.step t c d).1.Admits ks := by
  rw [← derives_opened_program, read.derives_iff, step_admits]

end Parse

open Parse

/-- A buffer has a tree exactly if the grammar derives its kinds. -/
theorem TokenBuffer.parses_iff_derives (buffer : TokenBuffer) :
    (∃ tree, buffer.parse = .ok tree) ↔
      Derives (.part .program) (buffer.tokens.map Token.kind) := by
  obtain ⟨before, t, after, c, d, d', split, read, last⟩ := buffer.parse_cases
  have follow := read.program_iff t (after.map Token.kind)
  rw [split, List.map_append, List.map_cons, follow]
  rcases last with ⟨root, taken, parsed⟩ | ⟨error, taken, failed⟩
  · rw [taken]
    refine iff_of_true ⟨_, parsed⟩ ?_
    -- What is accepted ends a program, and in a buffer only the last token does.
    have ended := (read.program_iff t []).mpr (by rw [taken]; rfl)
    obtain ⟨ls, kinds, _⟩ := Derives.program_iff.mp ended
    have kind : t.kind = .endOfInput := by
      have := congrArg List.getLast? kinds
      simpa using this
    rw [(buffer.split_at_endOfInput split kind).2.2]
    rfl
  · rw [taken]
    refine iff_of_false ?_ id
    rintro ⟨tree, parsed⟩
    exact nomatch failed.symm.trans parsed

/-- The parser accepts exactly the programs of the grammar. Where an operator stands that no
rule mentions, it finds an error. -/
theorem TokenBuffer.parse_accepts_grammar (buffer : TokenBuffer) :
    ((∃ tree, buffer.parse = .ok tree) ↔
        Derives (.part .program) (buffer.tokens.map Token.kind)) ∧
      ((∃ t ∈ buffer.tokens, t.kind = .arrow ∨ t.kind = .equality) →
        ∃ error, buffer.parse = .error error) := by
  refine ⟨buffer.parses_iff_derives, ?_⟩
  rintro ⟨t, mem, operator⟩
  cases parsed : buffer.parse with
  | error error => exact ⟨error, rfl⟩
  | ok tree =>
    obtain ⟨ls, kinds, list⟩ :=
      Derives.program_iff.mp (buffer.parses_iff_derives.mp ⟨tree, parsed⟩)
    have body : buffer.body.map Token.kind = ls := by
      rw [tokens, List.map_append] at kinds
      exact (List.append_inj' kinds rfl).1
    have notEnd : t ≠ buffer.last := by
      rintro rfl
      rw [buffer.last_kind] at operator
      rcases operator with h | h <;> cases h
    have inner := list.inner rfl t.kind (by
      rw [← body]
      refine List.mem_map_of_mem ?_
      rcases List.mem_append.mp mem with inBody | isLast
      · exact inBody
      · exact absurd (List.mem_singleton.mp isLast) notEnd)
    rcases operator with h | h <;> rw [h] at inner <;> cases inner

end PipeScript
