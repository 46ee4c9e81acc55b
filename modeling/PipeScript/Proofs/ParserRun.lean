import PipeScript.Parse.Run

/-!
# Where a run of the parser stops

`Parse.Reads before control draft control' draft'`: the parser goes from the first
control and draft to the second ones, and each of the tokens `before` is taken in on the
way. `TokenBuffer.parse_cases` cuts the run over a token buffer at the token that ends it:
the tokens before it are read, and the step on it accepts or refuses. What a parse gives
is what that one step says, so a statement about parses is a statement about the controls
that can be read up to, and one step from them.
-/

namespace PipeScript

namespace Parse

/-! ## The first token of a statement -/

section FirstToken

variable {t : Token} (list : OpenList) (draft : Draft)

theorem takeStatement_letKeyword (kind : t.kind = .letKeyword) (block : Block) :
    takeStatement t block list draft = (.proceed (.symbol block list), draft) := by
  simp only [takeStatement, kind]

theorem takeStatement_program_endOfInput (kind : t.kind = .endOfInput) :
    takeStatement t .program list draft = (.accept list.head, draft) := by
  simp only [takeStatement, kind]

theorem takeStatement_program_rightBrace (kind : t.kind = .rightBrace) :
    takeStatement t .program list draft =
      (.reject (.unexpected .program t Kind.endOfInput.describe), draft) := by
  simp only [takeStatement, kind]

theorem takeStatement_function_endOfInput (kind : t.kind = .endOfInput) (brace : Token)
    (pending : Option Pending) (outer : Context) :
    takeStatement t (.function brace pending outer) list draft =
      (.reject (.unexpected .function t Kind.rightBrace.describe), draft) := by
  simp only [takeStatement, kind]

theorem takeStatement_function_rightBrace (kind : t.kind = .rightBrace) (brace : Token)
    (pending : Option Pending) (outer : Context) :
    takeStatement t (.function brace pending outer) list draft =
      completeOperand draft.size pending outer (draft.alloc brace (.function list.head)).2 := by
  simp only [takeStatement, kind]
  rfl

/-- What neither defines nor closes is taken as the start of an expression. -/
theorem takeStatement_eq_takeOperand (notLet : t.kind ≠ .letKeyword)
    (notEnd : t.kind ≠ .endOfInput) (notBrace : t.kind ≠ .rightBrace) (block : Block) :
    takeStatement t block list draft =
      takeOperand t none (block.context list .statement) draft := by
  unfold takeStatement
  split
  · contradiction
  · contradiction
  · contradiction
  · contradiction
  · contradiction
  · rfl

end FirstToken

/-! ## Reading -/

/-- The parser takes some tokens in, from one control and draft to another. -/
inductive Reads : List Token → Control → Draft → Control → Draft → Prop
  | refl {control : Control} {draft : Draft} : Reads [] control draft control draft
  | step {t : Token} {ts : List Token} {c c' c'' : Control} {d d' d'' : Draft} :
    Parse.step t c d = (.proceed c', d') → Reads ts c' d' c'' d'' → Reads (t :: ts) c d c'' d''

variable {t : Token} {ts us : List Token} {c c' c'' : Control} {d d' d'' : Draft}

theorem Reads.trans (first : Reads ts c d c' d') (second : Reads us c' d' c'' d'') :
    Reads (ts ++ us) c d c'' d'' := by
  induction first with
  | refl => exact second
  | step taken _ ih => exact Reads.step taken (ih second)

theorem Reads.single (taken : Parse.step t c d = (.proceed c', d')) : Reads [t] c d c' d' :=
  Reads.step taken Reads.refl

/-- Only the first step looks at where a reading starts. -/
theorem Reads.of_step_eq {e : Control} {f : Draft}
    (same : Parse.step t e f = Parse.step t c d) (read : Reads (t :: ts) c d c' d') :
    Reads (t :: ts) e f c' d' := by
  cases read with
  | step taken others => exact Reads.step (same.trans taken) others

/-- A run over tokens that are read goes on behind them. -/
theorem Reads.runFrom_append (read : Reads ts c d c' d') (advances : Array Advance)
    (rest : List Token) :
    ∃ advances', runFrom c d advances (ts ++ rest) = runFrom c' d' advances' rest := by
  induction read generalizing advances with
  | refl => exact ⟨advances, rfl⟩
  | step taken _ ih =>
    obtain ⟨advances', eq⟩ := ih (advances.push _)
    refine ⟨advances', ?_⟩
    rw [List.cons_append, runFrom, taken]
    exact eq

/-- A run over a list of tokens takes in all of them, or stops at one of them. -/
theorem runFrom_cases (c : Control) (d : Draft) (advances : Array Advance) (ts : List Token) :
    (runFrom c d advances ts).outcome = .unfinished ∨
      ∃ before t after c' d', ts = before ++ t :: after ∧ Reads before c d c' d' ∧
        ((∃ root, step t c' d' = (.accept root, (runFrom c d advances ts).draft) ∧
            (runFrom c d advances ts).outcome = .accepted root) ∨
          ∃ error, step t c' d' = (.reject error, (runFrom c d advances ts).draft) ∧
            (runFrom c d advances ts).outcome = .rejected error) := by
  induction ts generalizing c d advances with
  | nil => exact Or.inl rfl
  | cons t ts ih =>
    rw [runFrom]
    split
    · rename_i root d' taken
      exact Or.inr ⟨[], t, ts, c, d, rfl, Reads.refl, Or.inl ⟨root, taken, rfl⟩⟩
    · rename_i error d' taken
      exact Or.inr ⟨[], t, ts, c, d, rfl, Reads.refl, Or.inr ⟨error, taken, rfl⟩⟩
    · rename_i c' d' taken
      rcases ih c' d' (advances.push _) with unfinished | stop
      · exact Or.inl unfinished
      · obtain ⟨before, u, after, c'', d'', split, read, last⟩ := stop
        refine Or.inr ⟨t :: before, u, after, c'', d'', ?_, Reads.step taken read, last⟩
        rw [split, List.cons_append]

end Parse

/-! ## Parses -/

theorem Run.result_of_accepted {run : Run} (finished : run.outcome ≠ .unfinished) {root : NodeId}
    (accepted : run.outcome = .accepted root) :
    run.result finished = .ok ⟨run.draft.arena, root⟩ := by
  unfold Run.result
  split
  · rename_i outcome
    rw [accepted] at outcome
    cases outcome
    rfl
  · rename_i outcome
    exact nomatch accepted.symm.trans outcome
  · rename_i outcome
    exact absurd outcome finished

theorem Run.result_of_rejected {run : Run} (finished : run.outcome ≠ .unfinished)
    {error : ParseError} (rejected : run.outcome = .rejected error) :
    run.result finished = .error error := by
  unfold Run.result
  split
  · rename_i outcome
    exact nomatch rejected.symm.trans outcome
  · rename_i outcome
    rw [rejected] at outcome
    cases outcome
    rfl
  · rename_i outcome
    exact absurd outcome finished

namespace TokenBuffer

open Parse

/-- A buffer is cut at its last token by any cut at the end of the input. -/
theorem split_at_endOfInput (buffer : TokenBuffer) {before after : List Token} {t : Token}
    (split : buffer.tokens = before ++ t :: after) (kind : t.kind = .endOfInput) :
    before = buffer.body ∧ t = buffer.last ∧ after = [] := by
  rcases List.eq_nil_or_concat after with rfl | ⟨others, u, rfl⟩
  · obtain ⟨body, last⟩ := List.append_inj' split rfl
    exact ⟨body.symm, (List.singleton_inj.mp last).symm, rfl⟩
  · rw [tokens, List.concat_eq_append, ← List.cons_append, ← List.append_assoc] at split
    have body := (List.append_inj' split rfl).1
    refine absurd kind (buffer.body_kind t ?_)
    rw [body]
    exact List.mem_append_right _ List.mem_cons_self

/-- A parse reads the tokens before some token, and the step on that one accepts or refuses. -/
theorem parse_cases (buffer : TokenBuffer) :
    ∃ before t after c d d', buffer.tokens = before ++ t :: after ∧
      Reads before (.opened .program) .empty c d ∧
      ((∃ root, step t c d = (.accept root, d') ∧ buffer.parse = .ok ⟨d'.arena, root⟩) ∨
        ∃ error, step t c d = (.reject error, d') ∧ buffer.parse = .error error) := by
  have finished := run_ne_unfinished buffer
  rcases runFrom_cases (.opened .program) .empty #[] buffer.tokens with unfinished | stop
  · exact absurd unfinished finished
  · obtain ⟨before, t, after, c, d, split, read, last⟩ := stop
    refine ⟨before, t, after, c, d, (run buffer.tokens).draft, split, read, ?_⟩
    rcases last with ⟨root, taken, outcome⟩ | ⟨error, taken, outcome⟩
    · exact Or.inl ⟨root, taken, Run.result_of_accepted finished outcome⟩
    · exact Or.inr ⟨error, taken, Run.result_of_rejected finished outcome⟩

/-- A parse that fails reads the tokens before the one that it refuses. -/
theorem exists_refused {buffer : TokenBuffer} {error : ParseError}
    (failed : buffer.parse = .error error) :
    ∃ before t after c d d', buffer.tokens = before ++ t :: after ∧
      Reads before (.opened .program) .empty c d ∧ step t c d = (.reject error, d') := by
  obtain ⟨before, t, after, c, d, d', split, read, last⟩ := buffer.parse_cases
  rcases last with ⟨root, -, parsed⟩ | ⟨other, refused, failedToo⟩
  · exact nomatch failed.symm.trans parsed
  · cases failed.symm.trans failedToo
    exact ⟨before, t, after, c, d, d', split, read, refused⟩

section Split

variable {buffer : TokenBuffer} {before after : List Token} {t : Token}
  (split : buffer.tokens = before ++ t :: after)

include split

theorem getElem?_of_split : buffer.tokens[before.length]? = some t := by
  rw [split, List.getElem?_append_right (Nat.le_refl _), Nat.sub_self, List.getElem?_cons_zero]

theorem take_of_split : buffer.tokens.take before.length = before := by
  rw [split, List.take_left]

theorem take_succ_of_split : buffer.tokens.take (before.length + 1) = before ++ [t] := by
  rw [split, List.take_length_add_append, List.take_succ_cons, List.take_zero]

end Split

/-- A parse is decided by any step that its tokens are read up to and that accepts. -/
theorem parse_of_reads {buffer : TokenBuffer} {before after : List Token} {t : Token}
    {c : Control} {d d' : Draft} {root : NodeId} (split : buffer.tokens = before ++ t :: after)
    (read : Reads before (.opened .program) .empty c d) (last : step t c d = (.accept root, d')) :
    buffer.parse = .ok ⟨d'.arena, root⟩ := by
  obtain ⟨advances, eq⟩ := read.runFrom_append #[] (t :: after)
  have accepted : run buffer.tokens = ⟨.accepted root, d', advances⟩ := by
    rw [run, split, eq, runFrom, last]
  have result := Run.result_of_accepted (run_ne_unfinished buffer) (congrArg Run.outcome accepted)
  rw [congrArg Run.draft accepted] at result
  exact result

/-- And by any step that they are read up to and that refuses. -/
theorem parse_of_reads_rejected {buffer : TokenBuffer} {before after : List Token} {t : Token}
    {c : Control} {d d' : Draft} {error : ParseError} (split : buffer.tokens = before ++ t :: after)
    (read : Reads before (.opened .program) .empty c d)
    (last : step t c d = (.reject error, d')) : buffer.parse = .error error := by
  obtain ⟨advances, eq⟩ := read.runFrom_append #[] (t :: after)
  have rejected : run buffer.tokens = ⟨.rejected error, d', advances⟩ := by
    rw [run, split, eq, runFrom, last]
  exact Run.result_of_rejected (run_ne_unfinished buffer) (congrArg Run.outcome rejected)

end TokenBuffer

end PipeScript
