import PipeScript.Proofs.Acceptance

/-!
# Errors point at the first token that fits no program

A sequence of kinds is viable if an accepted buffer starts with it. Every control of the
parser can be completed: there is always something to read that ends the constructs it is in
(`Control.exists_remainder`), so what has been read up to a control is viable. A refused token
admits nothing behind it, so together with it the tokens are not viable. And a step is fair
(`Parse.Fair`): it takes any token of a kind that it names when it refuses another one.
-/

namespace PipeScript

open Phrase

/-! ## Viable sequences -/

/-- Some accepted buffer starts with tokens of these kinds. -/
def Viable (ks : List Kind) : Prop :=
  ∃ buffer : TokenBuffer, (∃ tree, buffer.parse = .ok tree) ∧ ks <+: buffer.tokens.map Token.kind

/-- A token of a given kind. -/
def Token.ofKind (kind : Kind) : Token := .ofLexeme kind kind.spelling .origin

/-- The kinds of a program are those of some buffer. -/
theorem TokenBuffer.exists_of_derives {ks : List Kind} (h : Derives (.part .program) ks) :
    ∃ buffer : TokenBuffer, buffer.tokens.map Token.kind = ks := by
  obtain ⟨ls, rfl, list⟩ := Derives.program_iff.mp h
  have body_kind : ∀ t ∈ ls.map Token.ofKind, t.kind ≠ .endOfInput := by
    intro t mem
    obtain ⟨kind, inList, rfl⟩ := List.mem_map.mp mem
    rintro (rfl : kind = .endOfInput)
    exact nomatch list.inner rfl _ inList
  refine ⟨⟨ls.map Token.ofKind, Token.ofKind .endOfInput, body_kind, rfl⟩, ?_⟩
  rw [tokens, List.map_append, List.map_map]
  exact congrArg (· ++ _) (List.map_id _)

/-- A sequence is viable exactly if the grammar can complete it. -/
theorem viable_iff {ks : List Kind} :
    Viable ks ↔ ∃ ls, Derives (.part .program) (ks ++ ls) := by
  constructor
  · rintro ⟨buffer, parses, ls, kinds⟩
    exact ⟨ls, kinds ▸ buffer.parses_iff_derives.mp parses⟩
  · rintro ⟨ls, derives⟩
    obtain ⟨buffer, kinds⟩ := TokenBuffer.exists_of_derives derives
    exact ⟨buffer, buffer.parses_iff_derives.mpr (kinds ▸ derives), kinds ▸ ⟨ls, rfl⟩⟩

/-! ## Every control can be completed -/

theorem Derives.call_number : Derives (.part .call) [.number] :=
  Derives.part (Derives.right (Derives.part (Derives.left Derives.token)))

/-- What can be completed behind an expression can be completed before its operand. -/
theorem Derives.seq_call_operators {rest : Phrase} {ks : List Kind} (h : Derives rest ks) :
    Derives (.seq (.part .call) (.seq operators rest)) (.number :: ks) :=
  Derives.seq Derives.call_number (Derives.seq Derives.done h)

theorem Context.exists_remainder (outer : Context) : ∃ ks, Derives outer.remainder ks := by
  induction outer with
  | program list purpose => exact ⟨_, Derives.seq Derives.done Derives.token⟩
  | function brace list purpose pending outer ih =>
    obtain ⟨ks, h⟩ := ih
    exact ⟨_, Derives.seq Derives.done (Derives.seq Derives.token (Derives.seq Derives.done h))⟩
  | callee paren pending outer ih =>
    obtain ⟨ks, h⟩ := ih
    exact ⟨_, Derives.seq Derives.done (Derives.seq Derives.token (Derives.seq Derives.done h))⟩
  | argument first paren callee before pending outer ih =>
    obtain ⟨ks, h⟩ := ih
    exact ⟨_, Derives.seq Derives.done (Derives.seq Derives.token (Derives.seq Derives.done h))⟩

theorem Block.exists_remainder (block : Block) : ∃ ks, Derives block.remainder ks := by
  have h := Context.exists_remainder (block.context ⟨0, 0⟩ .statement)
  rwa [remainder_context] at h

theorem Control.exists_remainder (control : Control) : ∃ ks, Derives control.remainder ks := by
  cases control with
  | opened block => exact block.exists_remainder
  | symbol block list =>
    obtain ⟨ks, h⟩ := block.exists_remainder
    exact ⟨_, Derives.seq Derives.token (Derives.seq Derives.token h.seq_call_operators)⟩
  | assign name block list =>
    obtain ⟨ks, h⟩ := block.exists_remainder
    exact ⟨_, Derives.seq Derives.token h.seq_call_operators⟩
  | operand pending outer =>
    obtain ⟨ks, h⟩ := outer.exists_remainder
    exact ⟨_, h.seq_call_operators⟩
  | operator value outer =>
    obtain ⟨ks, h⟩ := outer.exists_remainder
    exact ⟨_, Derives.seq Derives.done h⟩

/-- Something can follow a token that is not refused. -/
theorem Verdict.exists_admits {verdict : Verdict} (taken : ∀ error, verdict ≠ .reject error) :
    ∃ ks, verdict.Admits ks := by
  cases verdict with
  | proceed control => exact control.exists_remainder
  | accept root => exact ⟨[], rfl⟩
  | reject error => exact absurd rfl (taken error)

/-! ## Refusals are fair -/

/-- The kinds that a message asks for when it says what it expected. -/
def Kind.AskedBy (kind : Kind) (expected : String) : Prop :=
  expected = kind.describe ∨ expected = "expression" ∧ kind.startsExpression

/-- The kinds that an error says would have fitted. -/
def ParseError.Expects (error : ParseError) (kind : Kind) : Prop :=
  ∃ expected, error.expected = some expected ∧ kind.AskedBy expected

theorem Kind.describe_injective {a b : Kind} (h : a.describe = b.describe) : a = b := by
  revert h
  cases a <;> cases b <;> decide

theorem Kind.describe_ne_expression (kind : Kind) : kind.describe ≠ "expression" := by
  cases kind <;> decide

theorem Kind.askedBy_describe {kind other : Kind} : kind.AskedBy other.describe ↔ kind = other := by
  constructor
  · rintro (h | ⟨h, _⟩)
    · exact (Kind.describe_injective h).symm
    · exact absurd h other.describe_ne_expression
  · rintro rfl
    exact Or.inl rfl

theorem Kind.askedBy_expression {kind : Kind} :
    kind.AskedBy "expression" ↔ kind.startsExpression := by
  constructor
  · rintro (h | ⟨_, h⟩)
    · exact absurd h.symm kind.describe_ne_expression
    · exact h
  · intro h
    exact Or.inr ⟨rfl, h⟩

namespace Parse

/-- A step is fair if its errors quote the token that was refused, ask for some kind, and ask
for none that would have been refused as well. -/
def Fair (take : Token → Verdict × Draft) : Prop :=
  ∀ t error, (take t).1 = .reject error →
    ∃ production expected, error = .unexpected production t expected ∧
      (∃ kind : Kind, kind.AskedBy expected) ∧
      ∀ u other, u.kind.AskedBy expected → (take u).1 ≠ .reject other

/-- A step that asks for one kind is fair if it takes it. -/
theorem Fair.of_kind {take : Token → Verdict × Draft} (production : Production) (kind : Kind)
    (refused : ∀ t error, (take t).1 = .reject error →
      error = .unexpected production t kind.describe)
    (taken : ∀ u other, u.kind = kind → (take u).1 ≠ .reject other) : Fair take := by
  intro t error rejected
  exact ⟨production, kind.describe, refused t error rejected,
    ⟨kind, Kind.askedBy_describe.mpr rfl⟩,
    fun u other asked => taken u other (Kind.askedBy_describe.mp asked)⟩

variable {t : Token} {value : NodeId} {pending : Option Pending} {outer : Context} {draft : Draft}
  {error : ParseError}

theorem completeOperand_ne_reject :
    (completeOperand value pending outer draft).1 ≠ .reject error := by
  cases pending <;> exact nofun

theorem takeOperand_ne_reject (starts : t.kind.startsExpression) :
    (takeOperand t pending outer draft).1 ≠ .reject error := by
  unfold takeOperand
  split
  · exact completeOperand_ne_reject
  · exact completeOperand_ne_reject
  · exact nofun
  · exact nofun
  · rename_i number identifier brace paren
    rcases of_decide_eq_true starts with kind | kind | kind | kind
    · exact absurd kind number
    · exact absurd kind identifier
    · exact absurd kind brace
    · exact absurd kind paren

theorem takeOperand_reject (rejected : (takeOperand t pending outer draft).1 = .reject error) :
    error = .unexpected .primary t "expression" := by
  unfold takeOperand at rejected
  split at rejected
  · exact absurd rejected completeOperand_ne_reject
  · exact absurd rejected completeOperand_ne_reject
  · cases rejected
  · cases rejected
  · exact (Verdict.reject.inj rejected).symm

theorem takeOperand_fair (pending : Option Pending) (outer : Context) (draft : Draft) :
    Fair fun t => takeOperand t pending outer draft := by
  intro t error rejected
  exact ⟨.primary, "expression", takeOperand_reject rejected,
    ⟨.number, Kind.askedBy_expression.mpr rfl⟩,
    fun u other asked => takeOperand_ne_reject (Kind.askedBy_expression.mp asked)⟩

theorem takeStatement_ne_reject {block : Block} {list : OpenList}
    (starts : t.kind.startsExpression) : (takeStatement t block list draft).1 ≠ .reject error := by
  rw [takeStatement_eq_takeOperand]
  · exact takeOperand_ne_reject starts
  all_goals
    intro kind
    rw [kind] at starts
    cases starts

theorem takeStatement_fair (block : Block) (list : Token → OpenList) (draft : Token → Draft) :
    Fair fun t => takeStatement t block (list t) (draft t) := by
  intro t error rejected
  dsimp only at rejected ⊢
  by_cases isLet : t.kind = .letKeyword
  · rw [takeStatement_letKeyword _ _ isLet] at rejected
    cases rejected
  by_cases isEnd : t.kind = .endOfInput
  · cases block with
    | program =>
      rw [takeStatement_program_endOfInput _ _ isEnd] at rejected
      cases rejected
    | function brace pending outer =>
      rw [takeStatement_function_endOfInput _ _ isEnd] at rejected
      cases rejected
      refine ⟨_, _, rfl, ⟨.rightBrace, Kind.askedBy_describe.mpr rfl⟩, ?_⟩
      intro u other asked
      rw [takeStatement_function_rightBrace _ _ (Kind.askedBy_describe.mp asked)]
      exact completeOperand_ne_reject
  by_cases isBrace : t.kind = .rightBrace
  · cases block with
    | program =>
      rw [takeStatement_program_rightBrace _ _ isBrace] at rejected
      cases rejected
      refine ⟨_, _, rfl, ⟨.endOfInput, Kind.askedBy_describe.mpr rfl⟩, ?_⟩
      intro u other asked
      rw [takeStatement_program_endOfInput _ _ (Kind.askedBy_describe.mp asked)]
      exact nofun
    | function brace pending outer =>
      rw [takeStatement_function_rightBrace _ _ isBrace] at rejected
      exact absurd rejected completeOperand_ne_reject
  · rw [takeStatement_eq_takeOperand _ _ isLet isEnd isBrace] at rejected
    exact ⟨.primary, "expression", takeOperand_reject rejected,
      ⟨.number, Kind.askedBy_expression.mpr rfl⟩,
      fun u other asked => takeStatement_ne_reject (Kind.askedBy_expression.mp asked)⟩

theorem takeArgument_fair (paren : Token) (callee : NodeId) (before : List (Token × NodeId))
    (pending : Option Pending) (outer : Context) (draft : Draft) :
    Fair fun t => takeArgument t paren callee before pending outer draft := by
  refine Fair.of_kind .call .rightParen ?_ ?_
  · intro t error rejected
    dsimp only [takeArgument] at rejected
    split at rejected
    · rename_i starts
      exact absurd rejected (takeOperand_ne_reject starts)
    · split at rejected
      · exact absurd rejected completeOperand_ne_reject
      · exact (Verdict.reject.inj rejected).symm
  · intro u other kind
    dsimp only [takeArgument]
    rw [if_neg (by rw [kind]; decide), if_pos kind]
    exact completeOperand_ne_reject

theorem takeBehind_fair (value : NodeId) (outer : Context) (draft : Draft) :
    Fair fun t => takeBehind t value outer draft := by
  cases outer with
  | program list purpose =>
    exact takeStatement_fair .program (fun t => (completeStatement value purpose list t draft).1)
      fun t => (completeStatement value purpose list t draft).2
  | function brace list purpose pending outer =>
    exact takeStatement_fair (.function brace pending outer)
      (fun t => (completeStatement value purpose list t draft).1)
      fun t => (completeStatement value purpose list t draft).2
  | callee paren pending outer => exact takeArgument_fair paren value [] pending outer draft
  | argument first paren callee before pending outer =>
    exact takeArgument_fair paren callee ((first, value) :: before) pending outer draft

theorem step_fair (control : Control) (draft : Draft) : Fair fun t => step t control draft := by
  cases control with
  | opened block =>
    exact takeStatement_fair block (fun _ => ⟨draft.size, draft.size⟩)
      fun t => (draft.alloc t .sentinel).2
  | symbol block list =>
    refine Fair.of_kind .statement .identifier ?_ ?_
    · intro t error rejected
      dsimp only [step] at rejected
      split at rejected
      · cases rejected
      · exact (Verdict.reject.inj rejected).symm
    · intro u other kind
      dsimp only [step]
      rw [if_pos kind]
      exact nofun
  | assign name block list =>
    refine Fair.of_kind .statement .assign ?_ ?_
    · intro t error rejected
      dsimp only [step] at rejected
      split at rejected
      · cases rejected
      · exact (Verdict.reject.inj rejected).symm
    · intro u other kind
      dsimp only [step]
      rw [if_pos kind]
      exact nofun
  | operand pending outer => exact takeOperand_fair pending outer draft
  | operator value outer =>
    -- An operator is taken whatever the error asks for, and all else goes to `takeBehind`.
    intro t error rejected
    dsimp only [step] at rejected
    split at rejected
    · cases rejected
    · obtain ⟨production, expected, quoted, asks, taken⟩ :=
        takeBehind_fair value outer draft t error rejected
      refine ⟨production, expected, quoted, asks, ?_⟩
      intro u other asked
      dsimp only [step]
      split
      · exact nofun
      · exact taken u other asked

/-! ## Reading and viability -/

/-- What has been read is viable, whatever control it has led to. -/
theorem Reads.viable {before : List Token} {c : Control} {d : Draft}
    (read : Reads before (.opened .program) .empty c d) : Viable (before.map Token.kind) := by
  obtain ⟨ks, h⟩ := c.exists_remainder
  exact viable_iff.mpr ⟨ks, derives_opened_program.mp (read.derives_iff.mpr h)⟩

/-- With one more token it is viable exactly if the step takes that token. -/
theorem Reads.viable_append_iff {before : List Token} {c : Control} {d : Draft}
    (read : Reads before (.opened .program) .empty c d) (t : Token) :
    Viable (before.map Token.kind ++ [t.kind]) ↔
      ∀ error, (Parse.step t c d).1 ≠ .reject error := by
  rw [viable_iff]
  constructor
  · rintro ⟨ks, derives⟩ error rejected
    rw [List.append_assoc, List.singleton_append, read.program_iff, rejected] at derives
    exact derives
  · intro taken
    obtain ⟨ks, admits⟩ := Verdict.exists_admits taken
    refine ⟨ks, ?_⟩
    rw [List.append_assoc, List.singleton_append]
    exact (read.program_iff t ks).mpr admits

/-- With a token that the step refuses it is not. -/
theorem Reads.not_viable_append {before : List Token} {c : Control} {d d' : Draft} {t : Token}
    {error : ParseError} (read : Reads before (.opened .program) .empty c d)
    (refused : Parse.step t c d = (.reject error, d')) :
    ¬ Viable (before.map Token.kind ++ [t.kind]) := by
  intro viable
  exact (read.viable_append_iff t).mp viable error (congrArg Prod.fst refused)

end Parse

open Parse

/-! ## Where an error points -/

/-- An error is about the token at a place of a buffer, which is the first one with which the
program could not go on. -/
structure ParseError.PointsAt (error : ParseError) (buffer : TokenBuffer) (p : Nat) (t : Token) :
    Prop where
  token : buffer.tokens[p]? = some t
  line : error.line = t.line
  found : error.found = t.display
  /-- What stands before the token is the start of some program. -/
  viable : Viable ((buffer.tokens.take p).map Token.kind)
  /-- With the token it is not, whatever follows. -/
  hopeless : ¬ Viable ((buffer.tokens.take (p + 1)).map Token.kind)
  asks : ∃ kind, error.Expects kind
  /-- With any kind in its place that the error asks for, it is. -/
  truthful : ∀ kind, error.Expects kind → Viable ((buffer.tokens.take p).map Token.kind ++ [kind])

/-- Every error of a parse points at the first hopeless token. -/
theorem TokenBuffer.parse_error_pointsAt (buffer : TokenBuffer) (error : ParseError)
    (failed : buffer.parse = .error error) : ∃ p t, error.PointsAt buffer p t := by
  obtain ⟨before, t, after, c, d, d', split, read, refused⟩ := exists_refused failed
  obtain ⟨production, expected, rfl, ⟨kind, asked⟩, fair⟩ :=
    step_fair c d t error (congrArg Prod.fst refused)
  refine ⟨before.length, t, getElem?_of_split split, rfl, rfl, ?_, ?_,
    ⟨kind, expected, rfl, asked⟩, ?_⟩
  · rw [take_of_split split]
    exact read.viable
  · rw [take_succ_of_split split, List.map_append]
    exact read.not_viable_append refused
  · rintro kind ⟨_, ⟨⟩, asked⟩
    rw [take_of_split split]
    exact (read.viable_append_iff (.ofKind kind)).mpr fun other => fair (.ofKind kind) other asked

/-- The tokens of `{ (f }`, where a brace stands in the place of an argument. -/
def TokenBuffer.braceInCall : TokenBuffer where
  body := [.leftBrace, .leftParen, .identifier, .rightBrace].map Token.ofKind
  last := .ofKind .endOfInput
  body_kind := by decide
  last_kind := rfl

theorem TokenBuffer.braceInCall_pointsAt :
    braceInCall.parse = .error ⟨.call, 1, "'\x7d'", some "')'"⟩ ∧
      ∃ p t, ParseError.PointsAt ⟨.call, 1, "'\x7d'", some "')'"⟩ braceInCall p t :=
  ⟨rfl, parse_error_pointsAt braceInCall _ rfl⟩

end PipeScript
