import PipeScript.Parse.Descent
import PipeScript.Proofs.Layout
import PipeScript.Proofs.Tiling

/-!
# Steps of a descent

`Descent.run` is what a computation of `Descent` comes to, and this module says it of the steps
that the procedures are made of.

A state `Stands` in a list of tokens where there is a token at the cursor and nothing has gone
wrong before. All that was visited is in order: with `Visit.Before`, visits are ordered by the
place of the cursor and, at one place, from the outer procedures to the inner ones.

`Ends` says that a computation comes to an end, and what holds then. It is about a run of the
parser, too: where the computation stops at a token, so does the run. What is known of that run
on the way is kept in `Meets`, which holds where the run goes on with what the token at the cursor
comes to. `Meets.advance` and `Meets.expect` take in that token.
-/

namespace PipeScript

/-! ## The order of visits -/

namespace Descent

/-- Where a procedure stands among those that are visited with the cursor at one token. A loop
over operands is left first, the rest comes from the outside in. -/
def Procedure.rank : Procedure → Nat
  | nextOperand => 0
  | statementList => 1
  | nextStatement => 2
  | statement => 3
  | argumentList => 4
  | nextArgument => 5
  | expression => 6
  | call => 7
  | primary => 8

/-- One visit may come before another: with more tokens left, or at the same token and with a
procedure of lower rank. -/
def Visit.Before (v w : Visit) : Prop :=
  v.position < w.position ∨ v.position = w.position ∧ v.procedure.rank < w.procedure.rank

/-- A place in the order of visits, as a number. -/
def Visit.key (v : Visit) : Nat := 9 * v.position + v.procedure.rank

theorem Procedure.rank_lt (procedure : Procedure) : procedure.rank < 9 := by
  cases procedure <;> decide

theorem Visit.Before.key_lt {v w : Visit} (before : v.Before w) : v.key < w.key := by
  have bound := v.procedure.rank_lt
  unfold Visit.key
  unfold Visit.Before at before
  omega

/-! ## Computations -/

variable {α β : Type} {m : Descent α} {f : α → Descent β} {s s' : State} {a : α}

theorem run_bind (m : Descent α) (f : α → Descent β) (s : State) :
    run (m >>= f) s = (run m s).bind fun
      | (.ok a, s') => run (f a) s'
      | (.error stop, s') => some (.error stop, s') := by
  unfold run
  rw [ExceptT.run_bind, StateT.run_bind]
  rcases StateT.run (ExceptT.run m) s with _ | ⟨_ | _, _⟩ <;> rfl

theorem run_bind_of_ok (first : run m s = some (.ok a, s')) : run (m >>= f) s = run (f a) s' := by
  rw [run_bind, first, Option.bind_some]

theorem run_bind_of_error {stop : Stop} (first : run m s = some (.error stop, s')) :
    run (m >>= f) s = some (.error stop, s') := by
  rw [run_bind, first, Option.bind_some]

theorem run_modify (change : State → State) :
    run (modify change) s = some (.ok (), change s) := rfl

theorem run_get : run get s = some (.ok s, s) := rfl

theorem run_enter (procedure : Procedure) :
    run (enter procedure) s = some (.ok (), s.enter procedure) := rfl

theorem run_alloc (t : Token) (kind : NodeKind) :
    run (alloc t kind) s = some (.ok s.draft.size, s.alloc t kind) := rfl

theorem run_emit (record : LogRecord) :
    run (emit record) s = some (.ok (), s.emit record) := rfl

/-- The cursor moves from one token to the next. -/
def State.eat (s : State) (t u : Token) : State :=
  ({ s with position := s.position + 1 }.record t u).emit (.ate t u)

theorem State.position_eat (s : State) (t u : Token) :
    (s.eat t u).position = s.position + 1 := rfl

theorem State.advances_eat (s : State) (t u : Token) :
    (s.eat t u).advances = s.advances.push ⟨t, u⟩ := rfl

theorem State.log_emit (s : State) (record : LogRecord) :
    (s.emit record).log = s.log.push record := rfl

theorem State.log_eat (s : State) (t u : Token) :
    (s.eat t u).log = s.log.push (.ate t u) := rfl

theorem run_link {cell : NodeId} (present : cell < s.draft.arena.size) (statement next : NodeId) :
    run (link cell statement next) s = some (.ok (), s.link cell statement next) := by
  have admitted : s.draft.arena.admits (.link cell statement next) = true :=
    decide_eq_true present
  rw [link, run_bind_of_ok run_get, if_pos admitted]
  rfl

section Looking

variable {tokens : List Token} {t : Token} (found : tokens[s.position]? = some t)

include found

theorem run_current : run (current tokens) s = some (.ok t, s) := by
  rw [current, run_bind_of_ok run_get]
  simp only [found]
  rfl

theorem run_check (kind : Kind) :
    run (check tokens kind) s = some (.ok (decide (t.kind = kind)), s) := by
  rw [check, run_bind_of_ok (run_current found)]
  rfl

theorem run_startsExpression :
    run (startsExpression tokens) s = some (.ok t.kind.startsExpression, s) := by
  rw [startsExpression, run_bind_of_ok (run_current found)]
  rfl

theorem run_endsList :
    run (endsList tokens) s =
      some (.ok (decide (t.kind = .endOfInput ∨ t.kind = .rightBrace)), s) := by
  rw [endsList, run_bind_of_ok (run_check found .endOfInput)]
  by_cases ending : t.kind = .endOfInput
  · simp only [ending, decide_true, if_true, true_or]
    rfl
  · simp only [ending, decide_false, Bool.false_eq_true, if_false, false_or]
    exact run_check found .rightBrace

theorem run_unexpected (production : Production) (expected : String) :
    run (unexpected tokens production expected : Descent α) s =
      some (.error (.refused (.unexpected production t expected)),
        s.emit (.failed production t)) := by
  rw [unexpected, run_bind_of_ok (run_current found), run_bind_of_ok (run_emit _)]
  rfl

theorem run_emptyCell :
    run (emptyCell tokens) s = some (.ok s.draft.size, s.alloc t .sentinel) := by
  rw [emptyCell, run_bind_of_ok (run_current found), run_alloc]

/-- The cursor moves behind any token but the last one. -/
theorem run_advance {u : Token} (next : tokens[s.position + 1]? = some u) :
    run (advance tokens) s = some (.ok t, s.eat t u) := by
  have inside : s.position + 1 < tokens.length := (List.getElem?_eq_some_iff.mp next).1
  have moved : s.move tokens.length = { s with position := s.position + 1 } := if_pos inside
  have step : run (modify (·.move tokens.length)) s =
      some (.ok (), { s with position := s.position + 1 }) :=
    (run_modify _).trans (by rw [moved])
  rw [advance, run_bind_of_ok (run_current found), run_bind_of_ok step,
    run_bind_of_ok (run_current next), run_bind_of_ok (run_modify _), run_bind_of_ok (run_emit _)]
  rfl

end Looking

/-! ## Deeper calls -/

section Deeper

variable {m' : Descent α} {f' : α → Descent β} {p q : Procedures} {tokens : List Token}

/-- One computation ends wherever another one does, and in the same way. -/
def Extends (m m' : Descent α) : Prop :=
  ∀ s result, run m s = some result → run m' s = some result

theorem Extends.refl (m : Descent α) : Extends m m := fun _ _ done => done

theorem extends_never (m : Descent α) : Extends never m := by
  intro s result done
  cases done

theorem Extends.bind (first : Extends m m') (next : ∀ a, Extends (f a) (f' a)) :
    Extends (m >>= f) (m' >>= f') := by
  intro s result done
  rcases ran : run m s with _ | ⟨stop | a, s'⟩
  · rw [run_bind, ran, Option.bind_none] at done
    cases done
  · rw [run_bind_of_error ran] at done
    rw [run_bind_of_error (first _ _ ran), done]
  · rw [run_bind_of_ok ran] at done
    rw [run_bind_of_ok (first _ _ ran)]
    exact next a _ _ done

theorem Extends.behind (m : Descent α) (next : ∀ a, Extends (f a) (f' a)) :
    Extends (m >>= f) (m >>= f') :=
  (Extends.refl m).bind next

theorem Extends.ite {c : Prop} [Decidable c] {n n' : Descent α} (first : Extends m m')
    (second : Extends n n') : Extends (if c then m else n) (if c then m' else n') := by
  split
  · exact first
  · exact second

/-- Procedures that end wherever others do. -/
structure Procedures.Extends (p q : Procedures) : Prop where
  statementList : Descent.Extends p.statementList q.statementList
  statementsFrom : ∀ cell, Descent.Extends (p.statementsFrom cell) (q.statementsFrom cell)
  expression : Descent.Extends p.expression q.expression
  operandsFrom : ∀ left, Descent.Extends (p.operandsFrom left) (q.operandsFrom left)
  call : Descent.Extends p.call q.call
  argumentsFrom : ∀ before, Descent.Extends (p.argumentsFrom before) (q.argumentsFrom before)

namespace Procedures.Extends

variable (ext : p.Extends q)

include ext

theorem ofStatement : Descent.Extends (p.statement tokens) (q.statement tokens) := by
  refine .behind _ fun _ => .behind _ fun _ => .ite ?_ ext.expression
  refine .behind _ fun _ => .behind _ fun _ => .behind _ fun _ => ?_
  exact ext.expression.bind fun _ => .refl _

theorem ofPrimary : Descent.Extends (p.primary tokens) (q.primary tokens) := by
  refine .behind _ fun _ => .behind _ fun t => ?_
  cases t.kind with
  | leftBrace => exact .behind _ fun _ => ext.statementList.bind fun _ => .refl _
  | _ => exact .refl _

theorem ofArgumentList : Descent.Extends (p.argumentList tokens) (q.argumentList tokens) := by
  refine .behind _ fun _ => .behind _ fun _ => ?_
  exact ext.expression.bind fun _ => (ext.argumentsFrom []).bind fun _ => .refl _

theorem ofCallArguments : Descent.Extends (p.callArguments tokens) (q.callArguments tokens) := by
  refine .behind _ fun _ => .ite ?_ (.refl _)
  exact ext.ofArgumentList.bind fun _ => .refl _

/-- The next level ends wherever the next level of the others does. -/
theorem next : (p.next tokens).Extends (q.next tokens) where
  statementList := .behind _ fun _ => .behind _ fun head =>
    (ext.statementsFrom head).bind fun _ => .refl _
  statementsFrom cell := by
    refine .behind _ fun _ => .behind _ fun _ => .ite (.refl _) ?_
    refine ext.ofStatement.bind fun _ => .behind _ fun next => .behind _ fun _ => ?_
    exact ext.statementsFrom next
  expression := .behind _ fun _ => ext.call.bind ext.operandsFrom
  operandsFrom left := by
    refine .behind _ fun _ => .behind _ fun _ => .ite ?_ (.refl _)
    exact .behind _ fun _ => ext.call.bind fun _ => .behind _ ext.operandsFrom
  call := by
    refine .behind _ fun _ => .behind _ fun _ => .ite ?_ ext.ofPrimary
    refine .behind _ fun _ => ext.expression.bind fun _ => ?_
    exact ext.ofCallArguments.bind fun _ => .refl _
  argumentsFrom before := by
    refine .behind _ fun _ => .behind _ fun _ => .ite ?_ (.refl _)
    exact .behind _ fun _ => ext.expression.bind fun _ => ext.argumentsFrom _

end Procedures.Extends

theorem procedures_extends (tokens : List Token) (depth : Nat) :
    (procedures tokens depth).Extends (procedures tokens (depth + 1)) := by
  induction depth with
  | zero =>
    exact ⟨extends_never _, fun _ => extends_never _, extends_never _, fun _ => extends_never _,
      extends_never _, fun _ => extends_never _⟩
  | succ depth ih => exact ih.next

/-- What ends at some depth ends at any greater one, and in the same way. -/
theorem program_extends (tokens : List Token) {depth deeper : Nat} (le : depth ≤ deeper) :
    Extends (program tokens depth) (program tokens deeper) := by
  induction le with
  | refl => exact .refl _
  | @step deeper _ ih =>
    have further : Extends (program tokens deeper) (program tokens (deeper + 1)) :=
      .behind _ fun _ => (procedures_extends tokens deeper).statementList.bind fun _ => .refl _
    exact fun s result done => further s result (ih s result done)

end Deeper

/-! ## The state between two visits -/

namespace State

/-- Between two states the cursor has not moved back, and no node was lost. -/
structure Grows (s s' : State) : Prop where
  position_le : s.position ≤ s'.position
  size_le : s.draft.size ≤ s'.draft.size

theorem Grows.refl (s : State) : s.Grows s := ⟨Nat.le_refl _, Nat.le_refl _⟩

theorem Grows.trans {s s' s'' : State} (first : s.Grows s') (second : s'.Grows s'') :
    s.Grows s'' :=
  ⟨Nat.le_trans first.position_le second.position_le, Nat.le_trans first.size_le second.size_le⟩

/-- A procedure may be visited here, after all that was visited before. -/
def Allows (s : State) (procedure : Procedure) : Prop :=
  ∀ v ∈ s.visits, v.Before ⟨procedure, s.position⟩

theorem Allows.of_le {procedure other : Procedure} (allowed : s.Allows procedure)
    (le : procedure.rank ≤ other.rank) : s.Allows other := by
  intro v mem
  rcases allowed v mem with earlier | ⟨here, lower⟩
  · exact Or.inl earlier
  · exact Or.inr ⟨here, Nat.lt_of_lt_of_le lower le⟩

/-- What has been logged of a list of tokens when some of them were eaten. -/
def logThrough (tokens : List Token) (advances : List Advance) : List LogRecord :=
  .parsing tokens.length :: advances.map fun advance => .ate advance.eaten advance.next

/-- A state in a list of tokens, with the cursor at a token and some more behind it. -/
structure Stands (s : State) (tokens : List Token) (t : Token) (rest : List Token) : Prop where
  ahead : tokens.drop s.position = t :: rest
  unclamped : s.clamped = false
  eaten : s.advances.toList.map Advance.eaten = tokens.take s.position
  counted : s.draft.arena.size = s.draft.size
  visited : ∀ v ∈ s.visits, v.position ≤ s.position
  ordered : s.visits.Pairwise fun later earlier => earlier.Before later
  /-- Nothing was logged but the start and the tokens that the cursor has moved over. -/
  logged : s.log.toList = logThrough tokens s.advances.toList

namespace Stands

variable {tokens rest : List Token} {t u : Token} (stands : s.Stands tokens t rest)

include stands

theorem getElem? : tokens[s.position]? = some t := by
  rw [← List.head?_drop, stands.ahead, List.head?_cons]

theorem position_lt : s.position < tokens.length :=
  (List.getElem?_eq_some_iff.mp stands.getElem?).1

theorem drop_succ : tokens.drop (s.position + 1) = rest := by
  rw [← List.drop_drop, stands.ahead, List.drop_one, List.tail_cons]

theorem enter {procedure : Procedure} (allowed : s.Allows procedure) :
    (s.enter procedure).Stands tokens t rest := by
  refine ⟨stands.ahead, stands.unclamped, stands.eaten, stands.counted, ?_, ?_, stands.logged⟩
  · exact List.forall_mem_cons.mpr ⟨Nat.le_refl _, stands.visited⟩
  · exact List.pairwise_cons.mpr ⟨allowed, stands.ordered⟩

theorem alloc (token : Token) (kind : NodeKind) : (s.alloc token kind).Stands tokens t rest := by
  refine ⟨stands.ahead, stands.unclamped, stands.eaten, ?_, stands.visited, stands.ordered,
    stands.logged⟩
  have counted := stands.counted
  unfold Arena.size at *
  rw [State.alloc, Draft.arena_alloc, Arena.alloc, Array.size_push, counted]
  rfl

theorem link (cell statement next : NodeId) :
    (s.link cell statement next).Stands tokens t rest := by
  refine ⟨stands.ahead, stands.unclamped, stands.eaten, ?_, stands.visited, stands.ordered,
    stands.logged⟩
  have counted := stands.counted
  unfold Arena.size at *
  rw [State.link, Draft.arena_link, Arena.link, Array.size_modify, counted]
  rfl

end Stands

section Eating

variable {tokens rest : List Token} {t u : Token} (stands : s.Stands tokens t (u :: rest))

include stands

theorem Stands.eat : (s.eat t u).Stands tokens u rest := by
  refine ⟨stands.drop_succ, stands.unclamped, ?_, stands.counted, ?_, stands.ordered, ?_⟩
  · rw [advances_eat, position_eat, Array.toList_push, List.map_append, stands.eaten,
      List.take_add_one, stands.getElem?]
    rfl
  · intro v mem
    exact Nat.le_succ_of_le (stands.visited v mem)
  · rw [log_eat, advances_eat, Array.toList_push, Array.toList_push, stands.logged, logThrough,
      logThrough, List.map_append]
    rfl

/-- At a token that the cursor was just moved to, anything may be visited. -/
theorem Stands.allows_eat (procedure : Procedure) : (s.eat t u).Allows procedure := by
  intro v mem
  exact Or.inl (Nat.lt_succ_of_le (stands.visited v mem))

end Eating

theorem allows_enter {procedure other : Procedure} (allowed : s.Allows procedure)
    (lt : procedure.rank < other.rank) : (s.enter procedure).Allows other := by
  refine List.forall_mem_cons.mpr ⟨Or.inr ⟨rfl, lt⟩, ?_⟩
  exact allowed.of_le (Nat.le_of_lt lt)

end State

end Descent

/-! ## Runs from the middle of a step -/

namespace Parse

/-- A run behind what one token comes to. -/
def follow (advances : Array Advance) (t : Token) (rest : List Token) : Verdict × Draft → Run
  | (.accept root, draft) => ⟨.accepted root, draft, advances⟩
  | (.reject error, draft) => ⟨.rejected error, draft, advances⟩
  | (.proceed control, draft) =>
    runFrom control draft (advances.push ⟨t, rest.headD t⟩) rest

theorem runFrom_cons (control : Control) (draft : Draft) (advances : Array Advance) (t : Token)
    (rest : List Token) :
    runFrom control draft advances (t :: rest) = follow advances t rest (step t control draft) := by
  rw [runFrom]
  rcases step t control draft with ⟨_ | _ | _, _⟩ <;> rfl

/-- Where the parser goes on, the next token is taken in. -/
theorem follow_proceed (advances : Array Advance) (t u : Token) (rest : List Token)
    (control : Control) (draft : Draft) :
    follow advances t (u :: rest) (.proceed control, draft) =
      follow (advances.push ⟨t, u⟩) u rest (step u control draft) := by
  rw [← runFrom_cons]
  rfl

end Parse

namespace Descent

/-! ## Computations that end -/

variable {α β : Type} {m : Descent α} {f : α → Descent β} {s s' : State} {a : α}
  {tokens rest : List Token} {t u : Token} {r : Run}

/-- A computation comes to an end, and what holds then is known. If it refuses a token, so does
a run of the parser, and the refusal is the last thing that it logs. -/
def Ends (tokens : List Token) (r : Run) (m : Descent α) (s : State) (gives : α → State → Prop) :
    Prop :=
  ∃ s', s.Grows s' ∧
    ((∃ a, run m s = some (.ok a, s') ∧ gives a s') ∨
      ∃ production expected t rest,
        run m s = some (.error (.refused (.unexpected production t expected)),
          s'.emit (.failed production t)) ∧
        s'.Stands tokens t rest ∧
        r = ⟨.rejected (.unexpected production t expected), s'.draft, s'.advances⟩)

namespace Ends

variable {gives : α → State → Prop} {after : β → State → Prop}

theorem of_run (done : run m s = some (.ok a, s')) (grows : s.Grows s') (holds : gives a s') :
    Ends tokens r m s gives :=
  ⟨s', grows, Or.inl ⟨a, done, holds⟩⟩

theorem bind (first : Ends tokens r m s gives)
    (next : ∀ a s', s.Grows s' → gives a s' → Ends tokens r (f a) s' after) :
    Ends tokens r (m >>= f) s after := by
  obtain ⟨s', grows, ⟨a, done, holds⟩ | ⟨_, _, t, rest, stopped, refused⟩⟩ := first
  · obtain ⟨s'', growsToo, others⟩ := next a s' grows holds
    rw [← run_bind_of_ok done] at others
    exact ⟨s'', grows.trans growsToo, others⟩
  · exact ⟨s', grows, Or.inr ⟨_, _, t, rest, run_bind_of_error stopped, refused⟩⟩

/-- What a first step gives is known. -/
theorem step (done : run m s = some (.ok a, s')) (grows : s.Grows s')
    (next : Ends tokens r (f a) s' after) : Ends tokens r (m >>= f) s after := by
  have first : Ends tokens r m s fun b s'' => b = a ∧ s'' = s' := of_run done grows ⟨rfl, rfl⟩
  apply first.bind
  rintro _ _ - ⟨rfl, rfl⟩
  exact next

/-- A first step that only looks at the state. -/
theorem look (done : run m s = some (.ok a, s)) (next : Ends tokens r (f a) s after) :
    Ends tokens r (m >>= f) s after :=
  step done (.refl s) next

theorem mono (ends : Ends tokens r m s gives) {less : α → State → Prop}
    (weaker : ∀ a s', s.Grows s' → gives a s' → less a s') : Ends tokens r m s less := by
  obtain ⟨s', grows, ⟨a, done, holds⟩ | refused⟩ := ends
  · exact of_run done grows (weaker a s' grows holds)
  · exact ⟨s', grows, Or.inr refused⟩

/-- A first step that marks a visit. -/
theorem enter (procedure : Procedure) {f : Unit → Descent β}
    (next : Ends tokens r (f ()) (s.enter procedure) after) :
    Ends tokens r (Descent.enter procedure >>= f) s after :=
  step (run_enter procedure) ⟨Nat.le_refl _, Nat.le_refl _⟩ next

/-- A last step that adds a node. -/
theorem alloc (token : Token) (kind : NodeKind) {gives : NodeId → State → Prop}
    (holds : gives s.draft.size (s.alloc token kind)) :
    Ends tokens r (Descent.alloc token kind) s gives :=
  of_run (run_alloc token kind) ⟨Nat.le_refl _, Nat.le_succ _⟩ holds

end Ends

/-! ## States of a run -/

/-- The cursor is at a token, and a run goes on with what that token comes to. -/
structure Meets (tokens : List Token) (r : Run) (s : State) (t : Token) (rest : List Token)
    (taken : Verdict × Draft) : Prop where
  stands : s.Stands tokens t rest
  same : r = Parse.follow s.advances t rest taken

namespace Meets

variable {taken : Verdict × Draft}

theorem enter (meets : Meets tokens r s t rest taken) {procedure : Procedure}
    (allowed : s.Allows procedure) : Meets tokens r (s.enter procedure) t rest taken :=
  ⟨meets.stands.enter allowed, meets.same⟩

theorem alloc (meets : Meets tokens r s t rest taken) (token : Token) (kind : NodeKind) :
    Meets tokens r (s.alloc token kind) t rest taken :=
  ⟨meets.stands.alloc token kind, meets.same⟩

theorem link (meets : Meets tokens r s t rest taken) (cell statement next : NodeId) :
    Meets tokens r (s.link cell statement next) t rest taken :=
  ⟨meets.stands.link cell statement next, meets.same⟩

theorem eat {control : Control} {draft : Draft}
    (meets : Meets tokens r s t (u :: rest) (.proceed control, draft)) :
    Meets tokens r (s.eat t u) u rest (Parse.step u control draft) :=
  ⟨meets.stands.eat, meets.same.trans (Parse.follow_proceed ..)⟩

/-- A token that the run refuses may be refused. -/
theorem refuse {production : Production} {expected : String} {gives : α → State → Prop}
    (meets : Meets tokens r s t rest (.reject (.unexpected production t expected), s.draft)) :
    Ends tokens r (unexpected tokens production expected) s gives :=
  ⟨s, .refl s, Or.inr ⟨production, expected, t, rest,
    run_unexpected meets.stands.getElem? production expected, meets.stands, meets.same⟩⟩

end Meets

/-! ## Moving in a buffer -/

section Buffer

variable {buffer : TokenBuffer}

/-- Behind any token but the end of the input there is another one. -/
theorem exists_next (stands : s.Stands buffer.tokens t rest) (more : t.kind ≠ .endOfInput) :
    ∃ u others, rest = u :: others := by
  apply List.exists_cons_of_ne_nil
  intro nothing
  have ending := stands.drop_succ
  rw [nothing, List.drop_eq_nil_iff, buffer.length_tokens] at ending
  have inside := stands.position_lt
  rw [buffer.length_tokens] at inside
  apply more
  rw [buffer.kind_eq_endOfInput_iff _ _ stands.getElem?]
  omega

variable {control : Control} {draft : Draft} {f : Token → Descent β} {after : β → State → Prop}

/-- The cursor is moved behind a token with which the run goes on. -/
theorem Meets.advance (meets : Meets buffer.tokens r s t rest (.proceed control, draft))
    (more : t.kind ≠ .endOfInput)
    (next : ∀ u others, (∀ procedure, (s.eat t u).Allows procedure) →
      Meets buffer.tokens r (s.eat t u) u others (Parse.step u control draft) →
      Ends buffer.tokens r (f t) (s.eat t u) after) :
    Ends buffer.tokens r (Descent.advance buffer.tokens >>= f) s after := by
  obtain ⟨u, others, rfl⟩ := exists_next meets.stands more
  have moved := run_advance meets.stands.getElem? meets.stands.eat.getElem?
  exact Ends.step moved ⟨Nat.le_succ _, Nat.le_refl _⟩
    (next u others meets.stands.allows_eat meets.eat)

/-- So it is behind a token that was to be expected, and any other token is refused. -/
theorem Meets.expect {taken : Verdict × Draft} {kind : Kind} {production : Production}
    (meets : Meets buffer.tokens r s t rest taken) (notEnd : kind ≠ .endOfInput)
    (accepts : t.kind = kind → taken = (.proceed control, draft))
    (rejects : t.kind ≠ kind →
      taken = (.reject (.unexpected production t kind.describe), s.draft))
    (next : ∀ u others, (∀ procedure, (s.eat t u).Allows procedure) →
      Meets buffer.tokens r (s.eat t u) u others (Parse.step u control draft) →
      Ends buffer.tokens r (f t) (s.eat t u) after) :
    Ends buffer.tokens r (Descent.expect buffer.tokens kind production >>= f) s after := by
  have checked := run_check meets.stands.getElem? kind
  by_cases fits : t.kind = kind
  · rw [accepts fits] at meets
    obtain ⟨u, others, rfl⟩ := exists_next meets.stands (fits ▸ notEnd)
    have moved := run_advance meets.stands.getElem? meets.stands.eat.getElem?
    have done : run (Descent.expect buffer.tokens kind production) s =
        some (.ok t, s.eat t u) := by
      rw [Descent.expect, run_bind_of_ok checked, if_pos (decide_eq_true fits), moved]
    exact Ends.step done ⟨Nat.le_succ _, Nat.le_refl _⟩
      (next u others meets.stands.allows_eat meets.eat)
  · rw [rejects fits] at meets
    have refused : Ends buffer.tokens r (Descent.expect buffer.tokens kind production) s
        fun _ _ => False := by
      apply Ends.look checked
      rw [if_neg (by simp [fits])]
      exact meets.refuse
    apply refused.bind
    rintro _ _ - ⟨⟩

end Buffer

end Descent

end PipeScript
