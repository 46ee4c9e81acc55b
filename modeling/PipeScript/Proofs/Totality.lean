import PipeScript.Proofs.DescentSteps

/-!
# Every parse comes to an end

On the tokens of a buffer the procedures of `Descent` come to an end, with nothing gone wrong, and
with the tree or the error that the parser has (`TokenBuffer.descent_completes`).

For each procedure there is a contract. It starts where the parser looks at some token in some
context, and ends where the parser looks at the token behind what the procedure has read. Three
things carry the proof. A call and an expression take in at least one token, so the cursor is
further on behind them. Whatever is visited with the cursor at one token goes from the outer
procedures to the inner ones. And the cell that the loop of a list fills in was added before.

A procedure keeps its contract if those that it calls keep theirs, from the token it starts at or
from later ones. These are no circle, as each of them comes behind the procedure in the order of
visits: the number of places that are left in this order is a depth that is enough (`Affords`).
-/

namespace PipeScript

/-! ## Steps of the parser -/

namespace Parse

/-- What an operand is with the operator before it, if there is one. -/
def joined (value : NodeId) (pending : Option Pending) (draft : Draft) : NodeId × Draft :=
  match pending with
  | none => (value, draft)
  | some ⟨left, operator⟩ => draft.alloc operator (.binary left value)

theorem completeOperand_eq (value : NodeId) (pending : Option Pending) (outer : Context)
    (draft : Draft) :
    completeOperand value pending outer draft =
      (.proceed (.operator (joined value pending draft).1 outer),
        (joined value pending draft).2) := by
  cases pending <;> rfl

/-- What a token comes to behind the arguments of a call, if it starts none. -/
def closeCall (t paren : Token) (callee : NodeId) (arguments : Option NodeId)
    (pending : Option Pending) (outer : Context) (draft : Draft) : Verdict × Draft :=
  if t.kind = .rightParen then
    completeOperand draft.size pending outer (draft.alloc paren (.call callee arguments)).2
  else
    (.reject (.unexpected .call t Kind.rightParen.describe), draft)

theorem takeArgument_of_not_startsExpression {t : Token} (ends : t.kind.startsExpression = false)
    (paren : Token) (callee : NodeId) (before : List (Token × NodeId)) (pending : Option Pending)
    (outer : Context) (draft : Draft) :
    takeArgument t paren callee before pending outer draft =
      closeCall t paren callee (allocArguments draft none before).1 pending outer
        (allocArguments draft none before).2 := by
  rw [takeArgument, if_neg (by simp [ends])]
  rfl

/-- The cell of the first argument is added last. -/
theorem allocArguments_append (draft : Draft) (next : Option NodeId)
    (before : List (Token × NodeId)) (first : Token) (argument : NodeId) :
    allocArguments draft next (before ++ [(first, argument)]) =
      (some (allocArguments draft next before).2.size,
        ((allocArguments draft next before).2.alloc first
          (.argumentCell argument (allocArguments draft next before).1)).2) := by
  induction before generalizing draft next with
  | nil => rfl
  | cons item before ih => exact ih _ _

end Parse

namespace Descent

variable {s s' : State} {tokens rest : List Token} {t : Token} {r : Run}

/-! ## Contracts of the procedures -/

section Contracts

variable (tokens : List Token)

/-- Behind an operand, the operator before it is complete. -/
def BehindOperand (r : Run) (pending : Option Pending) (outer : Context) (value : NodeId)
    (s : State) : Prop :=
  s.Allows .nextOperand ∧ ∃ t rest,
    Meets tokens r s t rest
      (Parse.step t (.operator (Parse.joined value pending s.draft).1 outer)
        (Parse.joined value pending s.draft).2)

/-- Behind an expression stands a token that does not go on with it. -/
def BehindExpression (r : Run) (outer : Context) (value : NodeId) (s : State) : Prop :=
  s.Allows .statementList ∧ ∃ t rest, t.kind ≠ .pipe ∧
    Meets tokens r s t rest (Parse.takeBehind t value outer s.draft)

/-- Behind a statement, its cell is filled in and the next one is open. -/
def BehindStatement (r : Run) (block : Block) (list : OpenList) (value : NodeId) (s : State) :
    Prop :=
  s.Allows .statementList ∧ ∃ t rest,
    Meets tokens r s t rest
      (Parse.takeStatement t block (Parse.completeStatement value .statement list t s.draft).1
        (Parse.completeStatement value .statement list t s.draft).2)

/-- Behind a list of statements stands a token that ends it. -/
def BehindList (r : Run) (block : Block) (head : NodeId) (s : State) : Prop :=
  ∃ cell t rest, (t.kind = .endOfInput ∨ t.kind = .rightBrace) ∧
    Meets tokens r s t rest (Parse.takeStatement t block ⟨head, cell⟩ s.draft)

/-- Behind arguments stands a token that starts none. -/
def BehindArguments (r : Run) (paren : Token) (callee : NodeId) (pending : Option Pending)
    (outer : Context) (before : List (Token × NodeId)) (s : State) : Prop :=
  ∃ t rest,
    Meets tokens r s t rest
      (Parse.closeCall t paren callee (Parse.allocArguments s.draft none before).1 pending outer
        (Parse.allocArguments s.draft none before).2)

/-- A call reads an operand. -/
def ReadsCall (call : Descent NodeId) (s : State) : Prop :=
  ∀ r t rest pending outer, s.Allows .call →
    Meets tokens r s t rest (Parse.takeOperand t pending outer s.draft) →
      Ends tokens r call s fun value s' =>
        s.position < s'.position ∧ BehindOperand tokens r pending outer value s'

def ReadsExpression (expression : Descent NodeId) (s : State) : Prop :=
  ∀ r t rest outer, s.Allows .expression →
    Meets tokens r s t rest (Parse.takeOperand t none outer s.draft) →
      Ends tokens r expression s fun value s' =>
        s.position < s'.position ∧ BehindExpression tokens r outer value s'

/-- The loop of an expression reads the operators that are left. -/
def ReadsOperators (operandsFrom : NodeId → Descent NodeId) (s : State) : Prop :=
  ∀ r t rest left outer, s.Allows .nextOperand →
    Meets tokens r s t rest (Parse.step t (.operator left outer) s.draft) →
      Ends tokens r (operandsFrom left) s (BehindExpression tokens r outer)

def ReadsList (statementList : Descent NodeId) (s : State) : Prop :=
  ∀ r t rest block, s.Allows .statementList →
    Meets tokens r s t rest (Parse.step t (.opened block) s.draft) →
      Ends tokens r statementList s (BehindList tokens r block)

/-- The loop of a list reads the statements that are left, if there is a cell for them. -/
def ReadsStatements (statementsFrom : NodeId → Descent Unit) (s : State) : Prop :=
  ∀ r t rest block head cell, s.Allows .nextStatement → cell < s.draft.size →
    Meets tokens r s t rest (Parse.takeStatement t block ⟨head, cell⟩ s.draft) →
      Ends tokens r (statementsFrom cell) s fun _ => BehindList tokens r block head

/-- The loop of an argument list reads the arguments that are left. The first argument of the
list is not its own. -/
def ReadsArguments
    (argumentsFrom : List (Token × NodeId) → Descent (List (Token × NodeId))) (s : State) :
    Prop :=
  ∀ r t rest paren callee before first pending outer, s.Allows .nextArgument →
    Meets tokens r s t rest
        (Parse.takeArgument t paren callee (before ++ [first]) pending outer s.draft) →
      Ends tokens r (argumentsFrom before) s fun others =>
        BehindArguments tokens r paren callee pending outer (others ++ [first])

end Contracts

/-! ## The procedures -/

section Procedures

variable {buffer : TokenBuffer} {p : Procedures}

/-- A token that is an operand on its own is taken in. -/
theorem ends_single {kind : NodeKind} {pending : Option Pending} {outer : Context}
    (meets : Meets buffer.tokens r s t rest
      (Parse.completeOperand s.draft.size pending outer (s.draft.alloc t kind).2))
    (more : t.kind ≠ .endOfInput) :
    Ends buffer.tokens r (do let _ ← advance buffer.tokens; alloc t kind) s fun value s' =>
      s.position < s'.position ∧ BehindOperand buffer.tokens r pending outer value s' := by
  rw [Parse.completeOperand_eq] at meets
  apply meets.advance more
  intro u others free meets
  apply Ends.alloc
  exact ⟨Nat.lt_succ_self _, free _, u, others, meets.alloc _ _⟩

theorem ends_primary
    (lists : ∀ s', s.position < s'.position → ReadsList buffer.tokens p.statementList s')
    {pending : Option Pending} {outer : Context} (allowed : s.Allows .primary)
    (notCall : t.kind ≠ .leftParen)
    (meets : Meets buffer.tokens r s t rest (Parse.takeOperand t pending outer s.draft)) :
    Ends buffer.tokens r (p.primary buffer.tokens) s fun value s' =>
      s.position < s'.position ∧ BehindOperand buffer.tokens r pending outer value s' := by
  have entered := meets.enter allowed
  unfold Procedures.primary
  apply Ends.enter
  apply Ends.look (run_current entered.stands.getElem?)
  cases kind : t.kind with
  | number =>
    simp only [Parse.takeOperand, kind] at entered
    exact ends_single entered (by simp [kind])
  | identifier =>
    simp only [Parse.takeOperand, kind] at entered
    exact ends_single entered (by simp [kind])
  | leftBrace =>
    simp only [Parse.takeOperand, kind] at entered
    apply entered.advance (by simp [kind])
    intro u others free meets
    apply (lists _ (Nat.lt_succ_self _) r u others _ (free _) meets).bind
    rintro head s₁ grows ⟨cell, t₁, rest₁, ending, meets₁⟩
    apply meets₁.expect (by decide)
    · intro closes
      rw [Parse.takeStatement_function_rightBrace _ _ closes, Parse.completeOperand_eq]
    · intro opens
      exact Parse.takeStatement_function_endOfInput _ _ (ending.resolve_right opens) ..
    · intro u₁ others₁ free₁ meets₂
      apply Ends.alloc
      have further : s.position < s₁.position := grows.position_le
      exact ⟨Nat.lt_succ_of_lt further, free₁ _, u₁, others₁, meets₂.alloc _ _⟩
  | leftParen => exact absurd kind notCall
  | _ =>
    simp only [Parse.takeOperand, kind] at entered
    exact entered.refuse

/-- The cells of an argument list are those that the parser adds. -/
theorem ends_linkArguments {taken : Verdict × Draft} (next : Option NodeId)
    (before : List (Token × NodeId)) (meets : Meets tokens r s t rest taken) :
    Ends tokens r (linkArguments next before) s fun cells s' =>
      Parse.allocArguments s.draft next before = (cells, s'.draft) ∧
        Meets tokens r s' t rest taken := by
  induction before generalizing next s with
  | nil => exact Ends.of_run rfl (.refl _) ⟨rfl, meets⟩
  | cons item before ih =>
    exact Ends.step (run_alloc _ _) ⟨Nat.le_refl _, Nat.le_succ _⟩ (ih _ (meets.alloc _ _))

section Arguments

variable {paren : Token} {callee : NodeId} {pending : Option Pending} {outer : Context}
  (expressions : ∀ s', s.position ≤ s'.position →
    ReadsExpression buffer.tokens p.expression s')
  (arguments : ∀ s', s.position < s'.position →
    ReadsArguments buffer.tokens p.argumentsFrom s')
  (allowed : s.Allows .argumentList)

include expressions arguments allowed

theorem ends_argumentList
    (meets : Meets buffer.tokens r s t rest
      (Parse.takeOperand t none (.argument t paren callee [] pending outer) s.draft)) :
    Ends buffer.tokens r (p.argumentList buffer.tokens) s fun arguments s' => ∃ t rest,
      Meets buffer.tokens r s' t rest
        (Parse.closeCall t paren callee (some arguments) pending outer s'.draft) := by
  have entered := meets.enter allowed
  have free : (s.enter .argumentList).Allows .expression :=
    State.allows_enter allowed (by decide)
  unfold Procedures.argumentList
  apply Ends.enter
  apply Ends.look (run_current entered.stands.getElem?)
  apply (expressions (s.enter .argumentList) (Nat.le_refl _) r t rest _ free entered).bind
  rintro argument s₁ - ⟨further, free₁, t₁, rest₁, -, meets₁⟩
  apply (arguments s₁ further r t₁ rest₁ paren callee [] (t, argument) pending outer
    (free₁.of_le (by decide)) meets₁).bind
  rintro others s₂ - ⟨t₂, rest₂, meets₂⟩
  apply (ends_linkArguments none others meets₂).bind
  rintro next s₃ - ⟨cells, meets₃⟩
  apply Ends.alloc
  rw [Parse.allocArguments_append, cells] at meets₃
  exact ⟨t₂, rest₂, meets₃.alloc t (.argumentCell argument next)⟩

/-- A call without arguments has no argument list. -/
theorem ends_callArguments
    (meets : Meets buffer.tokens r s t rest
      (Parse.takeArgument t paren callee [] pending outer s.draft)) :
    Ends buffer.tokens r (p.callArguments buffer.tokens) s fun arguments s' => ∃ t rest,
      Meets buffer.tokens r s' t rest
        (Parse.closeCall t paren callee arguments pending outer s'.draft) := by
  unfold Procedures.callArguments
  apply Ends.look (run_startsExpression meets.stands.getElem?)
  cases starts : t.kind.startsExpression with
  | false =>
    rw [Parse.takeArgument_of_not_startsExpression starts] at meets
    rw [if_neg (by decide)]
    exact Ends.of_run rfl (.refl _) ⟨t, rest, meets⟩
  | true =>
    rw [Parse.takeArgument_of_startsExpression starts] at meets
    rw [if_pos rfl]
    apply (ends_argumentList expressions arguments allowed meets).bind
    intro list s₁ _ holds
    exact Ends.of_run rfl (.refl _) holds

end Arguments

/-- A call takes in its brackets, and any other operand is a primary one. -/
theorem readsCall
    (lists : ∀ s', s.position < s'.position → ReadsList buffer.tokens p.statementList s')
    (expressions : ∀ s', s.position < s'.position →
      ReadsExpression buffer.tokens p.expression s')
    (arguments : ∀ s', s.position < s'.position →
      ReadsArguments buffer.tokens p.argumentsFrom s') :
    ReadsCall buffer.tokens (p.next buffer.tokens).call s := by
  intro r t rest pending outer allowed meets
  have entered := meets.enter allowed
  unfold Procedures.next
  apply Ends.enter
  apply Ends.look (run_check entered.stands.getElem? .leftParen)
  by_cases isCall : t.kind = .leftParen
  · rw [if_pos (decide_eq_true isCall)]
    simp only [Parse.takeOperand, isCall] at entered
    apply entered.advance (by simp [isCall])
    intro u others free meets
    apply (expressions _ (Nat.lt_succ_self _) r u others _ (free _) meets).bind
    rintro callee s₁ - ⟨further, free₁, t₁, rest₁, -, meets₁⟩
    have further₁ : s.position < s₁.position := Nat.lt_of_succ_lt further
    have expressionsToo (s' : State) (ge : s₁.position ≤ s'.position) :=
      expressions s' (Nat.lt_of_lt_of_le further₁ ge)
    have argumentsToo (s' : State) (lt : s₁.position < s'.position) :=
      arguments s' (Nat.lt_trans further₁ lt)
    apply (ends_callArguments expressionsToo argumentsToo (free₁.of_le (by decide)) meets₁).bind
    rintro list s₂ grows ⟨t₂, rest₂, meets₂⟩
    apply meets₂.expect (by decide)
    · intro closes
      rw [Parse.closeCall, if_pos closes, Parse.completeOperand_eq]
    · intro other
      rw [Parse.closeCall, if_neg other]
    intro u₂ others₂ free₂ meets₃
    apply Ends.alloc
    have further₂ : s.position < s₂.position := Nat.lt_of_lt_of_le further₁ grows.position_le
    exact ⟨Nat.lt_succ_of_lt further₂, free₂ _, u₂, others₂, meets₃.alloc _ _⟩
  · rw [if_neg (by simp [isCall])]
    have free : (s.enter .call).Allows .primary := State.allows_enter allowed (by decide)
    exact ends_primary (s := s.enter .call) lists free isCall entered

/-- Every round of the loop of an expression takes in an operator. -/
theorem readsOperators
    (calls : ∀ s', s.position < s'.position → ReadsCall buffer.tokens p.call s')
    (operators : ∀ s', s.position < s'.position →
      ReadsOperators buffer.tokens p.operandsFrom s') :
    ReadsOperators buffer.tokens (p.next buffer.tokens).operandsFrom s := by
  intro r t rest left outer allowed meets
  have entered := meets.enter allowed
  unfold Procedures.next
  apply Ends.enter
  apply Ends.look (run_check entered.stands.getElem? .pipe)
  by_cases isPipe : t.kind = .pipe
  · rw [if_pos (decide_eq_true isPipe)]
    rw [Parse.step, if_pos isPipe] at entered
    apply entered.advance (by simp [isPipe])
    intro u others free meets
    apply (calls _ (Nat.lt_succ_self _) r u others _ _ (free _) meets).bind
    rintro right s₁ - ⟨further, free₁, t₁, rest₁, meets₁⟩
    apply Ends.step (run_alloc t (.binary left right)) ⟨Nat.le_refl _, Nat.le_succ _⟩
    have loop := operators (s₁.alloc t (.binary left right)) (Nat.lt_of_succ_lt further)
    exact loop r t₁ rest₁ s₁.draft.size outer free₁ (meets₁.alloc t (.binary left right))
  · rw [if_neg (by simp [isPipe])]
    rw [Parse.step, if_neg isPipe] at entered
    apply Ends.of_run rfl (.refl _)
    exact ⟨State.allows_enter allowed (by decide), t, rest, isPipe, entered⟩

theorem readsExpression
    (calls : ∀ s', s.position ≤ s'.position → ReadsCall buffer.tokens p.call s')
    (operators : ∀ s', s.position < s'.position →
      ReadsOperators buffer.tokens p.operandsFrom s') :
    ReadsExpression buffer.tokens (p.next buffer.tokens).expression s := by
  intro r t rest outer allowed meets
  have entered := meets.enter allowed
  have free : (s.enter .expression).Allows .call := State.allows_enter allowed (by decide)
  unfold Procedures.next
  apply Ends.enter
  apply (calls (s.enter .expression) (Nat.le_refl _) r t rest none outer free entered).bind
  rintro left s₁ - ⟨further, free₁, t₁, rest₁, meets₁⟩
  apply (operators s₁ further r t₁ rest₁ left outer free₁ meets₁).mono
  intro value s₂ grows holds
  exact ⟨Nat.lt_of_lt_of_le further grows.position_le, holds⟩

theorem ends_statement
    (expressions : ∀ s', s.position ≤ s'.position →
      ReadsExpression buffer.tokens p.expression s')
    {block : Block} {list : OpenList} (allowed : s.Allows .statement)
    (notEnd : t.kind ≠ .endOfInput) (notBrace : t.kind ≠ .rightBrace)
    (meets : Meets buffer.tokens r s t rest (Parse.takeStatement t block list s.draft)) :
    Ends buffer.tokens r (p.statement buffer.tokens) s fun value s' =>
      s.position < s'.position ∧ BehindStatement buffer.tokens r block list value s' := by
  have entered := meets.enter allowed
  unfold Procedures.statement
  apply Ends.enter
  apply Ends.look (run_check entered.stands.getElem? .letKeyword)
  by_cases defines : t.kind = .letKeyword
  · rw [if_pos (decide_eq_true defines)]
    rw [Parse.takeStatement_letKeyword _ _ defines] at entered
    apply entered.advance notEnd
    intro u others free meets
    apply meets.expect (by decide)
    · intro isName
      rw [Parse.step, if_pos isName]
    · intro other
      rw [Parse.step, if_neg other]
      rfl
    intro u₁ others₁ free₁ meets₁
    apply meets₁.expect (by decide)
    · intro isAssign
      rw [Parse.step, if_pos isAssign]
    · intro other
      rw [Parse.step, if_neg other]
      rfl
    intro u₂ others₂ free₂ meets₂
    have moved : ((((s.enter .statement).eat t u).eat u u₁).eat u₁ u₂).position =
        s.position + 3 := rfl
    apply (expressions _ (by omega) r u₂ others₂ _ (free₂ _) meets₂).bind
    rintro initializer s₁ - ⟨further, free₃, t₁, rest₁, -, meets₃⟩
    rw [Parse.takeBehind_context] at meets₃
    apply Ends.alloc
    have behind : s.position < s₁.position := by omega
    exact ⟨behind, free₃, t₁, rest₁, meets₃.alloc u (.definition initializer)⟩
  · rw [if_neg (by simp [defines])]
    rw [Parse.takeStatement_eq_takeOperand _ _ defines notEnd notBrace] at entered
    have free : (s.enter .statement).Allows .expression := State.allows_enter allowed (by decide)
    apply (expressions (s.enter .statement) (Nat.le_refl _) r t rest _ free entered).mono
    rintro value s₁ - ⟨further, free₁, t₁, rest₁, -, meets₁⟩
    rw [Parse.takeBehind_context] at meets₁
    exact ⟨further, free₁, t₁, rest₁, meets₁⟩

/-- Every round of the loop of a list reads a statement. -/
theorem readsStatements
    (expressions : ∀ s', s.position ≤ s'.position →
      ReadsExpression buffer.tokens p.expression s')
    (statements : ∀ s', s.position < s'.position →
      ReadsStatements buffer.tokens p.statementsFrom s') :
    ReadsStatements buffer.tokens (p.next buffer.tokens).statementsFrom s := by
  intro r t rest block head cell allowed present meets
  have entered := meets.enter allowed
  unfold Procedures.next
  apply Ends.enter
  apply Ends.look (run_endsList entered.stands.getElem?)
  by_cases ending : t.kind = .endOfInput ∨ t.kind = .rightBrace
  · rw [if_pos (decide_eq_true ending)]
    exact Ends.of_run rfl (.refl _) ⟨cell, t, rest, ending, entered⟩
  · rw [if_neg (by simp [ending])]
    obtain ⟨notEnd, notBrace⟩ := not_or.mp ending
    have free : (s.enter .nextStatement).Allows .statement :=
      State.allows_enter allowed (by decide)
    apply (ends_statement (s := s.enter .nextStatement) expressions free notEnd notBrace
      entered).bind
    rintro value s₁ grows ⟨further, free₁, t₁, rest₁, meets₁⟩
    apply Ends.step (run_emptyCell meets₁.stands.getElem?) ⟨Nat.le_refl _, Nat.le_succ _⟩
    have opened := meets₁.alloc t₁ .sentinel
    have present₁ : cell < (s₁.alloc t₁ .sentinel).draft.arena.size := by
      rw [opened.stands.counted]
      exact Nat.lt_succ_of_lt (Nat.lt_of_lt_of_le present grows.size_le)
    apply Ends.step (run_link present₁ value s₁.draft.size) ⟨Nat.le_refl _, Nat.le_refl _⟩
    have loop := statements ((s₁.alloc t₁ .sentinel).link cell value s₁.draft.size) further
    exact loop r t₁ rest₁ block head s₁.draft.size (free₁.of_le (by decide))
      (Nat.lt_succ_self _) (opened.link cell value s₁.draft.size)

theorem readsList
    (statements : ∀ s', s.position ≤ s'.position →
      ReadsStatements buffer.tokens p.statementsFrom s') :
    ReadsList buffer.tokens (p.next buffer.tokens).statementList s := by
  intro r t rest block allowed meets
  have entered := meets.enter allowed
  have free : (s.enter .statementList).Allows .nextStatement :=
    State.allows_enter allowed (by decide)
  unfold Procedures.next
  apply Ends.enter
  apply Ends.step (run_emptyCell entered.stands.getElem?) ⟨Nat.le_refl _, Nat.le_succ _⟩
  have loop := statements ((s.enter .statementList).alloc t .sentinel) (Nat.le_refl _)
  apply (loop r t rest block _ _ free (Nat.lt_succ_self _) (entered.alloc t .sentinel)).bind
  intro _ s₁ _ holds
  exact Ends.of_run rfl (.refl _) holds

/-- Every round of the loop of an argument list reads an expression. -/
theorem readsArguments
    (expressions : ∀ s', s.position ≤ s'.position →
      ReadsExpression buffer.tokens p.expression s')
    (arguments : ∀ s', s.position < s'.position →
      ReadsArguments buffer.tokens p.argumentsFrom s') :
    ReadsArguments buffer.tokens (p.next buffer.tokens).argumentsFrom s := by
  intro r t rest paren callee before first pending outer allowed meets
  have entered := meets.enter allowed
  unfold Procedures.next
  apply Ends.enter
  apply Ends.look (run_startsExpression entered.stands.getElem?)
  cases starts : t.kind.startsExpression with
  | false =>
    rw [Parse.takeArgument_of_not_startsExpression starts] at entered
    rw [if_neg (by decide)]
    exact Ends.of_run rfl (.refl _) ⟨t, rest, entered⟩
  | true =>
    rw [Parse.takeArgument_of_startsExpression starts] at entered
    rw [if_pos rfl]
    apply Ends.look (run_current entered.stands.getElem?)
    have free : (s.enter .nextArgument).Allows .expression :=
      State.allows_enter allowed (by decide)
    apply (expressions (s.enter .nextArgument) (Nat.le_refl _) r t rest _ free entered).bind
    rintro argument s₁ - ⟨further, free₁, t₁, rest₁, -, meets₁⟩
    exact arguments s₁ further r t₁ rest₁ paren callee ((t, argument) :: before) first pending
      outer (free₁.of_le (by decide)) meets₁

end Procedures

/-! ## Nested calls -/

/-- Some depth is enough for a procedure that is called here. -/
def Affords (tokens : List Token) (depth : Nat) (s : State) (procedure : Procedure) : Prop :=
  9 * tokens.length ≤ depth + Visit.key ⟨procedure, s.position⟩

section Depth

variable {depth : Nat} {procedure other : Procedure}
  (affords : Affords tokens (depth + 1) s procedure)

include affords

/-- What comes behind a procedure in the order of visits may be called by it. -/
theorem Affords.of_before
    (before : (Visit.mk procedure s.position).Before ⟨other, s'.position⟩) :
    Affords tokens depth s' other := by
  have higher := before.key_lt
  unfold Affords at *
  omega

/-- With the cursor where it is, this is what has a higher rank. -/
theorem Affords.within (lt : procedure.rank < other.rank) (s' : State)
    (le : s.position ≤ s'.position) : Affords tokens depth s' other := by
  rcases Nat.lt_or_eq_of_le le with further | here
  · exact affords.of_before (Or.inl further)
  · exact affords.of_before (Or.inr ⟨here, lt⟩)

/-- With the cursor further on, it is everything. -/
theorem Affords.beyond (s' : State) (further : s.position < s'.position) :
    Affords tokens depth s' other :=
  affords.of_before (Or.inl further)

end Depth

/-- Where the depth is enough, the procedures keep their contracts. -/
structure Keeps (tokens : List Token) (depth : Nat) (p : Procedures) : Prop where
  list : ∀ s, Affords tokens depth s .statementList → ReadsList tokens p.statementList s
  statements : ∀ s, Affords tokens depth s .nextStatement →
    ReadsStatements tokens p.statementsFrom s
  expression : ∀ s, Affords tokens depth s .expression → ReadsExpression tokens p.expression s
  operators : ∀ s, Affords tokens depth s .nextOperand → ReadsOperators tokens p.operandsFrom s
  call : ∀ s, Affords tokens depth s .call → ReadsCall tokens p.call s
  arguments : ∀ s, Affords tokens depth s .nextArgument → ReadsArguments tokens p.argumentsFrom s

/-- No depth at all is never enough where there is a token. -/
theorem keeps_stuck (tokens : List Token) : Keeps tokens 0 .stuck := by
  have nowhere {s : State} {procedure : Procedure} (affords : Affords tokens 0 s procedure)
      {r : Run} {t : Token} {rest : List Token} {taken : Verdict × Draft} :
      ¬ Meets tokens r s t rest taken := by
    intro meets
    have inside := meets.stands.position_lt
    have rank := procedure.rank_lt
    dsimp only [Affords, Visit.key] at affords
    omega
  exact {
    list := fun _ affords _ _ _ _ _ meets => absurd meets (nowhere affords)
    statements := fun _ affords _ _ _ _ _ _ _ _ meets => absurd meets (nowhere affords)
    expression := fun _ affords _ _ _ _ _ meets => absurd meets (nowhere affords)
    operators := fun _ affords _ _ _ _ _ _ meets => absurd meets (nowhere affords)
    call := fun _ affords _ _ _ _ _ _ meets => absurd meets (nowhere affords)
    arguments := fun _ affords _ _ _ _ _ _ _ _ _ _ meets => absurd meets (nowhere affords) }

/-- With one level of calls more, the procedures keep their contracts further. -/
theorem Keeps.next {buffer : TokenBuffer} {depth : Nat} {p : Procedures}
    (keeps : Keeps buffer.tokens depth p) :
    Keeps buffer.tokens (depth + 1) (p.next buffer.tokens) where
  list s affords := readsList fun s' le =>
    keeps.statements s' (affords.within (by decide) s' le)
  statements s affords := readsStatements
    (fun s' le => keeps.expression s' (affords.within (by decide) s' le))
    (fun s' lt => keeps.statements s' (affords.beyond s' lt))
  expression s affords := readsExpression
    (fun s' le => keeps.call s' (affords.within (by decide) s' le))
    (fun s' lt => keeps.operators s' (affords.beyond s' lt))
  operators s affords := readsOperators
    (fun s' lt => keeps.call s' (affords.beyond s' lt))
    (fun s' lt => keeps.operators s' (affords.beyond s' lt))
  call s affords := readsCall
    (fun s' lt => keeps.list s' (affords.beyond s' lt))
    (fun s' lt => keeps.expression s' (affords.beyond s' lt))
    (fun s' lt => keeps.arguments s' (affords.beyond s' lt))
  arguments s affords := readsArguments
    (fun s' le => keeps.expression s' (affords.within (by decide) s' le))
    (fun s' lt => keeps.arguments s' (affords.beyond s' lt))

theorem keeps_procedures (buffer : TokenBuffer) (depth : Nat) :
    Keeps buffer.tokens depth (procedures buffer.tokens depth) := by
  induction depth with
  | zero => exact keeps_stuck buffer.tokens
  | succ depth ih => exact ih.next

/-! ## Programs -/

/-- Before anything has happened but that the start was logged, the run is all of the run on the
buffer. -/
theorem meets_start (buffer : TokenBuffer) :
    ∃ t rest, Meets buffer.tokens (Parse.run buffer.tokens)
      (State.start.emit (.parsing buffer.tokens.length)) t rest
      (Parse.step t (.opened .program) .empty) := by
  have nonempty : buffer.tokens ≠ [] := by simp [TokenBuffer.tokens]
  obtain ⟨t, rest, cut⟩ := List.exists_cons_of_ne_nil nonempty
  refine ⟨t, rest, ⟨cut, rfl, rfl, rfl, ?_, List.Pairwise.nil, rfl⟩, ?_⟩
  · exact fun v mem => absurd mem List.not_mem_nil
  · rw [Parse.run, cut, Parse.runFrom_cons]
    rfl

/-- A program is read up to where the parser accepts, and the last that is logged is how many nodes
there are. -/
theorem ends_program {buffer : TokenBuffer} {depth : Nat} (enough : 9 * buffer.size ≤ depth) :
    Ends buffer.tokens (Parse.run buffer.tokens) (program buffer.tokens depth) .start
      fun root s' => ∃ (s : State) (t : Token) (rest : List Token),
        s' = s.emit (.parsed s.draft.size) ∧
        s.Stands buffer.tokens t rest ∧
        Parse.run buffer.tokens = ⟨.accepted root, s.draft, s.advances⟩ := by
  obtain ⟨t, rest, meets⟩ := meets_start buffer
  have free : (State.start.emit (.parsing buffer.tokens.length)).Allows .statementList :=
    fun v mem => absurd mem List.not_mem_nil
  have affords : Affords buffer.tokens depth (State.start.emit (.parsing buffer.tokens.length))
      .statementList := by
    rw [Affords, buffer.length_tokens]
    exact Nat.le_add_right_of_le enough
  unfold program
  apply Ends.step (run_emit _) ⟨Nat.le_refl _, Nat.le_refl _⟩
  apply ((keeps_procedures buffer depth).list _ affords _ t rest .program free meets).bind
  rintro root s - ⟨cell, t₁, rest₁, ending, meets₁⟩
  apply Ends.look (run_check meets₁.stands.getElem? .endOfInput)
  by_cases isEnd : t₁.kind = .endOfInput
  · rw [if_pos (decide_eq_true isEnd)]
    rw [Parse.takeStatement_program_endOfInput _ _ isEnd] at meets₁
    apply Ends.look run_get
    apply Ends.step (run_emit _) ⟨Nat.le_refl _, Nat.le_refl _⟩
    exact Ends.of_run rfl (.refl _) ⟨_, t₁, rest₁, rfl, meets₁.stands, meets₁.same⟩
  · rw [if_neg (by simp [isEnd])]
    rw [Parse.takeStatement_program_rightBrace _ _ (ending.resolve_left isEnd)] at meets₁
    exact meets₁.refuse

theorem Visit.Before.position_lt {v w : Visit} (before : w.Before v)
    (again : w.procedure = v.procedure) : w.position < v.position := by
  rcases before with further | ⟨-, lower⟩
  · exact further
  · rw [again] at lower
    exact absurd lower (Nat.lt_irrefl _)

/-- Visits one before the other are no more than there are places for them. -/
theorem length_visits_le {visits : List Visit} {bound : Nat}
    (ordered : visits.Pairwise fun later earlier => earlier.Before later)
    (below : ∀ v ∈ visits, v.key < bound) : visits.length ≤ bound := by
  induction visits generalizing bound with
  | nil => exact Nat.zero_le _
  | cons v earlier ih =>
    obtain ⟨first, others⟩ := List.pairwise_cons.mp ordered
    have fewer := ih others fun w mem => (first w mem).key_lt
    exact Nat.lt_of_le_of_lt fewer (below v List.mem_cons_self)

/-- What a computation on a buffer comes to: a tree or a token that does not fit, as the parser
has it, and with nothing gone wrong on the way. -/
structure Completes (buffer : TokenBuffer) (result : Except Stop NodeId) (s : State) :
    Prop where
  parses : (∃ root, result = .ok root ∧ buffer.parse = .ok ⟨s.draft.arena, root⟩) ∨
    ∃ e, result = .error (.refused e) ∧ buffer.parse = .error e
  advances_eq : (Parse.run buffer.tokens).advances = s.advances
  draft_eq : (Parse.run buffer.tokens).draft = s.draft
  /-- The cursor never had to be kept at the last token. -/
  unclamped : s.clamped = false
  position_lt : s.position < buffer.size
  eaten : s.advances.toList.map Advance.eaten = buffer.tokens.take s.position
  /-- The end of the input is never moved over. -/
  eaten_kind : ∀ advance ∈ s.advances.toList, advance.eaten.kind ≠ .endOfInput
  visited : ∀ v ∈ s.visits, v.position ≤ s.position
  ordered : s.visits.Pairwise fun later earlier => earlier.Before later
  /-- Between two visits of one procedure the cursor has moved. So every round of a loop takes in
  a token, and so does every descent into a bracket. -/
  further : s.visits.Pairwise fun later earlier =>
    earlier.procedure = later.procedure → earlier.position < later.position
  length_visits_le : s.visits.length ≤ 9 * buffer.size

/-- Nothing has gone wrong where the cursor is at a token, whatever is logged last. -/
theorem State.Stands.completes {buffer : TokenBuffer} {result : Except Stop NodeId}
    {outcome : Outcome} (stands : s.Stands buffer.tokens t rest)
    (same : Parse.run buffer.tokens = ⟨outcome, s.draft, s.advances⟩)
    (parses : (∃ root, result = .ok root ∧ buffer.parse = .ok ⟨s.draft.arena, root⟩) ∨
      ∃ e, result = .error (.refused e) ∧ buffer.parse = .error e) (record : LogRecord) :
    Completes buffer result (s.emit record) := by
  have inside := stands.position_lt
  rw [buffer.length_tokens] at inside
  refine ⟨parses, congrArg Run.advances same, congrArg Run.draft same, stands.unclamped, inside,
    stands.eaten, ?_, stands.visited, stands.ordered, stands.ordered.imp Visit.Before.position_lt,
    length_visits_le stands.ordered ?_⟩
  · intro advance mem
    have eaten : advance.eaten ∈ buffer.tokens.take s.position :=
      stands.eaten ▸ List.mem_map_of_mem mem
    apply buffer.body_kind
    rw [TokenBuffer.tokens, List.take_append_of_le_length (Nat.le_of_lt_succ inside)] at eaten
    exact List.mem_of_mem_take eaten
  · intro v mem
    have place := stands.visited v mem
    have rank := v.procedure.rank_lt
    unfold Visit.key
    omega

end Descent

/-- On any buffer the procedures come to an end, however deep calls may be nested from some depth
on, and nothing goes wrong. -/
theorem TokenBuffer.descent_completes (buffer : TokenBuffer) :
    ∃ result s, (∀ depth, 9 * buffer.size ≤ depth →
        Descent.run (Descent.program buffer.tokens depth) .start = some (result, s)) ∧
      Descent.Completes buffer result s := by
  have finished := Parse.run_ne_unfinished buffer
  have deeper {depth : Nat} (le : 9 * buffer.size ≤ depth) :=
    Descent.program_extends buffer.tokens le .start
  obtain ⟨_, -, ⟨root, done, s, t, rest, rfl, stands, accepted⟩ |
    ⟨_, _, t, rest, stopped, stands, rejected⟩⟩ :=
      Descent.ends_program (Nat.le_refl (9 * buffer.size))
  · have parsed := Run.result_of_accepted finished (congrArg Run.outcome accepted)
    rw [congrArg Run.draft accepted] at parsed
    exact ⟨_, _, fun depth le => deeper le _ done,
      stands.completes accepted (Or.inl ⟨root, rfl, parsed⟩) _⟩
  · have refused := Run.result_of_rejected finished (congrArg Run.outcome rejected)
    exact ⟨_, _, fun depth le => deeper le _ stopped,
      stands.completes rejected (Or.inr ⟨_, rfl, refused⟩) _⟩

end PipeScript
