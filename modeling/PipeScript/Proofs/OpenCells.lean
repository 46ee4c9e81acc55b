import PipeScript.Proofs.EditHistory

/-!
# The cells that a parser has open

Around the place that a parser has reached there is one open statement list for every function that
it is in, and one for the program. Each of them ends in a cell that waits for its statement, while
the nodes of that statement, inner lists and their links included, are added behind it.

`Draft.Suspends` describes all of these at once. The open cells are empty, the inner ones behind the
outer ones, and no slot names a node from some bound on; behind an expression that bound is the
expression itself, which is the last node (`Control.Suspends`). So a statement that is complete can
be put into the innermost open cell, and no other is touched. A step of the parser keeps this
(`Parse.step_inOrder`), whatever the token comes to. It follows that the edits of a run are careful,
and `TokenBuffer.run_history` says what that comes to, for runs that accept and for runs that refuse
a token.
-/

namespace PipeScript

/-! ## What is open around an expression -/

/-- The operand that waits for the right side of its operator. -/
def Pending.names : Option Pending → List NodeId
  | none => []
  | some pending => [pending.left]

namespace Context

/-- The open cells around an expression, from the inside out. -/
def cells : Context → List NodeId
  | program list _ => [list.cell]
  | function _ list _ _ outer => list.cell :: outer.cells
  | callee _ _ outer | argument _ _ _ _ _ outer => outer.cells

/-- The nodes that something is going to name: the heads of lists, and operands, callees and
arguments that are complete. -/
def names : Context → List NodeId
  | program list _ => [list.head]
  | function _ list _ pending outer => list.head :: (Pending.names pending ++ outer.names)
  | callee _ pending outer => Pending.names pending ++ outer.names
  | argument _ _ called before pending outer =>
    called :: (before.map Prod.snd ++ (Pending.names pending ++ outer.names))

end Context

namespace Block

/-- The open cells around a block. -/
def cells : Block → List NodeId
  | program => []
  | function _ _ outer => outer.cells

/-- The nodes around a block that something is going to name. -/
def names : Block → List NodeId
  | program => []
  | function _ pending outer => Pending.names pending ++ outer.names

variable (block : Block) (list : OpenList) (purpose : Purpose)

@[simp] theorem cells_context : (block.context list purpose).cells = list.cell :: block.cells := by
  cases block <;> rfl

@[simp] theorem names_context : (block.context list purpose).names = list.head :: block.names := by
  cases block <;> rfl

end Block

/-! ## Drafts with open cells -/

/-- A draft whose edits were careful, with some open cells and some nodes to be named. From a bound
on no node is named, and all open cells are before it. -/
structure Draft.Suspends (draft : Draft) (bound : NodeId) (cells names : List NodeId) : Prop where
  careful : Careful draft.edits.toList
  size_eq : draft.size = draft.arena.size
  bound_le : bound ≤ draft.size
  named : ∀ (i : NodeId) (node : Node), draft.arena.nodes[i]? = some node →
    ∀ id, some id ∈ node.kind.slots → id < bound
  empty : ∀ cell ∈ cells, ∃ node : Node, draft.arena.nodes[cell]? = some node ∧ node.isSentinel
  nested : (bound :: cells).Pairwise (· > ·)
  there : ∀ id ∈ names, id < draft.size

namespace Draft.Suspends

variable {draft : Draft} {bound : NodeId} {cells names fewer : List NodeId}

theorem start : Draft.empty.Suspends 0 [] [] where
  careful := Careful.nil
  size_eq := rfl
  bound_le := Nat.le_refl 0
  named _ _ found := nomatch found
  empty _ mem := absurd mem List.not_mem_nil
  nested := List.pairwise_singleton _ _
  there _ mem := absurd mem List.not_mem_nil

/-- Some of the nodes are not going to be named any more. -/
theorem forget (suspends : draft.Suspends bound cells names) (sub : fewer ⊆ names) :
    draft.Suspends bound cells fewer :=
  { suspends with there := fun id mem => suspends.there id (sub mem) }

/-- A list is closed with its last cell left empty. -/
theorem close {cell : NodeId} (suspends : draft.Suspends bound (cell :: cells) names) :
    draft.Suspends bound cells names where
  careful := suspends.careful
  size_eq := suspends.size_eq
  bound_le := suspends.bound_le
  named := suspends.named
  empty other mem := suspends.empty other (List.mem_cons_of_mem _ mem)
  nested := suspends.nested.sublist (List.Sublist.cons_cons _ (List.sublist_cons_self _ _))
  there := suspends.there

theorem mono {higher : NodeId} (suspends : draft.Suspends bound cells names)
    (le : bound ≤ higher) (within : higher ≤ draft.size) : draft.Suspends higher cells names := by
  obtain ⟨below, nested⟩ := List.pairwise_cons.mp suspends.nested
  exact { suspends with
    bound_le := within
    named := fun i node found id mem =>
      Nat.lt_of_lt_of_le (suspends.named i node found id mem) le
    nested := List.pairwise_cons.mpr
      ⟨fun cell mem => Nat.lt_of_lt_of_le (below cell mem) le, nested⟩ }

/-- All that is there may be named. -/
theorem whole (suspends : draft.Suspends bound cells names) :
    draft.Suspends draft.size cells names :=
  suspends.mono suspends.bound_le (Nat.le_refl _)

/-- A new node can name nodes that have names already. -/
theorem alloc (suspends : draft.Suspends bound cells names) (t : Token) (kind : NodeKind)
    (children : ∀ id, some id ∈ kind.slots → id < bound) :
    (draft.alloc t kind).2.Suspends bound cells names where
  careful := by
    have edits : (draft.alloc t kind).2.edits.toList = draft.edits.toList ++ [.alloc t kind] :=
      Array.toList_push
    rw [edits]
    exact suspends.careful.concat trivial
  size_eq := by
    rw [arena_alloc, Arena.size_alloc, ← suspends.size_eq]
    rfl
  bound_le := Nat.le_succ_of_le suspends.bound_le
  named i node found id mem := by
    rw [arena_alloc, Arena.getElem?_alloc] at found
    split at found
    · cases found
      exact children id mem
    · exact suspends.named i node found id mem
  empty cell mem := by
    obtain ⟨node, found, empty⟩ := suspends.empty cell mem
    rw [arena_alloc]
    exact ⟨node, Arena.getElem?_alloc_of_some found t kind, empty⟩
  nested := suspends.nested
  there id mem := Nat.lt_succ_of_lt (suspends.there id mem)

theorem getElem?_alloc (suspends : draft.Suspends bound cells names) (t : Token)
    (kind : NodeKind) :
    (draft.alloc t kind).2.arena.nodes[draft.size]? = some ⟨draft.size, t, kind⟩ := by
  rw [arena_alloc, Arena.getElem?_alloc, if_pos suspends.size_eq, ← suspends.size_eq]

/-- An empty cell behind all that are open is open, too. -/
theorem withCell (suspends : draft.Suspends bound cells names) {cell : NodeId} {node : Node}
    (found : draft.arena.nodes[cell]? = some node) (empty : node.isSentinel)
    (inner : ∀ other ∈ cells, other < cell) :
    draft.Suspends draft.size (cell :: cells) names where
  careful := suspends.careful
  size_eq := suspends.size_eq
  bound_le := Nat.le_refl _
  named := suspends.whole.named
  empty := List.forall_mem_cons.mpr ⟨⟨node, found, empty⟩, suspends.empty⟩
  nested := by
    obtain ⟨below, nested⟩ := List.pairwise_cons.mp suspends.whole.nested
    have last : cell < draft.size := suspends.size_eq ▸ Arena.lt_size found
    exact List.pairwise_cons.mpr
      ⟨List.forall_mem_cons.mpr ⟨last, below⟩, List.pairwise_cons.mpr ⟨inner, nested⟩⟩
  there := suspends.there

/-- A new sentinel names nothing. -/
theorem allocSentinel (suspends : draft.Suspends bound cells names) (t : Token) :
    (draft.alloc t .sentinel).2.Suspends bound cells names :=
  suspends.alloc t .sentinel (by simp [NodeKind.sentinel, NodeKind.slots])

/-- A list starts with a new cell. -/
theorem openCell (suspends : draft.Suspends bound cells names) (t : Token) :
    (draft.alloc t .sentinel).2.Suspends (draft.size + 1) (draft.size :: cells)
      (draft.size :: names) := by
  have opened := (suspends.allocSentinel t).withCell (suspends.getElem?_alloc t .sentinel) rfl
    (List.pairwise_cons.mp suspends.whole.nested).1
  exact { opened with
    there := List.forall_mem_cons.mpr ⟨Nat.lt_succ_self _, opened.there⟩ }

/-- A statement that nothing names is put into the innermost open cell, with a node behind it as
the next cell. -/
theorem link {cell statement next : NodeId}
    (suspends : draft.Suspends statement (cell :: cells) names) (behind : statement < next)
    (last : next < draft.size) :
    (draft.link cell statement next).Suspends draft.size cells names := by
  obtain ⟨below, nested⟩ := List.pairwise_cons.mp suspends.nested
  obtain ⟨inner, -⟩ := List.pairwise_cons.mp nested
  obtain ⟨cellBelow, othersBelow⟩ := List.forall_mem_cons.mp below
  have statementThere : statement < draft.size := Nat.lt_trans behind last
  have awaits : draft.arena.Awaits cell statement next := by
    constructor
    · exact suspends.empty cell List.mem_cons_self
    · exact cellBelow
    · exact behind
    · exact suspends.size_eq ▸ last
    · exact fun i node found mem => Nat.lt_irrefl _ (suspends.named i node found _ mem)
    · exact fun i node found mem => Nat.lt_asymm behind (suspends.named i node found _ mem)
  constructor
  case careful =>
    have edits : (draft.link cell statement next).edits.toList =
        draft.edits.toList ++ [.link cell statement next] := Array.toList_push
    rw [edits]
    exact suspends.careful.concat awaits
  case size_eq =>
    rw [arena_link, Arena.size_link, ← suspends.size_eq]
    rfl
  case bound_le => exact Nat.le_refl _
  case named =>
    intro i node found id mem
    rw [arena_link, Arena.getElem?_link] at found
    split at found
    · obtain ⟨before, -, rfl⟩ := Option.map_eq_some_iff.mp found
      rcases List.mem_pair.mp mem with same | same
      · exact Option.some.inj same ▸ statementThere
      · exact Option.some.inj same ▸ last
    · exact Nat.lt_trans (suspends.named i node found id mem) statementThere
  case empty =>
    intro other mem
    rw [arena_link, Arena.getElem?_link_of_ne (Nat.ne_of_gt (inner other mem))]
    exact suspends.empty other (List.mem_cons_of_mem _ mem)
  case nested =>
    have below : ∀ other ∈ cells, other < draft.size := fun other mem =>
      Nat.lt_trans (othersBelow other mem) statementThere
    exact List.pairwise_cons.mpr ⟨below, nested.of_cons⟩
  case there => exact suspends.there

/-- The last node is put into the innermost open cell, and a new cell behind it is open instead. -/
theorem link_alloc {cell statement : NodeId}
    (suspends : draft.Suspends statement (cell :: cells) names) (last : draft.size = statement + 1)
    (follow : Token) :
    ((draft.alloc follow .sentinel).2.link cell statement draft.size).Suspends (draft.size + 1)
      (draft.size :: cells) names := by
  obtain ⟨below, -⟩ := List.pairwise_cons.mp suspends.nested
  obtain ⟨cellBelow, othersBelow⟩ := List.forall_mem_cons.mp below
  have behind : statement < draft.size := last ▸ Nat.lt_succ_self statement
  have linked := (suspends.allocSentinel follow).link behind (Nat.lt_succ_self draft.size)
  have next := suspends.getElem?_alloc follow .sentinel
  rw [← Arena.getElem?_link_of_ne (Nat.ne_of_lt (Nat.lt_trans cellBelow behind)), ← arena_link]
    at next
  exact linked.withCell next rfl fun other mem => Nat.lt_trans (othersBelow other mem) behind

end Draft.Suspends

/-! ## Controls -/

/-- What a control takes for granted about a draft. -/
def Control.Suspends (draft : Draft) : Control → Prop
  | opened block => draft.Suspends draft.size block.cells block.names
  | symbol block list | assign _ block list =>
    draft.Suspends draft.size (list.cell :: block.cells) (list.head :: block.names)
  | operand pending outer =>
    draft.Suspends draft.size outer.cells (Pending.names pending ++ outer.names)
  | operator value outer =>
    draft.size = value + 1 ∧ draft.Suspends value outer.cells outer.names

theorem Control.Suspends.careful {draft : Draft} {control : Control}
    (suspends : control.Suspends draft) : Careful draft.edits.toList := by
  cases control with
  | operator => exact suspends.2.careful
  | _ => exact Draft.Suspends.careful suspends

namespace Parse

/-- What a token comes to suits the draft that it leaves. -/
def InOrder : Verdict × Draft → Prop
  | (.proceed control, draft) => control.Suspends draft
  | (.accept _, draft) | (.reject _, draft) => Careful draft.edits.toList

variable {draft : Draft} {cells names : List NodeId} {pending : Option Pending} {outer : Context}
  {value bound : NodeId}

theorem completeOperand_inOrder (last : draft.size = value + 1)
    (suspends : draft.Suspends value outer.cells (Pending.names pending ++ outer.names)) :
    InOrder (completeOperand value pending outer draft) := by
  cases pending with
  | none => exact ⟨last, suspends⟩
  | some pending =>
    have children : ∀ id, some id ∈ (NodeKind.binary pending.left value).slots →
        id < draft.size := by
      intro id mem
      rcases List.mem_pair.mp mem with same | same
      · exact Option.some.inj same ▸ suspends.there _ List.mem_cons_self
      · exact Option.some.inj same ▸ last ▸ Nat.lt_succ_self value
    have made := suspends.whole.alloc pending.operator _ children
    exact ⟨rfl, made.forget (List.subset_cons_self _ _)⟩

/-- A new node is an operand. -/
theorem completeOperand_alloc_inOrder {kind : NodeKind} (t : Token)
    (suspends : draft.Suspends bound outer.cells (Pending.names pending ++ outer.names))
    (children : ∀ id, some id ∈ kind.slots → id < draft.size) :
    InOrder (completeOperand draft.size pending outer (draft.alloc t kind).2) :=
  completeOperand_inOrder rfl (suspends.whole.alloc t kind children)

theorem takeOperand_inOrder (t : Token)
    (suspends : draft.Suspends draft.size outer.cells (Pending.names pending ++ outer.names)) :
    InOrder (takeOperand t pending outer draft) := by
  unfold takeOperand
  split
  · exact completeOperand_alloc_inOrder t suspends (by simp [NodeKind.slots])
  · exact completeOperand_alloc_inOrder t suspends (by simp [NodeKind.slots])
  · exact suspends
  · exact suspends
  · exact suspends.careful

/-- The arguments of a call are named by the cells of its list, from the last cell to the first. -/
theorem allocArguments_suspends {before : List (Token × NodeId)} {next : Option NodeId}
    (suspends : draft.Suspends draft.size cells names)
    (arguments : ∀ argument ∈ before.map Prod.snd, argument < draft.size)
    (rest : ∀ id, some id = next → id < draft.size) :
    let allocated := allocArguments draft next before
    allocated.2.Suspends allocated.2.size cells names ∧
      draft.size ≤ allocated.2.size ∧ ∀ id, some id = allocated.1 → id < allocated.2.size := by
  induction before generalizing draft next with
  | nil => exact ⟨suspends, Nat.le_refl _, rest⟩
  | cons first before ih =>
    obtain ⟨t, argument⟩ := first
    obtain ⟨isArgument, others⟩ := List.forall_mem_cons.mp arguments
    have children : ∀ id, some id ∈ (NodeKind.argumentCell argument next).slots →
        id < draft.size := by
      intro id mem
      rcases List.mem_pair.mp mem with same | same
      · exact Option.some.inj same ▸ isArgument
      · exact rest id same
    have added := (suspends.alloc t _ children).whole
    have grown : draft.size < (draft.alloc t (.argumentCell argument next)).2.size :=
      Nat.lt_succ_self draft.size
    obtain ⟨all, le, first⟩ := ih added (fun id mem => Nat.lt_trans (others id mem) grown)
      (fun id same => Option.some.inj same ▸ grown)
    exact ⟨all, Nat.le_trans (Nat.le_of_lt grown) le, first⟩

theorem takeStatement_inOrder (t : Token) {block : Block} {list : OpenList}
    (suspends : draft.Suspends draft.size (list.cell :: block.cells) (list.head :: block.names)) :
    InOrder (takeStatement t block list draft) := by
  unfold takeStatement
  split
  · exact suspends
  · exact suspends.careful
  · exact suspends.careful
  · exact suspends.careful
  · rename_i brace pending outer _
    refine completeOperand_alloc_inOrder brace
      (suspends.close.forget (List.subset_cons_self _ _)) ?_
    intro id mem
    cases List.mem_singleton.mp mem
    exact suspends.there _ List.mem_cons_self
  · apply takeOperand_inOrder
    rw [Block.cells_context, Block.names_context]
    exact suspends

theorem takeArgument_inOrder (t paren : Token) {callee : NodeId} {before : List (Token × NodeId)}
    (suspends : draft.Suspends draft.size outer.cells
      (callee :: (before.map Prod.snd ++ (Pending.names pending ++ outer.names)))) :
    InOrder (takeArgument t paren callee before pending outer draft) := by
  unfold takeArgument
  split
  · exact takeOperand_inOrder t suspends
  · obtain ⟨isCallee, others⟩ := List.forall_mem_cons.mp suspends.there
    obtain ⟨arguments, -⟩ := List.forall_mem_append.mp others
    have unnamed : ∀ id, some id = none → id < draft.size := nofun
    obtain ⟨all, le, first⟩ := allocArguments_suspends suspends arguments unnamed
    dsimp only
    split
    · refine completeOperand_alloc_inOrder paren (all.forget ?_) ?_
      · exact fun id mem => List.mem_cons_of_mem _ (List.mem_append_right _ mem)
      · intro id mem
        rcases List.mem_pair.mp mem with same | same
        · exact Option.some.inj same ▸ Nat.lt_of_lt_of_le isCallee le
        · exact first id same
    · exact all.careful

/-- A statement that is complete is put into its cell, and the next cell is open. -/
theorem completeStatement_suspends {list : OpenList} (purpose : Purpose) (follow : Token)
    (last : draft.size = value + 1) (suspends : draft.Suspends value (list.cell :: cells) names) :
    let completed := completeStatement value purpose list follow draft
    completed.2.Suspends completed.2.size (completed.1.cell :: cells) names := by
  cases purpose with
  | statement => exact suspends.link_alloc last follow
  | initializer symbol =>
    have children : ∀ id, some id ∈ (NodeKind.definition value).slots → id < draft.size := by
      intro id mem
      cases List.mem_singleton.mp mem
      exact last ▸ Nat.lt_succ_self value
    exact (suspends.whole.alloc symbol _ children).link_alloc rfl follow

theorem takeBehind_inOrder (t : Token) (last : draft.size = value + 1)
    (suspends : draft.Suspends value outer.cells outer.names) :
    InOrder (takeBehind t value outer draft) := by
  cases outer with
  | program list purpose =>
    exact takeStatement_inOrder t (completeStatement_suspends purpose t last suspends)
  | function brace list purpose pending outer =>
    exact takeStatement_inOrder t (completeStatement_suspends purpose t last suspends)
  | callee paren pending outer =>
    refine takeArgument_inOrder t paren { suspends.whole with there := ?_ }
    exact List.forall_mem_cons.mpr ⟨last ▸ Nat.lt_succ_self value, suspends.there⟩
  | argument first paren callee before pending outer =>
    refine takeArgument_inOrder t paren { suspends.whole with there := ?_ }
    obtain ⟨isCallee, others⟩ := List.forall_mem_cons.mp suspends.there
    exact List.forall_mem_cons.mpr
      ⟨isCallee, List.forall_mem_cons.mpr ⟨last ▸ Nat.lt_succ_self value, others⟩⟩

/-- Whatever a token comes to, every open cell is left empty but the one whose statement it ends. -/
theorem step_inOrder (t : Token) {control : Control} (suspends : control.Suspends draft) :
    InOrder (step t control draft) := by
  cases control with
  | opened block => exact takeStatement_inOrder t (Draft.Suspends.openCell suspends t)
  | symbol block list =>
    rw [step]
    split
    · exact suspends
    · exact suspends.careful
  | assign name block list =>
    rw [step]
    split
    · change draft.Suspends draft.size (block.context list (.initializer name)).cells
        (block.context list (.initializer name)).names
      rw [Block.cells_context, Block.names_context]
      exact suspends
    · exact suspends.careful
  | operand pending outer => exact takeOperand_inOrder t suspends
  | operator value outer =>
    obtain ⟨last, suspends⟩ := suspends
    rw [step]
    split
    · refine { suspends.whole with there := ?_ }
      exact List.forall_mem_cons.mpr ⟨last ▸ Nat.lt_succ_self value, suspends.there⟩
    · exact takeBehind_inOrder t last suspends

/-- The edits of a run are careful, however it ends. -/
theorem runFrom_careful {control : Control} (suspends : control.Suspends draft)
    (advances : Array Advance) (tokens : List Token) :
    Careful (runFrom control draft advances tokens).draft.edits.toList := by
  induction tokens generalizing control draft advances with
  | nil => exact suspends.careful
  | cons t tokens ih =>
    have taken := step_inOrder t suspends
    rw [runFrom]
    split
    · rename_i root draft' eq
      rw [eq] at taken
      exact taken
    · rename_i error draft' eq
      rw [eq] at taken
      exact taken
    · rename_i control' draft' eq
      rw [eq] at taken
      exact ih taken _

end Parse

/-! ## Runs -/

namespace TokenBuffer

/-- The tree of a program holds what the edits of the run have built. -/
theorem map_toArena_parse (buffer : TokenBuffer) :
    buffer.parse.map Tree.toArena =
      buffer.parse.map fun _ => Arena.replay (Parse.run buffer.tokens).draft.edits.toList := by
  have finished := Parse.run_ne_unfinished buffer
  rw [parse]
  cases outcome : (Parse.run buffer.tokens).outcome with
  | accepted root =>
    rw [Run.result_of_accepted finished outcome]
    rfl
  | rejected error =>
    rw [Run.result_of_rejected finished outcome]
    rfl
  | unfinished => exact absurd outcome finished

/-- The edits of a run over a buffer, up to the end or to the token that is refused, fill in every
cell once and change no other node. What they have built is the tree, where the run accepts. -/
theorem run_history (buffer : TokenBuffer) :
    EditHistory (Parse.run buffer.tokens).draft.edits.toList ∧
      buffer.parse.map Tree.toArena =
        buffer.parse.map fun _ => Arena.replay (Parse.run buffer.tokens).draft.edits.toList := by
  refine ⟨Careful.history ?_, buffer.map_toArena_parse⟩
  have start : (Control.opened .program).Suspends .empty := .start
  exact Parse.runFrom_careful start #[] buffer.tokens

end TokenBuffer

end PipeScript
