import Mathlib.Data.List.Induction
import Mathlib.Data.List.Nodup
import PipeScript.Proofs.Layout

/-!
# What edits leave as it was

An arena grows by edits, and an edit can undo an earlier one: a link overwrites the node that it
names, whatever that holds. `Arena.Awaits` is what a link has to find so that nothing is lost. The
node is an empty cell, and the statement and the next cell that are put into it are nodes behind it
that no node names yet. `Careful` says of a list of edits that every link finds this.

Then the history of an arena is simple (`Careful.history`). Every cell is filled in once, and of any
two arenas on the way the later one has the nodes of the earlier one, as they were, but for the
empty cells that have been filled in between (`Arena.GrowsBy`).

That the parser is careful is in `PipeScript.Proofs.OpenCells`.
-/

namespace PipeScript

/-! ## Single edits -/

/-- What a cell becomes when it is filled in. -/
def Node.filled (node : Node) (statement next : NodeId) : Node :=
  { node with kind := .statementCell (some statement) (some next) }

theorem Node.isSentinel_filled (node : Node) (statement next : NodeId) :
    (node.filled statement next).isSentinel = false := by
  simp [filled, isSentinel, NodeKind.sentinel]

/-- The cell that an edit fills in. -/
def Edit.linked? : Edit → Option NodeId
  | alloc _ _ => none
  | link cell _ _ => some cell

namespace Arena

variable {arena : Arena} {id cell statement next : NodeId} {node : Node}

theorem size_alloc (t : Token) (kind : NodeKind) : (arena.alloc t kind).size = arena.size + 1 :=
  Array.size_push _

theorem size_link : (arena.link cell statement next).size = arena.size :=
  Array.size_modify

theorem lt_size (found : arena.nodes[id]? = some node) : id < arena.size :=
  (Array.getElem?_eq_some_iff.mp found).1

theorem getElem?_alloc (t : Token) (kind : NodeKind) :
    (arena.alloc t kind).nodes[id]? =
      if id = arena.size then some ⟨arena.size, t, kind⟩ else arena.nodes[id]? :=
  Array.getElem?_push

theorem getElem?_link :
    (arena.link cell statement next).nodes[id]? =
      if cell = id then arena.nodes[id]?.map (·.filled statement next) else arena.nodes[id]? :=
  Array.getElem?_modify

theorem getElem?_alloc_of_some (found : arena.nodes[id]? = some node) (t : Token)
    (kind : NodeKind) : (arena.alloc t kind).nodes[id]? = some node := by
  rw [getElem?_alloc, if_neg (Nat.ne_of_lt (lt_size found)), found]

theorem getElem?_link_self (found : arena.nodes[cell]? = some node) :
    (arena.link cell statement next).nodes[cell]? = some (node.filled statement next) := by
  rw [getElem?_link, if_pos rfl, found, Option.map_some]

theorem getElem?_link_of_ne (other : cell ≠ id) :
    (arena.link cell statement next).nodes[id]? = arena.nodes[id]? := by
  rw [getElem?_link, if_neg other]

/-- A name is in no child slot. -/
def Unnamed (arena : Arena) (id : NodeId) : Prop :=
  ∀ (i : NodeId) (node : Node), arena.nodes[i]? = some node → some id ∉ node.kind.slots

/-- An arena is ready for a link: there is an empty cell, and behind it there are the statement and
the next cell for it, which no node has yet. -/
structure Awaits (arena : Arena) (cell statement next : NodeId) : Prop where
  empty : ∃ node, arena.nodes[cell]? = some node ∧ node.isSentinel
  cell_lt : cell < statement
  statement_lt : statement < next
  next_lt : next < arena.size
  statement_unnamed : arena.Unnamed statement
  next_unnamed : arena.Unnamed next

/-- A cell that is to be filled in has not been filled in before. -/
theorem Awaits.ne_filled (awaits : arena.Awaits cell statement next) (node : Node)
    (statement' next' : NodeId) : arena.nodes[cell]? ≠ some (node.filled statement' next') := by
  intro filled
  obtain ⟨now, found, empty⟩ := awaits.empty
  rw [filled] at found
  cases found
  rw [Node.isSentinel_filled] at empty
  cases empty

/-- An arena is ready for an edit. -/
def Welcomes (arena : Arena) : Edit → Prop
  | .alloc _ _ => True
  | .link cell statement next => arena.Awaits cell statement next

/-- Some edits have made an arena into a later one: the nodes are as they were, but for empty cells
that the edits have filled in. -/
structure GrowsBy (arena : Arena) (edits : List Edit) (later : Arena) : Prop where
  kept : ∀ id node, arena.nodes[id]? = some node → id ∉ edits.filterMap Edit.linked? →
    later.nodes[id]? = some node
  filled : ∀ id node statement next, arena.nodes[id]? = some node →
    .link id statement next ∈ edits →
    node.isSentinel ∧ later.nodes[id]? = some (node.filled statement next)

theorem replay_concat (edits : List Edit) (change : Edit) :
    replay (edits ++ [change]) = (replay edits).edit change := by
  rw [replay, List.foldl_append]
  rfl

end Arena

/-! ## Lists of edits -/

/-- Every edit finds an arena that is ready for it. -/
def Careful (edits : List Edit) : Prop :=
  ∀ before change after, edits = before ++ change :: after → (Arena.replay before).Welcomes change

namespace Careful

variable {edits since : List Edit} {change : Edit}

theorem nil : Careful [] := fun _ _ _ eq => absurd eq.symm (by simp)

theorem concat (careful : Careful edits) (welcome : (Arena.replay edits).Welcomes change) :
    Careful (edits ++ [change]) := by
  intro before other after eq
  rcases List.eq_nil_or_concat after with rfl | ⟨after, last, rfl⟩
  · obtain ⟨rfl, last⟩ := List.append_inj' eq rfl
    cases last
    exact welcome
  · rw [List.concat_eq_append, ← List.cons_append, ← List.append_assoc] at eq
    exact careful before other after (List.append_inj' eq rfl).1

theorem of_append (careful : Careful (edits ++ since)) : Careful edits := by
  intro before other after eq
  refine careful before other (after ++ since) ?_
  rw [eq, List.append_assoc, List.cons_append]

theorem welcomes (careful : Careful (edits ++ [change])) : (Arena.replay edits).Welcomes change :=
  careful edits change [] rfl

end Careful

theorem mem_linked {edits : List Edit} {cell : NodeId} :
    cell ∈ edits.filterMap Edit.linked? ↔ ∃ statement next, .link cell statement next ∈ edits := by
  rw [List.mem_filterMap]
  constructor
  · rintro ⟨change, mem, linked⟩
    cases change with
    | alloc => cases linked
    | link =>
      cases linked
      exact ⟨_, _, mem⟩
  · rintro ⟨statement, next, mem⟩
    exact ⟨_, mem, rfl⟩

/-! ## Growing -/

namespace Arena.GrowsBy

variable {arena later : Arena} {since : List Edit}

theorem refl : arena.GrowsBy [] arena :=
  ⟨fun _ _ found _ => found, fun _ _ _ _ _ mem => absurd mem List.not_mem_nil⟩

/-- A new node leaves all others as they were. -/
theorem alloc (grows : arena.GrowsBy since later) (t : Token) (kind : NodeKind) :
    arena.GrowsBy (since ++ [.alloc t kind]) (later.alloc t kind) := by
  constructor
  · intro id node found unlinked
    rw [List.filterMap_append] at unlinked
    have before := fun mem => unlinked (List.mem_append_left _ mem)
    exact getElem?_alloc_of_some (grows.kept id node found before) t kind
  · intro id node statement next found mem
    have before : .link id statement next ∈ since := by simpa using mem
    obtain ⟨empty, filled⟩ := grows.filled id node statement next found before
    exact ⟨empty, getElem?_alloc_of_some filled t kind⟩

/-- Filling in a cell that is still empty leaves all others as they were, those that have been
filled in before included. -/
theorem link (grows : arena.GrowsBy since later) {cell statement next : NodeId}
    (awaits : later.Awaits cell statement next) :
    arena.GrowsBy (since ++ [.link cell statement next]) (later.link cell statement next) := by
  obtain ⟨now, foundNow, empty⟩ := awaits.empty
  constructor
  · intro id node found unlinked
    rw [List.filterMap_append] at unlinked
    have before := fun mem => unlinked (List.mem_append_left _ mem)
    have other : cell ≠ id := fun same =>
      unlinked (List.mem_append_right _ (List.mem_singleton.mpr same.symm))
    rw [getElem?_link_of_ne other]
    exact grows.kept id node found before
  · intro id node statement' next' found mem
    rcases List.mem_append.mp mem with before | last
    · obtain ⟨wasEmpty, filled⟩ := grows.filled id node statement' next' found before
      have other : cell ≠ id := by
        rintro rfl
        exact awaits.ne_filled node statement' next' filled
      rw [getElem?_link_of_ne other]
      exact ⟨wasEmpty, filled⟩
    · cases List.mem_singleton.mp last
      by_cases before : cell ∈ since.filterMap Edit.linked?
      · obtain ⟨statement, next, mem⟩ := mem_linked.mp before
        obtain ⟨-, filled⟩ := grows.filled cell node statement next found mem
        exact absurd filled (awaits.ne_filled node statement next)
      · have same := grows.kept cell node found before
        rw [foundNow] at same
        cases same
        exact ⟨empty, getElem?_link_self foundNow⟩

end Arena.GrowsBy

/-! ## Histories -/

/-- What has happened to an arena: no link loses anything, no cell is filled in twice, and the nodes
of every arena on the way are those of the later ones but for the cells that are filled in. -/
structure EditHistory (edits : List Edit) : Prop where
  links : ∀ before cell statement next after,
    edits = before ++ .link cell statement next :: after →
    (Arena.replay before).Awaits cell statement next
  once : (edits.filterMap Edit.linked?).Nodup
  grows : ∀ earlier since later, edits = earlier ++ since ++ later →
    (Arena.replay earlier).GrowsBy since (Arena.replay (earlier ++ since))

namespace Careful

variable {edits since : List Edit}

theorem grows (careful : Careful (edits ++ since)) :
    (Arena.replay edits).GrowsBy since (Arena.replay (edits ++ since)) := by
  induction since using List.reverseRecOn with
  | nil =>
    rw [List.append_nil]
    exact Arena.GrowsBy.refl
  | append_singleton since change ih =>
    rw [← List.append_assoc] at careful ⊢
    have soFar := ih careful.of_append
    rw [Arena.replay_concat]
    cases change with
    | alloc t kind => exact soFar.alloc t kind
    | link cell statement next => exact soFar.link careful.welcomes

/-- A cell that has been filled in is not empty any more. -/
theorem not_awaits_of_mem (careful : Careful edits) {cell statement next statement' next' : NodeId}
    (mem : .link cell statement next ∈ edits) :
    ¬ (Arena.replay edits).Awaits cell statement' next' := by
  obtain ⟨before, after, rfl⟩ := List.append_of_mem mem
  obtain ⟨node, found, -⟩ := (careful before _ after rfl).empty
  obtain ⟨-, filled⟩ := careful.grows.filled cell node statement next found List.mem_cons_self
  exact fun awaits => awaits.ne_filled node statement next filled

theorem once (careful : Careful edits) : (edits.filterMap Edit.linked?).Nodup := by
  induction edits using List.reverseRecOn with
  | nil => exact List.nodup_nil
  | append_singleton edits change ih =>
    rw [List.filterMap_append]
    cases change with
    | alloc t kind =>
      have unlinked : [Edit.alloc t kind].filterMap Edit.linked? = [] := rfl
      rw [unlinked, List.append_nil]
      exact ih careful.of_append
    | link cell statement next =>
      refine List.nodup_append.mpr ⟨ih careful.of_append, List.nodup_singleton cell, ?_⟩
      rintro other mem linked isLinked rfl
      cases List.mem_singleton.mp isLinked
      obtain ⟨statement', next', mem⟩ := mem_linked.mp mem
      exact careful.of_append.not_awaits_of_mem mem careful.welcomes

theorem history (careful : Careful edits) : EditHistory edits := by
  constructor
  · intro before cell statement next after eq
    exact careful before _ after eq
  · exact careful.once
  · rintro earlier since later rfl
    exact careful.of_append.grows

end Careful

end PipeScript
