import Mathlib.Data.List.Perm.Subperm
import Mathlib.Logic.Relation
import PipeScript.Proofs.AnchorPlaces
import PipeScript.Proofs.ChainWalks

/-!
# Rendering trees that are built by hand

The edits of an arena are not checked, so an arena may hold names without nodes, cells in the place
of expressions, cells with one slot filled, and nodes that are named more than once. The renderers
take them as they come, as long as no node stands below itself (`Tree.Acyclic`): then no path is
longer than there are nodes (`Tree.Acyclic.pathsWithin`), and so neither a chain nor a descent goes
on for ever.

A renderer goes on from a node to those that it visits next (`Tree.DescendsTo`). What it does on the
way comes to an end, and a missing node can stop it (`Visit.Halts`). `Tree.Acyclic.walk_halts` is
the induction over the heights of nodes, for any visitor that visits no others. The outline asks for
nothing that could be missing, and the digraph for the bodies of functions only
(`Tree.render_built`).
-/

namespace PipeScript

/-! ## Arenas that are built -/

namespace Arena

/-- Makes some edits in turn, as long as each names a node that is there. -/
def build? (edits : List Edit) : Option Arena := edits.foldlM edit? empty

/-- Nodes are named by their positions. -/
def Numbered (arena : Arena) : Prop :=
  ∀ (i : NodeId) (node : Node), arena.nodes[i]? = some node → node.id = i

variable {arena after : Arena}

theorem Numbered.edit? (numbered : arena.Numbered) {change : Edit}
    (edited : arena.edit? change = some after) : after.Numbered := by
  rw [Arena.edit?] at edited
  split at edited
  · cases edited
    cases change with
    | alloc token kind =>
      intro i node found
      change (arena.nodes.push _)[i]? = _ at found
      rw [Array.getElem?_push] at found
      split at found
      · rename_i isLast
        cases found
        exact isLast.symm
      · exact numbered i node found
    | link cell statement next =>
      intro i node found
      change (arena.nodes.modify cell _)[i]? = _ at found
      rw [Array.getElem?_modify] at found
      split at found
      · obtain ⟨before, foundBefore, rfl⟩ := Option.map_eq_some_iff.mp found
        exact numbered i before foundBefore
      · exact numbered i node found
  · cases edited

theorem numbered_of_build? {edits : List Edit} (built : build? edits = some arena) :
    arena.Numbered := by
  have numbered : empty.Numbered := fun i node found => nomatch found
  rw [build?] at built
  generalize empty = start at numbered built
  induction edits generalizing start with
  | nil =>
    cases built
    exact numbered
  | cons change edits ih =>
    rw [List.foldlM_cons] at built
    obtain ⟨next, edited, built⟩ := Option.bind_eq_some_iff.mp built
    exact ih next (numbered.edit? edited) built

end Arena

/-! ## Arenas without cycles -/

namespace Tree

/-- No node stands below itself. -/
def Acyclic (tree : Tree) : Prop := ∀ id path, path ≠ [] → tree.follow? id path ≠ some id

/-- Paths from a node on have at most a given length. -/
def PathsWithin (tree : Tree) (height : Nat) (id : NodeId) : Prop :=
  ∀ path other, tree.follow? id path = some other → path.length ≤ height

variable {tree : Tree} {id other : NodeId} {height : Nat} {path : List Nat}

theorem follow?_append (id : NodeId) (path further : List Nat) :
    tree.follow? id (path ++ further) =
      (tree.follow? id path).bind fun other => tree.follow? other further := by
  induction path generalizing id with
  | nil => rfl
  | cons slot path ih =>
    rw [List.cons_append, follow?, follow?, Option.bind_assoc]
    simp only [ih]

/-- Without cycles, a path visits as many nodes as it is long. -/
theorem Acyclic.exists_visited (acyclic : tree.Acyclic)
    (leads : tree.follow? id path = some other) :
    ∃ visited : List NodeId, visited.length = path.length ∧ visited.Nodup ∧
      ∀ stop ∈ visited, stop < tree.size ∧ ∃ start, tree.follow? id start = some stop := by
  induction path generalizing id with
  | nil => exact ⟨[], rfl, List.nodup_nil, nofun⟩
  | cons slot path ih =>
    obtain ⟨child, named, leads⟩ := Option.bind_eq_some_iff.mp leads
    obtain ⟨visited, length, nodup, each⟩ := ih leads
    have below {stop : NodeId} {start : List Nat} (toStop : tree.follow? child start = some stop) :
        tree.follow? id (slot :: start) = some stop := by
      rw [follow?, named]
      exact toStop
    refine ⟨id :: visited, congrArg Nat.succ length, List.nodup_cons.mpr ⟨?_, nodup⟩,
      List.forall_mem_cons.mpr ⟨⟨?_, [], rfl⟩, ?_⟩⟩
    · intro again
      obtain ⟨-, start, back⟩ := each id again
      exact acyclic id (slot :: start) (List.cons_ne_nil _ _) (below back)
    · obtain ⟨node, found, -⟩ := child?_eq_some.mp named
      exact (Array.getElem?_eq_some_iff.mp found).1
    · intro stop mem
      obtain ⟨bound, start, toStop⟩ := each stop mem
      exact ⟨bound, slot :: start, below toStop⟩

/-- Without cycles, no path is longer than there are nodes. -/
theorem Acyclic.pathsWithin (acyclic : tree.Acyclic) (id : NodeId) :
    tree.PathsWithin tree.size id := by
  intro path other leads
  obtain ⟨visited, length, nodup, each⟩ := acyclic.exists_visited leads
  have inRange : visited ⊆ List.range tree.size :=
    fun stop mem => List.mem_range.mpr (each stop mem).1
  have fits := (List.subperm_of_subset nodup inRange).length_le
  rw [length, List.length_range] at fits
  exact fits

/-- What is below a node is lower. -/
theorem PathsWithin.below (within : tree.PathsWithin height id) (moves : path ≠ [])
    (leads : tree.follow? id path = some other) :
    ∃ lower, height = lower + 1 ∧ tree.PathsWithin lower other := by
  have positive := List.length_pos_iff.mpr moves
  have fits := within path other leads
  refine ⟨height - 1, by omega, fun further last leadsOn => ?_⟩
  have whole : tree.follow? id (path ++ further) = some last := by
    rw [follow?_append, leads]
    exact leadsOn
  have fitsWhole := within _ last whole
  rw [List.length_append] at fitsWhole
  omega

end Tree

/-! ## Chains that end -/

namespace NodeKind

/-- The item of a cell of a statement list, and the next cell, if there is a statement. -/
def statementLink? : NodeKind → Option (NodeId × Option NodeId)
  | statementCell (some statement) next => some (statement, next)
  | _ => none

/-- The item of a cell of an argument list, and the next cell. -/
def argumentLink? : NodeKind → Option (NodeId × Option NodeId)
  | argumentCell argument next => some (argument, next)
  | _ => none

end NodeKind

namespace Tree

variable {tree : Tree} {link? : NodeKind → Option (NodeId × Option NodeId)}
  {step : Cursor → Option NodeId × Cursor} {cursor next : Cursor} {id item : NodeId}

/-- An item stands in the chain that starts at a slot: in its first cell, or behind it. -/
inductive InChain (tree : Tree) (link? : NodeKind → Option (NodeId × Option NodeId)) :
    Option NodeId → NodeId → Prop
  | here {id item : NodeId} {next : Option NodeId} :
    (tree.kind? id).bind link? = some (item, next) → InChain tree link? (some id) item
  | later {id item other : NodeId} {next : Option NodeId} :
    (tree.kind? id).bind link? = some (item, next) → InChain tree link? next other →
    InChain tree link? (some id) other

/-- A link is what is in the slots of a cell. -/
def LinksSlots (link? : NodeKind → Option (NodeId × Option NodeId)) : Prop :=
  ∀ kind item next, link? kind = some (item, next) → kind.slots = [some item, next]

/-- A reader takes one link of a chain after the other. -/
structure ReadsLinks (tree : Tree) (link? : NodeKind → Option (NodeId × Option NodeId))
    (step : Cursor → Option NodeId × Cursor) : Prop where
  slots : LinksSlots link?
  item : ∀ id item next, (tree.kind? id).bind link? = some (item, next) →
    step (some id) = (some item, next)
  nothing : ∀ cursor, (cursor.bind fun id => (tree.kind? id).bind link?) = none →
    (step cursor).1 = none

theorem readsLinks_statements (tree : Tree) :
    tree.ReadsLinks NodeKind.statementLink? tree.nextStatement := by
  have there (id : NodeId) : (tree.get? (some id)).map Node.kind = tree.kind? id := rfl
  constructor
  case slots =>
    rintro (_ | _ | _ | _ | _ | _ | _ | ⟨_ | _, _⟩) item next link <;> cases link
    rfl
  case item =>
    intro id item next link
    obtain ⟨kind, kindAt, link⟩ := Option.bind_eq_some_iff.mp link
    rw [nextStatement, there, kindAt]
    rcases kind with _ | _ | _ | _ | _ | _ | _ | ⟨_ | _, _⟩ <;> cases link
    rfl
  case nothing =>
    intro cursor noLink
    cases cursor with
    | none => rfl
    | some id =>
      rw [Option.bind_some] at noLink
      rw [nextStatement, there]
      cases kindAt : tree.kind? id with
      | none => rfl
      | some kind =>
        rw [kindAt, Option.bind_some] at noLink
        rcases kind with _ | _ | _ | _ | _ | _ | _ | ⟨_ | _, _⟩ <;> first | rfl | cases noLink

theorem readsLinks_arguments (tree : Tree) :
    tree.ReadsLinks NodeKind.argumentLink? tree.nextArgument := by
  have there (id : NodeId) : (tree.get? (some id)).map Node.kind = tree.kind? id := rfl
  constructor
  case slots =>
    intro kind item next link
    cases kind <;> cases link
    rfl
  case item =>
    intro id item next link
    obtain ⟨kind, kindAt, link⟩ := Option.bind_eq_some_iff.mp link
    rw [nextArgument, there, kindAt]
    cases kind <;> cases link
    rfl
  case nothing =>
    intro cursor noLink
    cases cursor with
    | none => rfl
    | some id =>
      rw [Option.bind_some] at noLink
      rw [nextArgument, there]
      cases kindAt : tree.kind? id with
      | none => rfl
      | some kind =>
        rw [kindAt, Option.bind_some] at noLink
        cases kind <;> first | rfl | cases noLink

theorem child?_of_link (slots : LinksSlots link?)
    (link : (tree.kind? id).bind link? = some (item, next)) :
    tree.child? id 0 = some item ∧ tree.child? id 1 = next := by
  obtain ⟨kind, kindAt, link⟩ := Option.bind_eq_some_iff.mp link
  obtain ⟨node, found, rfl⟩ := kind?_eq_some.mp kindAt
  rw [child?, child?, found, Option.bind_some, Option.bind_some, slots _ _ _ link]
  exact ⟨rfl, by cases next <;> rfl⟩

/-- The items of a chain stand below its first cell. -/
theorem InChain.exists_path (slots : LinksSlots link?) (inChain : tree.InChain link? cursor item) :
    ∃ id path, cursor = some id ∧ path ≠ [] ∧ tree.follow? id path = some item := by
  induction inChain with
  | here link =>
    refine ⟨_, [0], rfl, List.cons_ne_nil _ _, ?_⟩
    rw [follow?, (child?_of_link slots link).1]
    rfl
  | later link _ ih =>
    obtain ⟨second, path, rfl, -, leads⟩ := ih
    refine ⟨_, 1 :: path, rfl, List.cons_ne_nil _ _, ?_⟩
    rw [follow?, (child?_of_link slots link).2]
    exact leads

/-- Where there is no link there is no chain. -/
theorem not_inChain (noLink : (cursor.bind fun id => (tree.kind? id).bind link?) = none) :
    ¬ tree.InChain link? cursor item := by
  rintro (link | ⟨link, -⟩)
  all_goals
    rw [Option.bind_some, link] at noLink
    cases noLink

theorem inChain_of_link (link : (tree.kind? id).bind link? = some (item, next)) {other : NodeId} :
    tree.InChain link? (some id) other ↔ other = item ∨ tree.InChain link? next other := by
  constructor
  · rintro (again | ⟨again, rest⟩)
    all_goals
      rw [link] at again
      cases again
    · exact Or.inl rfl
    · exact Or.inr rest
  · rintro (rfl | rest)
    · exact .here link
    · exact .later link rest

/-- A reader of a chain that starts at a given height comes to its end. -/
theorem ReadsLinks.exists_items (reads : tree.ReadsLinks link? step) {height : Nat}
    (within : ∀ id, cursor = some id → tree.PathsWithin height id) (found : List NodeId) :
    ∃ items, collect step found (height + 1) cursor = .ok (found.reverse ++ items) ∧
      ∀ item, item ∈ items ↔ tree.InChain link? cursor item := by
  induction height using Nat.strongRecOn generalizing cursor found with
  | ind height ih =>
    cases linked : cursor.bind fun id => (tree.kind? id).bind link? with
    | none =>
      refine ⟨[], ?_, fun item => ⟨nofun, fun inChain => absurd inChain (not_inChain linked)⟩⟩
      rw [List.append_nil]
      exact collect_of_none (Prod.ext (reads.nothing cursor linked) rfl) found height
    | some taken =>
      obtain ⟨item, next⟩ := taken
      obtain ⟨id, rfl, link⟩ := Option.bind_eq_some_iff.mp linked
      obtain ⟨first, second⟩ := child?_of_link reads.slots link
      have single {slot : Nat} {child : NodeId} (named : tree.child? id slot = some child) :
          tree.follow? id [slot] = some child := by
        rw [follow?, named]
        rfl
      obtain ⟨lower, rfl, -⟩ := (within id rfl).below (List.cons_ne_nil 0 []) (single first)
      have withinNext (other : NodeId) (isNext : next = some other) :
          tree.PathsWithin lower other := by
        obtain ⟨_, same, lowerOther⟩ :=
          (within id rfl).below (List.cons_ne_nil 1 []) (single (second.trans isNext))
        cases same
        exact lowerOther
      obtain ⟨items, read, exactly⟩ :=
        ih lower (Nat.lt_succ_self lower) withinNext (item :: found)
      refine ⟨item :: items, ?_, fun other => ?_⟩
      · rw [collect_of_some (reads.item id item next link), read, List.reverse_cons,
          List.append_assoc]
        rfl
      · rw [List.mem_cons, inChain_of_link link, exactly]

/-- Without cycles, a reading of a chain gives its items. -/
theorem Acyclic.exists_items (acyclic : tree.Acyclic) (reads : tree.ReadsLinks link? step)
    (cursor : Cursor) :
    ∃ items, collect step [] (tree.size + 1) cursor = .ok items ∧
      ∀ item, item ∈ items ↔ tree.InChain link? cursor item :=
  reads.exists_items (fun id _ => acyclic.pathsWithin id) []

end Tree

/-! ## Visits that end -/

/-- A visit comes to an end. It is stopped by a node that is missing if there are nodes of a certain
sort that are, and otherwise it goes well. -/
def Visit.Halts {σ : Type} (visit : Visit σ) (lacks : NodeId → Prop) : Prop :=
  ∀ state, (∃ id, lacks id ∧ visit state = .error (.missing id)) ∨
    (∀ id, ¬ lacks id) ∧ ∃ after, visit state = .ok after

namespace Visit.Halts

variable {σ : Type} {visit : Visit σ} {lacks lacksToo : NodeId → Prop}

theorem nothing (complete : ∀ id, ¬ lacks id) : Visit.Halts (σ := σ) .ok lacks :=
  fun state => Or.inr ⟨complete, state, rfl⟩

theorem congr (halts : Visit.Halts visit lacks) (same : ∀ id, lacks id ↔ lacksToo id) :
    Visit.Halts visit lacksToo := by
  rw [← funext fun id => propext (same id)]
  exact halts

/-- What is done before a visit does not matter, if it goes well. -/
theorem behind (halts : Visit.Halts visit lacks) (before : σ → σ) :
    Visit.Halts (fun state => visit (before state)) lacks :=
  fun state => halts (before state)

/-- Nor does what is done after it. -/
theorem before (halts : Visit.Halts visit lacks) (behind : σ → σ) :
    Visit.Halts (fun state => visit state >>= fun after => .ok (behind after)) lacks := by
  intro state
  rcases halts state with ⟨id, isLacking, fails⟩ | ⟨complete, after, goes⟩
  · exact Or.inl ⟨id, isLacking, congrArg (· >>= _) fails⟩
  · exact Or.inr ⟨complete, behind after, congrArg (· >>= _) goes⟩

theorem andThen {second : Visit σ} (halts : Visit.Halts visit lacks)
    (haltsToo : Visit.Halts second lacksToo) :
    Visit.Halts (visit >=> second) fun id => lacks id ∨ lacksToo id := by
  intro state
  rcases halts state with ⟨id, isLacking, fails⟩ | ⟨complete, after, goes⟩
  · exact Or.inl ⟨id, Or.inl isLacking, congrArg (· >>= second) fails⟩
  · have run : (visit >=> second) state = second after := congrArg (· >>= second) goes
    rw [run]
    rcases haltsToo after with ⟨id, isLacking, fails⟩ | ⟨completeToo, last, goesOn⟩
    · exact Or.inl ⟨id, Or.inr isLacking, fails⟩
    · exact Or.inr ⟨fun id => not_or.mpr ⟨complete id, completeToo id⟩, last, goesOn⟩

/-- Some visits in turn lack what one of them lacks. -/
theorem foldlM {α : Type} {items : List α} {visit : σ → α → Except Fault σ}
    {lacks : α → NodeId → Prop}
    (each : ∀ item ∈ items, Visit.Halts (fun state => visit state item) (lacks item)) :
    Visit.Halts (fun state => items.foldlM visit state) fun id =>
      ∃ item ∈ items, lacks item id := by
  induction items with
  | nil => exact nothing fun id => nofun
  | cons item items ih =>
    obtain ⟨first, others⟩ := List.forall_mem_cons.mp each
    have run : (fun state => (item :: items).foldlM visit state) =
        ((fun state => visit state item) >=> fun state => items.foldlM visit state) :=
      funext fun state => List.foldlM_cons
    rw [run]
    refine (first.andThen (ih others)).congr fun id => ?_
    exact (List.exists_mem_cons_iff (fun item => lacks item id) item items).symm

end Visit.Halts

/-! ## Walks that end -/

namespace Tree

variable {tree : Tree} {id child : NodeId} {kind : NodeKind}

/-- A renderer goes on from a node of some kind to another one: an operand, a body, a callee, an
argument, an initializer, or a statement. Arguments are taken up to the first name that is no
argument cell, and statements up to the first cell without a statement. -/
def LeadsTo (tree : Tree) (id : NodeId) : NodeKind → NodeId → Prop
  | .binary left right, child => child = left ∨ child = right
  | .function body, child => child = body
  | .call callee arguments, child =>
    child = callee ∨ tree.InChain NodeKind.argumentLink? arguments child
  | .definition initializer, child => child = initializer
  | .statementCell _ _, child => tree.InChain NodeKind.statementLink? (some id) child
  | .constant, _ | .reference, _ | .argumentCell _ _, _ => False

/-- A renderer goes on from a node to another one. -/
def DescendsTo (tree : Tree) (id child : NodeId) : Prop :=
  ∃ kind, tree.kind? id = some kind ∧ tree.LeadsTo id kind child

theorem descendsTo_iff (kindAt : tree.kind? id = some kind) :
    tree.DescendsTo id child ↔ tree.LeadsTo id kind child := by
  constructor
  · rintro ⟨_, kindToo, leads⟩
    cases kindAt.symm.trans kindToo
    exact leads
  · exact fun leads => ⟨kind, kindAt, leads⟩

/-- What a renderer goes on to stands below. -/
theorem DescendsTo.exists_path (descends : tree.DescendsTo id child) :
    ∃ path, path ≠ [] ∧ tree.follow? id path = some child := by
  obtain ⟨kind, kindAt, leads⟩ := descends
  obtain ⟨node, found, rfl⟩ := kind?_eq_some.mp kindAt
  have named {slot : Nat} {entry : NodeId} (inSlot : node.kind.slots[slot]? = some (some entry)) :
      tree.child? id slot = some entry := child?_eq_some.mpr ⟨node, found, inSlot⟩
  have single (slot : Nat) (inSlot : node.kind.slots[slot]? = some (some child)) :
      ∃ path, path ≠ [] ∧ tree.follow? id path = some child := by
    refine ⟨[slot], List.cons_ne_nil _ _, ?_⟩
    rw [follow?, named inSlot]
    rfl
  cases kind : node.kind with
  | binary left right =>
    rw [kind] at leads
    rcases leads with rfl | rfl
    · exact single 0 (by rw [kind]; rfl)
    · exact single 1 (by rw [kind]; rfl)
  | function body | definition initializer =>
    rw [kind] at leads
    cases leads
    exact single 0 (by rw [kind]; rfl)
  | call callee arguments =>
    rw [kind] at leads
    rcases leads with rfl | inChain
    · exact single 0 (by rw [kind]; rfl)
    · obtain ⟨first, path, rfl, -, toChild⟩ :=
        inChain.exists_path (readsLinks_arguments tree).slots
      refine ⟨1 :: path, List.cons_ne_nil _ _, ?_⟩
      rw [follow?, named (by rw [kind]; rfl)]
      exact toChild
  | statementCell statement next =>
    rw [kind] at leads
    obtain ⟨first, path, same, moves, toChild⟩ :=
      InChain.exists_path (readsLinks_statements tree).slots leads
    cases same
    exact ⟨path, moves, toChild⟩
  | constant | reference | argumentCell argument next =>
    rw [kind] at leads
    exact leads.elim

/-- What a visitor does at a node ends if what it does at the nodes that it goes on to ends. -/
def HaltsAt {σ : Type} (tree : Tree) (lacks : NodeId → NodeId → Prop)
    (visitor : (Option NodeId → Visit σ) → Visitor σ) (id : NodeId) : Prop :=
  ∀ node, tree.node? id = some node → ∀ visit : Option NodeId → Visit σ,
    (∀ child, tree.LeadsTo id node.kind child → Visit.Halts (visit (some child)) (lacks child)) →
    Visit.Halts (fun state => (visitor visit).onNode node state >>= (visitor visit).onKind node)
      (lacks id)

/-- Without cycles, a walk ends if what is done at every node does. -/
theorem Acyclic.walk_halts {σ : Type} {visitor : (Option NodeId → Visit σ) → Visitor σ}
    {lacks : NodeId → NodeId → Prop} (acyclic : tree.Acyclic)
    (dangling : ∀ id, tree.node? id = none → ∀ missing, ¬ lacks id missing)
    (each : ∀ id, tree.HaltsAt lacks visitor id) (id : NodeId) :
    Visit.Halts (tree.walk visitor (some id)) (lacks id) := by
  -- The depth of a walk lasts as long as it is above the height of the node.
  have halts (height : Nat) (id : NodeId) (within : tree.PathsWithin height id) :
      Visit.Halts (tree.walkTo visitor (height + 1) (some id)) (lacks id) := by
    induction height using Nat.strongRecOn generalizing id with
    | ind height ih =>
      rw [walkTo, dispatch, get?, Option.bind_some]
      cases found : tree.node? id with
      | none => exact .nothing (dangling id found)
      | some node =>
        refine each id node found _ fun child leads => ?_
        have descends : tree.DescendsTo id child := ⟨_, kind?_eq_some.mpr ⟨node, found, rfl⟩, leads⟩
        obtain ⟨path, moves, toChild⟩ := descends.exists_path
        obtain ⟨lower, rfl, lowerChild⟩ := within.below moves toChild
        exact ih lower (Nat.lt_succ_self lower) child lowerChild
  exact halts tree.size id (acyclic.pathsWithin id)

end Tree

/-! ## The outline -/

namespace Visit.Halts

variable {σ : Type} {visit : Option NodeId → Visit σ} {lacks : NodeId → NodeId → Prop}

/-- Some nodes are visited in turn. -/
theorem visitAll {ids : List NodeId}
    (each : ∀ id ∈ ids, Visit.Halts (visit (some id)) (lacks id)) :
    Visit.Halts (PipeScript.visitAll visit (ids.map some)) fun missing =>
      ∃ id ∈ ids, lacks id missing := by
  have run : PipeScript.visitAll visit (ids.map some) =
      fun state => ids.foldlM (fun state id => visit (some id) state) state :=
    funext fun state => List.foldlM_map
  rw [run]
  exact foldlM each

end Visit.Halts

namespace Tree

variable {tree : Tree} {id : NodeId} {node : Node}

/-- The children of a node are visited in turn. -/
theorem halts_visitAll {σ : Type} {visit : Option NodeId → Visit σ} {lacks : NodeId → NodeId → Prop}
    {kind : NodeKind} {ids : List NodeId}
    (exactly : ∀ child, child ∈ ids ↔ tree.LeadsTo id kind child)
    (below : ∀ child, tree.LeadsTo id kind child → Visit.Halts (visit (some child)) (lacks child)) :
    Visit.Halts (visitAll visit (ids.map some)) fun missing =>
      ∃ child, tree.LeadsTo id kind child ∧ lacks child missing := by
  refine (Visit.Halts.visitAll fun child mem => below child ((exactly child).mp mem)).congr ?_
  intro missing
  simp only [exactly]

/-- The statements from a cell on, as a list. -/
theorem Acyclic.exists_statements (acyclic : tree.Acyclic) (id : NodeId)
    (statement next : Option NodeId) :
    ∃ ids, tree.statements id = .ok ids ∧
      ∀ child, child ∈ ids ↔ tree.LeadsTo id (.statementCell statement next) child :=
  acyclic.exists_items (readsLinks_statements tree) (some id)

/-- The arguments of a call, as a list behind the callee. -/
theorem Acyclic.exists_arguments (acyclic : tree.Acyclic) (id callee : NodeId)
    (arguments : Option NodeId) :
    ∃ ids, tree.arguments arguments = .ok ids ∧
      ∀ child, child ∈ callee :: ids ↔ tree.LeadsTo id (.call callee arguments) child := by
  obtain ⟨ids, read, exactly⟩ := acyclic.exists_items (readsLinks_arguments tree) arguments
  refine ⟨ids, read, fun child => ?_⟩
  rw [List.mem_cons, exactly]
  exact Iff.rfl

end Tree

namespace Outline

variable {tree : Tree}

theorem halts_nested {visit : Option NodeId → Visit Outline} {slots : List (Option NodeId)}
    {lacks : NodeId → Prop} (halts : Visit.Halts (visitAll visit slots) lacks) :
    Visit.Halts (nested visit slots) lacks :=
  (halts.behind fun printer => { printer with depth := printer.depth + 1 }).before
    fun printer => { printer with depth := printer.depth - 1 }

/-- The outline asks for nothing that could be missing. -/
theorem haltsAt (acyclic : tree.Acyclic) (numbered : tree.Numbered) (id : NodeId) :
    tree.HaltsAt (fun _ _ => False) (visitor tree) id := by
  intro node found visit below
  change Visit.Halts ((visitor tree visit).onKind node) _
  have visits (ids : List NodeId)
      (exactly : ∀ child, child ∈ ids ↔ tree.LeadsTo id node.kind child) :
      Visit.Halts (visitAll visit (ids.map some)) fun _ => False :=
    (Tree.halts_visitAll exactly below).congr fun _ => by simp
  rw [Visitor.onKind]
  cases kind : node.kind with
  | constant | reference =>
    rw [kind] at visits
    exact (visits [] fun _ => List.mem_nil_iff _).behind _
  | argumentCell argument next =>
    rw [kind] at visits
    exact visits [] fun _ => List.mem_nil_iff _
  | binary left right =>
    rw [kind] at visits
    exact (halts_nested (visits [left, right] fun _ => List.mem_pair)).behind _
  | function child | definition child =>
    rw [kind] at visits
    exact (halts_nested (visits [child] fun _ => List.mem_singleton)).behind _
  | call callee arguments =>
    obtain ⟨ids, read, exactly⟩ := acyclic.exists_arguments id callee arguments
    rw [kind] at visits
    simp only [visitor, read]
    exact (halts_nested (visits (callee :: ids) exactly)).behind _
  | statementCell statement next =>
    obtain ⟨ids, read, exactly⟩ := acyclic.exists_statements id statement next
    rw [kind] at visits
    simp only [visitor, numbered id node found, read]
    exact visits ids exactly

end Outline

/-! ## The digraph -/

namespace Tree

variable {tree : Tree} {id body : NodeId} {kind : NodeKind}

/-- A walk from a node on comes to a function whose body is not there. -/
def LacksBody (tree : Tree) (id body : NodeId) : Prop :=
  ∃ other, Relation.ReflTransGen tree.DescendsTo id other ∧
    tree.kind? other = some (.function body) ∧ tree.size ≤ body

theorem lacksBody_iff (tree : Tree) (id body : NodeId) :
    tree.LacksBody id body ↔ (tree.kind? id = some (.function body) ∧ tree.size ≤ body) ∨
      ∃ child, tree.DescendsTo id child ∧ tree.LacksBody child body := by
  constructor
  · rintro ⟨other, reaches, function⟩
    rcases reaches.cases_head with rfl | ⟨child, descends, reaches⟩
    · exact Or.inl function
    · exact Or.inr ⟨child, descends, other, reaches, function⟩
  · rintro (function | ⟨child, descends, other, reaches, function⟩)
    · exact ⟨id, .refl, function⟩
    · exact ⟨other, reaches.head descends, function⟩

theorem not_lacksBody (noNode : tree.node? id = none) : ¬ tree.LacksBody id body := by
  have noKind (kind : NodeKind) : tree.kind? id ≠ some kind := by
    intro kindAt
    obtain ⟨node, found, -⟩ := kind?_eq_some.mp kindAt
    cases noNode.symm.trans found
  rw [lacksBody_iff]
  rintro (⟨kindAt, -⟩ | ⟨child, ⟨kind, kindAt, -⟩, -⟩)
  all_goals exact noKind _ kindAt

/-- Only functions ask for their bodies. -/
theorem lacksBody_iff_below (kindAt : tree.kind? id = some kind)
    (noBody : ∀ body, kind = .function body → body < tree.size) :
    tree.LacksBody id body ↔ ∃ child, tree.LeadsTo id kind child ∧ tree.LacksBody child body := by
  rw [lacksBody_iff, or_iff_right]
  · simp only [descendsTo_iff kindAt]
  · rintro ⟨function, outside⟩
    cases kindAt.symm.trans function
    exact absurd (noBody body rfl) (Nat.not_lt.mpr outside)

/-- A chain has come to its end when fewer links are found than looked for. -/
theorem endsWithin_of_length_lt {limit : Nat} {start : Option Node}
    (fewer : (tree.links limit start).length < limit) : tree.endsWithin limit start := by
  induction limit generalizing start with
  | zero => cases fewer
  | succ limit ih =>
    cases start with
    | none => rfl
    | some cell =>
      cases link : tree.chainLink? cell with
      | none => exact endsWithin_of_no_link link limit
      | some found =>
        rw [links_of_link link, List.length_cons] at fewer
        rw [endsWithin_of_link link]
        exact ih (Nat.lt_of_succ_lt_succ fewer)

/-- A reading that ends finds all links of a chain. -/
theorem links_of_statements {node : Node} {ids : List NodeId} (found : tree.node? id = some node)
    (read : tree.statements id = .ok ids) :
    (tree.links (tree.size + 1) (some node)).map ChainLink.statement = ids ∧
      tree.endsWithin (tree.size + 1) (some node) := by
  have same := tree.map_statement_links (tree.size + 1) (some id)
  rw [get?, Option.bind_some, found] at same
  rw [statements, collect_eq, ← same, List.length_map] at read
  split at read
  · rename_i fewer
    exact ⟨Except.ok.inj read, endsWithin_of_length_lt fewer⟩
  · cases read

end Tree

namespace Digraph

variable {tree : Tree} {id : NodeId} {node : Node} {ids : List NodeId}
  {visit : Option NodeId → Visit Digraph} {lacks : NodeId → NodeId → Prop}

/-- A list of statements is drawn with what is below its statements. -/
theorem halts_drawChain (found : tree.node? id = some node) (read : tree.statements id = .ok ids)
    (below : ∀ child ∈ ids, Visit.Halts (visit (some child)) (lacks child)) :
    Visit.Halts (drawChain tree visit (tree.size + 1) node) fun missing =>
      ∃ child ∈ ids, lacks child missing := by
  obtain ⟨rfl, ends⟩ := Tree.links_of_statements found read
  have run : drawChain tree visit (tree.size + 1) node =
      fun graph => (tree.links (tree.size + 1) (some node)).foldlM (drawLink visit) graph := by
    funext graph
    simp only [drawChain_eq_links, ends, if_true]
    exact bind_pure _
  rw [run]
  have each (link : ChainLink) (mem : link ∈ tree.links (tree.size + 1) (some node)) :
      Visit.Halts (fun graph => drawLink visit graph link) (lacks link.statement) :=
    (below _ (List.mem_map_of_mem mem)).behind fun graph =>
      graph.drawCell link.cell link.statement link.next
  refine (Visit.Halts.foldlM each).congr fun missing => ?_
  simp only [List.mem_map, exists_exists_and_eq_and]

/-- The digraph asks for the bodies of functions, and for nothing else that could be missing. -/
theorem haltsAt (acyclic : tree.Acyclic) (id : NodeId) :
    tree.HaltsAt tree.LacksBody (visitor tree) id := by
  intro node found visit below
  change Visit.Halts ((visitor tree visit).onKind node) _
  have kindAt : tree.kind? id = some node.kind := Tree.kind?_eq_some.mpr ⟨node, found, rfl⟩
  have visits (noBody : ∀ body, node.kind = .function body → body < tree.size) (ids : List NodeId)
      (exactly : ∀ child, child ∈ ids ↔ tree.LeadsTo id node.kind child) :
      Visit.Halts (visitAll visit (ids.map some)) (tree.LacksBody id) :=
    (Tree.halts_visitAll exactly below).congr fun _ =>
      (Tree.lacksBody_iff_below kindAt noBody).symm
  rw [Visitor.onKind]
  cases kind : node.kind with
  | constant | reference =>
    rw [kind] at visits
    exact (visits (by simp) [] fun _ => List.mem_nil_iff _).behind _
  | argumentCell argument next =>
    rw [kind] at visits
    exact visits (by simp) [] fun _ => List.mem_nil_iff _
  | binary left right =>
    rw [kind] at visits
    exact (visits (by simp) [left, right] fun _ => List.mem_pair).behind _
  | definition initializer =>
    rw [kind] at visits
    have visited := visits (by simp) [initializer] fun _ => List.mem_singleton
    rw [List.map_singleton, visitAll_singleton] at visited
    exact visited.behind _
  | function body =>
    simp only [visitor]
    cases there : tree.node? body with
    | none =>
      have outside : tree.size ≤ body := Array.getElem?_eq_none_iff.mp there
      rw [kind] at kindAt
      exact fun graph => Or.inl ⟨body, ⟨id, .refl, kindAt, outside⟩, rfl⟩
    | some found =>
      have inside : body < tree.size := (Array.getElem?_eq_some_iff.mp there).1
      rw [kind] at visits
      have visited := visits (fun other same => by cases same; exact inside) [body]
        fun _ => List.mem_singleton
      rw [List.map_singleton, visitAll_singleton] at visited
      exact visited.behind _
  | call callee arguments =>
    obtain ⟨ids, read, exactly⟩ := acyclic.exists_arguments id callee arguments
    rw [kind] at visits
    simp only [visitor, read]
    exact (visits (by simp) (callee :: ids) exactly).behind _
  | statementCell statement next =>
    obtain ⟨ids, read, exactly⟩ := acyclic.exists_statements id statement next
    rw [kind] at below kindAt
    have drawn := halts_drawChain found read fun child mem => below child ((exactly child).mp mem)
    refine drawn.congr fun body => ?_
    rw [Tree.lacksBody_iff_below kindAt (by simp)]
    simp only [exactly]

end Digraph

/-! ## Both renderers -/

namespace Tree

variable {tree : Tree} {arena : Arena} {edits : List Edit}

/-- Rendering a tree that is built by hand comes to an end. The outline is always shown. The digraph
is not shown if and only if the walk comes to a function whose body is not there, and then it is
such a body that is missing. -/
theorem render_built (built : Arena.build? edits = some arena) (root : NodeId)
    (acyclic : Acyclic ⟨arena, root⟩) :
    (∀ printer : Outline, ∃ shown, printer.render ⟨arena, root⟩ = .ok shown) ∧
      ∀ graph : Digraph,
        (∀ fault, graph.render ⟨arena, root⟩ = .error fault →
          ∃ body, fault = .missing body ∧ LacksBody ⟨arena, root⟩ root body) ∧
        ((∃ fault, graph.render ⟨arena, root⟩ = .error fault) ↔
          ∃ body, LacksBody ⟨arena, root⟩ root body) := by
  constructor
  · intro printer
    have halts := acyclic.walk_halts (fun _ _ _ => not_false)
      (Outline.haltsAt acyclic (Arena.numbered_of_build? built)) root
    rcases halts { printer with lines := #[], depth := 0 } with ⟨-, stopped, -⟩ | ⟨-, printed, goes⟩
    · exact stopped.elim
    · rw [Outline.render, goes]
      exact ⟨_, rfl⟩
  · intro graph
    have halts := acyclic.walk_halts (fun id noNode body => not_lacksBody noNode)
      (Digraph.haltsAt acyclic) root
    rcases halts { graph with items := #[] } with ⟨body, lacking, fails⟩ | ⟨complete, drawn, goes⟩
    · have stops : graph.render ⟨arena, root⟩ = .error (.missing body) := by
        rw [Digraph.render, fails]
        rfl
      rw [stops]
      refine ⟨fun fault same => ?_, fun _ => ⟨body, lacking⟩, fun _ => ⟨_, rfl⟩⟩
      cases same
      exact ⟨body, rfl, lacking⟩
    · have shows : graph.render ⟨arena, root⟩ = .ok (drawn.text, { drawn with items := #[] }) := by
        rw [Digraph.render, goes]
        rfl
      rw [shows]
      constructor
      · intro fault fails
        cases fails
      · constructor
        · rintro ⟨fault, fails⟩
          cases fails
        · rintro ⟨body, lacking⟩
          exact absurd lacking (complete body)

/-- Where every child is younger than its parent, no node stands below itself. -/
theorem acyclic_of_lt (numbered : tree.Numbered)
    (younger : ∀ node ∈ tree.nodes.toList, ∀ slot ∈ node.kind.slots, ∀ child ∈ slot,
      node.id < child) :
    tree.Acyclic := by
  have step (id : NodeId) (slot : Nat) (child : NodeId) (named : tree.child? id slot = some child) :
      id < child := by
    obtain ⟨node, found, entry⟩ := child?_eq_some.mp named
    rw [← numbered id node found]
    exact younger node (Array.mem_toList_iff.mpr (Array.mem_of_getElem? found)) _
      (List.mem_of_getElem? entry) child rfl
  have behind (path : List Nat) (id other : NodeId) (leads : tree.follow? id path = some other) :
      id ≤ other ∧ (path ≠ [] → id < other) := by
    induction path generalizing id with
    | nil =>
      cases leads
      exact ⟨Nat.le_refl _, absurd rfl⟩
    | cons slot path ih =>
      obtain ⟨child, named, leads⟩ := Option.bind_eq_some_iff.mp leads
      have after := Nat.lt_of_lt_of_le (step id slot child named) (ih child leads).1
      exact ⟨Nat.le_of_lt after, fun _ => after⟩
  exact fun id path moves leads => Nat.lt_irrefl id ((behind path id id leads).2 moves)

/-- A chain of two cells, of which the second one is followed by a name. The first statement calls
an operator whose operands are one node, with a name for its arguments. The second is a function
whose body is not there. -/
def misbuilt : List Edit :=
  let token := Token.endAt .origin
  [.alloc token .sentinel, .alloc token .sentinel, .alloc token (.call 4 (some 5)),
    .alloc token (.function 9), .alloc token (.binary 5 5), .alloc token .reference,
    .link 0 2 1, .link 1 3 5]

theorem misbuilt_render : ∃ arena, Arena.build? misbuilt = some arena ∧ Acyclic ⟨arena, 0⟩ ∧
    (∀ printer : Outline, ∃ shown, printer.render ⟨arena, 0⟩ = .ok shown) ∧
      ∀ graph : Digraph, ∃ fault, graph.render ⟨arena, 0⟩ = .error fault := by
  have built : Arena.build? misbuilt = some (.replay misbuilt) := by decide
  have acyclic : Acyclic ⟨.replay misbuilt, 0⟩ :=
    acyclic_of_lt (Arena.numbered_of_build? built) (by decide)
  have first : (kind? ⟨.replay misbuilt, 0⟩ 0).bind NodeKind.statementLink? =
      some (2, some 1) := by decide
  have second : (kind? ⟨.replay misbuilt, 0⟩ 1).bind NodeKind.statementLink? =
      some (3, some 5) := by decide
  have descends : DescendsTo ⟨.replay misbuilt, 0⟩ 0 3 :=
    ⟨.statementCell (some 2) (some 1), by decide, .later first (.here second)⟩
  have lacking : LacksBody ⟨.replay misbuilt, 0⟩ 0 9 :=
    ⟨3, .single descends, by decide, by decide⟩
  obtain ⟨outline, digraph⟩ := render_built built 0 acyclic
  exact ⟨_, built, acyclic, outline, fun graph => (digraph graph).2.mpr ⟨9, lacking⟩⟩

end Tree

end PipeScript
