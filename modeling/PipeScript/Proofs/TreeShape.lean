import Mathlib.Data.List.Forall2
import Mathlib.Data.List.Induction
import Mathlib.Data.List.Nodup
import Mathlib.Data.List.Perm.Basic
import Mathlib.Data.List.ReduceOption
import PipeScript.Proofs.Sites

/-!
# Arenas that hold a tree

An arena can hold anything: slots that name no node, nodes that are named twice or never,
cells in the place of expressions. `Tree.WellFormed` says that it holds a tree: the
names in the child slots are those of all nodes but the root, each of them once, and every slot
holds a node of a sort that belongs there. Following the slots from the root then leads to every
node, and to each of them on one path only.

`TokenBuffer.parse_wellFormed` is that for every arena that a parse gives. Nothing in an arena
says in which order its names have to be followed, for cells name nodes behind them and all
others nodes in front of them. So the count of names is taken along the parts of the syntax
tree (`Site.names_perm`), and so are the paths (`Tree.HasSite.exists_path`).
-/

namespace PipeScript

/-! ## Positions in lists -/

/-- In a list whose entries are all related to those behind them, entries that are not related
either way are one. -/
theorem eq_of_pairwise {α : Type} {R : α → α → Prop} {entries : List α}
    (pairs : entries.Pairwise R) {i j : Nat} {x y : α} (atI : entries[i]? = some x)
    (atJ : entries[j]? = some y) (notBefore : ¬ R x y) (notBehind : ¬ R y x) : i = j := by
  obtain ⟨iBound, rfl⟩ := List.getElem?_eq_some_iff.mp atI
  obtain ⟨jBound, rfl⟩ := List.getElem?_eq_some_iff.mp atJ
  have related := List.pairwise_iff_getElem.mp pairs
  rcases Nat.lt_trichotomy i j with less | same | more
  · exact absurd (related i j iBound jBound less) notBefore
  · exact same
  · exact absurd (related j i jBound iBound more) notBehind

/-- In a list without repetition, a filled entry has one position. -/
theorem eq_of_nodup_reduceOption {α : Type} {entries : List (Option α)}
    (nodup : entries.reduceOption.Nodup) {k m : Nat} {a : α} (atK : entries[k]? = some (some a))
    (atM : entries[m]? = some (some a)) : k = m := by
  have pairs := List.pairwise_filterMap.mp nodup
  exact eq_of_pairwise pairs atK atM (fun ne => ne a rfl a rfl rfl) (fun ne => ne a rfl a rfl rfl)

/-- In a collection without repetition, an item comes from one position. -/
theorem eq_of_nodup_flatMap {α β : Type} {items : List β} {f : β → List α}
    (nodup : (items.flatMap f).Nodup) {i j : Nat} {x y : β} {a : α} (atI : items[i]? = some x)
    (atJ : items[j]? = some y) (inX : a ∈ f x) (inY : a ∈ f y) : i = j := by
  have pairs := (List.nodup_flatMap.mp nodup).2
  exact eq_of_pairwise pairs atI atJ (fun disjoint => disjoint inX inY)
    (fun disjoint => disjoint inY inX)

/-! ## Names in slots -/

namespace Site

/-- The slot of a site and those of its nodes hold the names of its nodes, each once. -/
theorem names_perm (site : Site) :
    (site.slot.toList ++ site.nodes.flatMap fun node => node.kind.children).Perm
      (site.nodes.map Node.id) := by
  induction site using Site.induction with
  | step site ih =>
    have inParts : ((site.parts.flatMap fun part => part.slot.toList) ++
        site.parts.flatMap fun part => part.nodes.flatMap fun node => node.kind.children).Perm
        (site.parts.flatMap fun part => part.nodes.map Node.id) :=
      (List.flatMap_append_perm _ _ _).trans (List.Perm.flatMap_left _ ih)
    have names := site.nodes_perm.flatMap_right fun node => node.kind.children
    have ids := site.nodes_perm.map Node.id
    rw [List.flatMap_append, List.flatMap_assoc] at names
    rw [List.map_append, List.map_flatMap] at ids
    cases own : site.own? with
    | none =>
      rw [own] at names ids
      rw [slot_of_own?_eq_none own]
      exact (names.append_left _).trans (inParts.trans ids.symm)
    | some node =>
      obtain ⟨slot, children⟩ := children_own own
      rw [own, Option.toList_some, List.flatMap_singleton, children] at names
      rw [own] at ids
      rw [slot, Option.toList_some, List.singleton_append]
      exact ((names.trans inParts).cons node.id).trans ids.symm

end Site

/-! ## Following slots -/

namespace Tree

/-- The name in a child slot of a node. -/
def child? (tree : Tree) (id : NodeId) (slot : Nat) : Option NodeId :=
  (tree.node? id).bind fun node => node.kind.slots[slot]?.join

/-- Where a path of child slots leads to. -/
def follow? (tree : Tree) : NodeId → List Nat → Option NodeId
  | id, [] => some id
  | id, slot :: path => (tree.child? id slot).bind fun child => tree.follow? child path

variable {tree : Tree} {site : Site} {node : Node} {id child : NodeId} {slot : Nat}

theorem child?_eq_some :
    tree.child? id slot = some child ↔
      ∃ node, tree.node? id = some node ∧ node.kind.slots[slot]? = some (some child) := by
  rw [child?, Option.bind_eq_some_iff]
  simp only [Option.join_eq_some_iff]

theorem child?_of_children (found : tree.node? id = some node)
    (isChild : child ∈ node.kind.children) : ∃ slot, tree.child? id slot = some child := by
  obtain ⟨slot, entry⟩ := List.mem_iff_getElem?.mp (List.reduceOption_mem_iff.mp isChild)
  exact ⟨slot, child?_eq_some.mpr ⟨node, found, entry⟩⟩

theorem children_of_child? (named : tree.child? id slot = some child) :
    ∃ node, tree.node? id = some node ∧ child ∈ node.kind.children := by
  obtain ⟨node, found, entry⟩ := child?_eq_some.mp named
  exact ⟨node, found, List.reduceOption_mem_iff.mpr (List.mem_of_getElem? entry)⟩

theorem follow?_concat (id : NodeId) (path : List Nat) (slot : Nat) :
    tree.follow? id (path ++ [slot]) =
      (tree.follow? id path).bind fun parent => tree.child? parent slot := by
  induction path generalizing id with
  | nil => simp [follow?]
  | cons first path ih =>
    rw [List.cons_append, follow?, follow?, Option.bind_assoc]
    simp only [ih]

/-- From where a site is rooted, its slots lead to all of its nodes. -/
theorem HasSite.exists_path (has : tree.HasSite site) (mem : node ∈ site.nodes) :
    ∃ root, site.slot = some root ∧ ∃ path, tree.follow? root path = some node.id := by
  induction site using Site.induction with
  | step site ih =>
    rcases List.mem_append.mp (site.nodes_perm.mem_iff.mp mem) with isOwn | below
    · exact ⟨node.id, (Site.children_own (Option.mem_toList.mp isOwn)).1, [], rfl⟩
    obtain ⟨part, isPart, inPart⟩ := List.mem_flatMap.mp below
    obtain ⟨child, slot, path, leads⟩ := ih part isPart (has.parts isPart) inPart
    have isChild : child ∈ site.parts.flatMap fun part => part.slot.toList :=
      List.mem_flatMap.mpr ⟨part, isPart, by rw [slot]; exact List.mem_cons_self⟩
    cases own : site.own? with
    | none =>
      rw [← Site.slot_of_own?_eq_none own, Option.mem_toList] at isChild
      exact ⟨child, isChild, path, leads⟩
    | some parent =>
      obtain ⟨root, children⟩ := Site.children_own own
      rw [← children] at isChild
      obtain ⟨k, step⟩ := child?_of_children (has.own own) isChild
      exact ⟨parent.id, root, k :: path, by rw [follow?, step]; exact leads⟩

/-- If no node is named twice, and the root never, then no two paths lead to one node. -/
theorem follow?_injective {root : NodeId}
    (once : ∀ {i k j m id}, tree.child? i k = some id → tree.child? j m = some id → i = j ∧ k = m)
    (unnamed : ∀ i k, tree.child? i k ≠ some root) {p q : List Nat}
    (leads : tree.follow? root p = some id) (leadsToo : tree.follow? root q = some id) : p = q := by
  have notRoot {q : List Nat} {k : Nat} : tree.follow? root (q ++ [k]) ≠ some root := by
    rw [follow?_concat]
    intro back
    obtain ⟨parent, _, named⟩ := Option.bind_eq_some_iff.mp back
    exact unnamed parent k named
  induction p using List.reverseRecOn generalizing q id with
  | nil =>
    cases leads
    rcases List.eq_nil_or_concat q with rfl | ⟨q, k, rfl⟩
    · rfl
    · rw [List.concat_eq_append] at leadsToo
      exact absurd leadsToo notRoot
  | append_singleton p k ih =>
    rcases List.eq_nil_or_concat q with rfl | ⟨q, m, rfl⟩
    · cases leadsToo
      exact absurd leads notRoot
    · rw [List.concat_eq_append, follow?_concat] at leadsToo
      rw [follow?_concat] at leads
      obtain ⟨i, toParent, named⟩ := Option.bind_eq_some_iff.mp leads
      obtain ⟨j, toOther, namedToo⟩ := Option.bind_eq_some_iff.mp leadsToo
      obtain ⟨rfl, rfl⟩ := once named namedToo
      rw [List.concat_eq_append, ih toParent toOther]

end Tree

/-! ## What slots hold -/

/-- The sorts of trees that the slots of a node are for. -/
def NodeKind.wants : NodeKind → List Part
  | constant | reference => []
  | binary _ _ => [.expression, .operand]
  | function _ => [.statements]
  | call _ _ | argumentCell _ _ => [.expression, .arguments]
  | definition _ => [.expression]
  | statementCell _ _ => [.statement, .statements]

namespace Tree

variable {tree : Tree} {site : Site} {node : Node} {id child : NodeId}

/-- A slot is empty, or holds the name of a node for a tree of a given sort. -/
def Fits (tree : Tree) (slot : Option NodeId) (part : Part) : Prop :=
  ∀ child, slot = some child → tree.Shows part child

theorem HasSite.fits {part : Part} {form : SyntaxTree TokenOf part} {follow : Token} {n : NodeId}
    (has : tree.HasSite ⟨form, follow, n⟩) : tree.Fits (form.slot n) part :=
  fun _ filled => has.shows filled

/-- The slot of a tree that is no argument list is always filled. -/
theorem HasSite.fits_root {part : Part} {form : SyntaxTree TokenOf part} {follow : Token}
    {n : NodeId} (has : tree.HasSite ⟨form, follow, n⟩) (notArguments : part ≠ .arguments) :
    tree.Fits (some (form.root n)) part := by
  rw [← SyntaxTree.slot_eq_some notArguments]
  exact has.fits

/-- The slots of the own node of a site hold what they are for. -/
theorem HasSite.fits_own (has : tree.HasSite site) (own : site.own? = some node) :
    List.Forall₂ tree.Fits node.kind.slots node.kind.wants := by
  obtain ⟨form, follow, n⟩ := site
  cases form with
  | noStatements =>
    cases own
    exact .cons nofun (.cons nofun .nil)
  | statements first rest =>
    obtain ⟨hasFirst, hasRest⟩ := has.both rfl
    have restFits := hasRest.fits_root (by decide)
    rw [SyntaxTree.root_statements] at restFits
    cases own
    exact .cons (hasFirst.fits_root (by decide)) (.cons restFits .nil)
  | definition =>
    cases own
    exact .cons ((has.only rfl).fits_root (by decide)) .nil
  | plain => cases own
  | operand => cases own
  | pipe =>
    obtain ⟨hasLeft, hasRight⟩ := has.both rfl
    cases own
    exact .cons (hasLeft.fits_root (by decide)) (.cons (hasRight.fits_root (by decide)) .nil)
  | number =>
    cases own
    exact .nil
  | name =>
    cases own
    exact .nil
  | function =>
    cases own
    exact .cons ((has.only rfl).fits_root (by decide)) .nil
  | call =>
    obtain ⟨hasCallee, hasOthers⟩ := has.both rfl
    cases own
    exact .cons (hasCallee.fits_root (by decide)) (.cons hasOthers.fits .nil)
  | noArguments => cases own
  | arguments =>
    obtain ⟨hasFirst, hasRest⟩ := has.both rfl
    cases own
    exact .cons (hasFirst.fits_root (by decide)) (.cons hasRest.fits .nil)

/-- Of a cell that is laid out both slots are filled, or neither is. -/
theorem HasSite.filled_alike {statement next : Option NodeId} (own : site.own? = some node)
    (cell : node.kind = .statementCell statement next) : statement.isSome = next.isSome := by
  obtain ⟨form, follow, n⟩ := site
  cases form <;> cases own <;> cases cell <;> rfl

/-- From the cells of a list that is laid out, the second slots lead to an empty cell. -/
theorem HasSite.list_ends (list : SyntaxTree TokenOf .statements) (follow : Token) (n : NodeId)
    (has : tree.HasSite ⟨list, follow, n⟩) :
    ∃ count last cell, tree.follow? n (List.replicate count 1) = some last ∧
      tree.node? last = some cell ∧ cell.isSentinel := by
  cases list with
  | noStatements => exact ⟨0, n, _, rfl, has.own rfl, rfl⟩
  | statements first rest =>
    obtain ⟨count, last, cell, leads, found, empty⟩ :=
      HasSite.list_ends rest follow _ (has.both rfl).2
    refine ⟨count + 1, last, cell, ?_, found, empty⟩
    have step : tree.child? n 1 = some (n + 1 + first.size) :=
      child?_eq_some.mpr ⟨_, has.own rfl, rfl⟩
    rw [List.replicate_succ, follow?, step]
    exact leads

theorem HasSite.chain_ends {statement next : Option NodeId} (has : tree.HasSite site)
    (own : site.own? = some node) (cell : node.kind = .statementCell statement next) :
    ∃ count last cell, tree.follow? node.id (List.replicate count 1) = some last ∧
      tree.node? last = some cell ∧ cell.isSentinel := by
  obtain ⟨form, follow, n⟩ := site
  cases form with
  | noStatements =>
    cases own
    exact has.list_ends
  | statements =>
    cases own
    exact has.list_ends
  | _ => cases own <;> cases cell

end Tree

/-! ## Well-formed arenas -/

/-- An arena holds a tree, and every node of the tree is in a place where its kind can be. -/
structure Tree.WellFormed (tree : Tree) : Prop where
  ids : ∀ i node, tree.node? i = some node → node.id = i
  root_eq : tree.root = 0
  root_shows : tree.Shows .statements tree.root
  in_range : ∀ i slot child, tree.child? i slot = some child → child < tree.size
  /-- The root is named in no slot, and every other node in one. -/
  root_unnamed : ∀ i slot, tree.child? i slot ≠ some tree.root
  named_once : ∀ id < tree.size, id ≠ tree.root →
    ∃! place : NodeId × Nat, tree.child? place.1 place.2 = some id
  /-- Following slots from the root leads to every node, and never twice to the same. -/
  reached_once : ∀ id < tree.size, ∃! path, tree.follow? tree.root path = some id
  slots : ∀ i node, tree.node? i = some node →
    List.Forall₂ tree.Fits node.kind.slots node.kind.wants
  filled_alike : ∀ i node statement next, tree.node? i = some node →
    node.kind = .statementCell statement next → statement.isSome = next.isSome
  /-- Every chain of statement cells ends, and in an empty cell. -/
  chain_ends : ∀ i node statement next, tree.node? i = some node →
    node.kind = .statementCell statement next →
    ∃ count last cell, tree.follow? i (List.replicate count 1) = some last ∧
      tree.node? last = some cell ∧ cell.isSentinel
  /-- Definitions are statements, and stand nowhere else. -/
  definitions : ∀ id node initializer, tree.node? id = some node →
    node.kind = .definition initializer →
    ∀ i slot, tree.child? i slot = some id →
      slot = 0 ∧ ∃ cell next, tree.node? i = some cell ∧ cell.kind = .statementCell (some id) next

namespace Tree

variable {tree : Tree} {id child : NodeId} {slot : Nat} {node : Node}

/-- A slot holds what it is for. -/
theorem shows_of_child? (found : tree.node? id = some node)
    (fits : List.Forall₂ tree.Fits node.kind.slots node.kind.wants)
    (named : tree.child? id slot = some child) :
    ∃ part, node.kind.wants[slot]? = some part ∧ tree.Shows part child := by
  obtain ⟨node', found', entry⟩ := child?_eq_some.mp named
  rw [found] at found'
  cases found'
  obtain ⟨bound, entryEq⟩ := List.getElem?_eq_some_iff.mp entry
  obtain ⟨length, each⟩ := List.forall₂_iff_get.mp fits
  have bound' : slot < node.kind.wants.length := length ▸ bound
  exact ⟨_, List.getElem?_eq_getElem bound', each slot bound bound' child entryEq⟩

/-- Only the first slot of a statement cell is for statements. -/
theorem eq_statementCell_of_wants {kind : NodeKind} (wanted : kind.wants[slot]? = some .statement) :
    slot = 0 ∧ ∃ statement next, kind = .statementCell statement next := by
  rcases slot with _ | _ | slot
  · cases kind <;> first | exact ⟨rfl, _, _, rfl⟩ | cases wanted
  · cases kind <;> cases wanted
  · cases kind <;> cases wanted

theorem eq_statement_of_admits {part : Part} {initializer : NodeId}
    (admits : part.admits (.definition initializer)) : part = .statement := by
  cases part <;> first | rfl | cases admits

/-! ## The arena of a program -/

section Program

variable {program : SyntaxTree TokenOf .statements} {last : Token} {i j k m : NodeId}

theorem mem_layout_of_node? (nodes : tree.nodes.toList = program.layout last 0)
    (found : tree.node? i = some node) : node ∈ program.layout last 0 := by
  rw [← nodes]
  exact Array.mem_toList_iff.mpr (Array.mem_of_getElem? found)

/-- Every node of a program is the own one of a site in its arena. -/
theorem exists_site (nodes : tree.nodes.toList = program.layout last 0)
    (found : tree.node? i = some node) :
    ∃ site : Site, tree.HasSite site ∧ site.own? = some node := by
  obtain ⟨site, within, own⟩ :=
    Site.exists_own ⟨program, last, 0⟩ (mem_layout_of_node? nodes found)
  exact ⟨site, (hasSite_of_layout nodes).within within, own⟩

theorem id_eq_of_layout (nodes : tree.nodes.toList = program.layout last 0)
    (found : tree.node? i = some node) : node.id = i := by
  have atI : (tree.nodes.toList.map Node.id)[i]? = some node.id := by
    rw [List.getElem?_map, Array.getElem?_toList]
    exact congrArg (Option.map Node.id) found
  rw [ids_of_layout nodes] at atI
  obtain ⟨bound, eq⟩ := List.getElem?_eq_some_iff.mp atI
  rw [List.getElem_range] at eq
  exact eq.symm

/-- The names of all nodes are those of the root and of its slots, each once. -/
theorem names_perm_of_layout (nodes : tree.nodes.toList = program.layout last 0) :
    (0 :: tree.nodes.toList.flatMap fun node => node.kind.children).Perm
      (List.range tree.size) := by
  have names : List.Perm
      ((program.slot 0).toList ++ (program.layout last 0).flatMap fun node => node.kind.children)
      ((program.layout last 0).map Node.id) := Site.names_perm ⟨program, last, 0⟩
  rw [SyntaxTree.slot_statements, ← nodes, ids_of_layout nodes] at names
  exact names

theorem mem_names_of_child? (nodes : tree.nodes.toList = program.layout last 0)
    (named : tree.child? i slot = some id) :
    id ∈ tree.nodes.toList.flatMap fun node => node.kind.children := by
  obtain ⟨node, found, isChild⟩ := children_of_child? named
  refine List.mem_flatMap.mpr ⟨node, ?_, isChild⟩
  rw [nodes]
  exact mem_layout_of_node? nodes found

/-- No name stands in two slots. -/
theorem place_unique (nodes : tree.nodes.toList = program.layout last 0)
    (named : tree.child? i k = some id) (namedToo : tree.child? j m = some id) :
    i = j ∧ k = m := by
  have nodup := ((names_perm_of_layout nodes).nodup_iff.mpr List.nodup_range).of_cons
  obtain ⟨node, found, entry⟩ := child?_eq_some.mp named
  obtain ⟨other, foundToo, entryToo⟩ := child?_eq_some.mp namedToo
  have atI : tree.nodes.toList[i]? = some node := by
    rw [Array.getElem?_toList]
    exact found
  have atJ : tree.nodes.toList[j]? = some other := by
    rw [Array.getElem?_toList]
    exact foundToo
  have same : i = j := eq_of_nodup_flatMap nodup atI atJ
    (List.reduceOption_mem_iff.mpr (List.mem_of_getElem? entry))
    (List.reduceOption_mem_iff.mpr (List.mem_of_getElem? entryToo))
  subst same
  rw [found] at foundToo
  cases foundToo
  have ofNode := (List.nodup_flatMap.mp nodup).1 node (List.mem_of_getElem? atI)
  exact ⟨rfl, eq_of_nodup_reduceOption ofNode entry entryToo⟩

theorem root_unnamed_of_layout (nodes : tree.nodes.toList = program.layout last 0)
    (named : tree.child? i slot = some 0) : False :=
  ((names_perm_of_layout nodes).nodup_iff.mpr List.nodup_range).notMem
    (mem_names_of_child? nodes named)

/-- Every node but the root is named. -/
theorem exists_place (nodes : tree.nodes.toList = program.layout last 0) (bound : id < tree.size)
    (notRoot : id ≠ 0) : ∃ parent slot, tree.child? parent slot = some id := by
  have mem := (names_perm_of_layout nodes).mem_iff.mpr (List.mem_range.mpr bound)
  rcases List.mem_cons.mp mem with isRoot | isNamed
  · exact absurd isRoot notRoot
  · obtain ⟨node, inNodes, isChild⟩ := List.mem_flatMap.mp isNamed
    obtain ⟨i, found⟩ := List.mem_iff_getElem?.mp inNodes
    rw [Array.getElem?_toList] at found
    obtain ⟨slot, named⟩ := child?_of_children found isChild
    exact ⟨i, slot, named⟩

/-- Slots lead from the root to every node. -/
theorem exists_path_of_layout (nodes : tree.nodes.toList = program.layout last 0)
    (bound : id < tree.size) : ∃ path, tree.follow? 0 path = some id := by
  have found : tree.node? id = some tree.nodes[id] := Array.getElem?_eq_getElem bound
  obtain ⟨root, slot, path, leads⟩ :=
    (hasSite_of_layout nodes).exists_path (mem_layout_of_node? nodes found)
  cases (program.slot_statements 0).symm.trans slot
  rw [id_eq_of_layout nodes found] at leads
  exact ⟨path, leads⟩

theorem wellFormed_of_layout (root : tree.root = 0)
    (nodes : tree.nodes.toList = program.layout last 0) : tree.WellFormed := by
  have has := hasSite_of_layout nodes
  have fits {i : NodeId} {node : Node} (found : tree.node? i = some node) :
      List.Forall₂ tree.Fits node.kind.slots node.kind.wants := by
    obtain ⟨site, hasInner, own⟩ := exists_site nodes found
    exact hasInner.fits_own own
  constructor
  case ids => exact fun i node found => id_eq_of_layout nodes found
  case root_eq => exact root
  case root_shows =>
    rw [root]
    exact has.shows (program.slot_statements 0)
  case in_range =>
    intro i slot child named
    have mem := List.mem_cons_of_mem 0 (mem_names_of_child? nodes named)
    exact List.mem_range.mp ((names_perm_of_layout nodes).mem_iff.mp mem)
  case root_unnamed =>
    rw [root]
    exact fun i slot named => root_unnamed_of_layout nodes named
  case named_once =>
    rw [root]
    intro id bound notRoot
    obtain ⟨parent, slot, named⟩ := exists_place nodes bound notRoot
    refine ⟨(parent, slot), named, ?_⟩
    rintro ⟨other, otherSlot⟩ namedToo
    obtain ⟨rfl, rfl⟩ := place_unique nodes named namedToo
    rfl
  case reached_once =>
    rw [root]
    intro id bound
    obtain ⟨path, leads⟩ := exists_path_of_layout nodes bound
    exact ⟨path, leads, fun other leadsToo => follow?_injective (place_unique nodes)
      (fun _ _ named => root_unnamed_of_layout nodes named) leadsToo leads⟩
  case slots => exact fun i node found => fits found
  case filled_alike =>
    intro i node statement next found cell
    obtain ⟨site, -, own⟩ := exists_site nodes found
    exact HasSite.filled_alike own cell
  case chain_ends =>
    intro i node statement next found cell
    obtain ⟨site, hasInner, own⟩ := exists_site nodes found
    rw [← id_eq_of_layout nodes found]
    exact hasInner.chain_ends own cell
  case definitions =>
    intro id node initializer found isDefinition i slot named
    obtain ⟨parent, foundParent, entry⟩ := child?_eq_some.mp named
    obtain ⟨part, wanted, shown, foundShown, admits⟩ :=
      shows_of_child? foundParent (fits foundParent) named
    rw [found] at foundShown
    cases foundShown
    rw [isDefinition] at admits
    rw [eq_statement_of_admits admits] at wanted
    obtain ⟨rfl, statement, next, isCell⟩ := eq_statementCell_of_wants wanted
    rw [isCell] at entry
    cases entry
    exact ⟨rfl, parent, next, foundParent, isCell⟩

end Program

end Tree

/-- Every arena that a parse gives holds a tree. -/
theorem TokenBuffer.parse_wellFormed (buffer : TokenBuffer) (tree : Tree)
    (parsed : buffer.parse = .ok tree) : tree.WellFormed := by
  obtain ⟨program, -, root, nodes⟩ := exists_layout parsed
  rw [SyntaxTree.root_statements] at root
  exact Tree.wellFormed_of_layout root nodes

/-- The tokens of `{let y = 1 y} (g)`. -/
def TokenBuffer.functionAndCall : TokenBuffer where
  body := [.ofLexeme .leftBrace ['{'] ⟨0, 1, 1⟩,
    .ofLexeme .letKeyword ['l', 'e', 't'] ⟨1, 1, 2⟩, .ofLexeme .identifier ['y'] ⟨5, 1, 6⟩,
    .ofLexeme .assign ['='] ⟨7, 1, 8⟩, .ofLexeme .number ['1'] ⟨9, 1, 10⟩,
    .ofLexeme .identifier ['y'] ⟨11, 1, 12⟩, .ofLexeme .rightBrace ['}'] ⟨12, 1, 13⟩,
    .ofLexeme .leftParen ['('] ⟨14, 1, 15⟩, .ofLexeme .identifier ['g'] ⟨15, 1, 16⟩,
    .ofLexeme .rightParen [')'] ⟨16, 1, 17⟩]
  last := .endAt ⟨17, 1, 18⟩
  body_kind := by decide
  last_kind := rfl

theorem TokenBuffer.functionAndCall_wellFormed :
    ∃ tree, functionAndCall.parse = .ok tree ∧ tree.WellFormed :=
  ⟨_, rfl, parse_wellFormed functionAndCall _ rfl⟩

end PipeScript
