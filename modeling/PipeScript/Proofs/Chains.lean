import PipeScript.Proofs.AnchorPlaces
import PipeScript.Proofs.RoundTrip
import PipeScript.Proofs.Unambiguity

/-!
# Lists read from their cells

A reader of a chain gives the items of a list one by one, and then nothing, however often it is
asked. `Tree.Gives` says so of a cursor, and `Tree.Chain` of a cursor and of every later cell that
can be reached from it. A cell in front of a chain makes a longer one (`Tree.Chain.cons`), so the
cells of a list that is laid out form a chain (`Tree.HasSite.chain_statements`,
`Tree.HasSite.chain_arguments`), whatever is laid out between them.

`TokenBuffer.parse_lists` is that for all lists of a program, with the items that they have in its
syntax tree.
-/

namespace PipeScript

/-- A number in front of larger ones. -/
theorem sorted_cons {numbers : List Nat} {n k m : Nat} (least : n ≤ k) (less : k < m)
    (others : numbers.Pairwise (· < ·) ∧ ∀ number ∈ numbers, m ≤ number) :
    (k :: numbers).Pairwise (· < ·) ∧ ∀ number ∈ k :: numbers, n ≤ number := by
  obtain ⟨sorted, behind⟩ := others
  refine ⟨List.pairwise_cons.mpr ⟨fun number mem => ?_, sorted⟩,
    List.forall_mem_cons.mpr ⟨least, fun number mem => ?_⟩⟩
  all_goals
    have := behind number mem
    omega

namespace SyntaxTree

variable {α : Kind → Type}

/-- What stands for a tree is one of its nodes. -/
theorem root_bounds {part : Part} (notArguments : part ≠ .arguments) (form : SyntaxTree α part)
    (n : Nat) : n ≤ form.root n ∧ form.root n < n + form.size := by
  induction form generalizing n with
  | noStatements | number | name => exact ⟨Nat.le_refl n, Nat.lt_succ_self n⟩
  | statements => exact ⟨Nat.le_refl n, Nat.lt_add_of_pos_right (Nat.succ_pos _)⟩
  | definition | function => exact ⟨Nat.le_add_right .., Nat.lt_succ_self _⟩
  | plain _ ih => exact ih (by decide) n
  | operand _ ih => exact ih (by decide) n
  | pipe left _ right | call _ left right _ =>
    exact ⟨(Nat.le_add_right ..).trans (Nat.le_add_right ..),
      Nat.lt_of_le_of_lt (Nat.add_assoc ..).le (Nat.lt_succ_self _)⟩
  | noArguments | arguments => exact absurd rfl notArguments

/-- The items of a list stand one behind the other. -/
theorem itemIds_sorted {part : Part} (list : SyntaxTree α part) (n : Nat) :
    (list.itemIds n).Pairwise (· < ·) ∧ ∀ id ∈ list.itemIds n, n ≤ id := by
  induction list generalizing n with
  | statements first rest _ ih =>
    obtain ⟨least, less⟩ := first.root_bounds (by decide) (n + 1)
    exact sorted_cons (Nat.le_of_succ_le least) less (ih _)
  | arguments first rest _ ih =>
    obtain ⟨least, less⟩ := first.root_bounds (by decide) n
    exact sorted_cons least less (ih _)
  | _ => simp [itemIds]

end SyntaxTree

/-- Parts of parts are parts. -/
theorem Site.Within.trans {inner part whole : Site} (outer : part.Within whole)
    (within : inner.Within part) : inner.Within whole := by
  induction outer with
  | refl => exact within
  | step _ isPart ih => exact .step ih isPart

namespace Tree

/-! ## Readers -/

/-- From a cursor on some items are given one by one, and then nothing, time and again. -/
def Gives (step : Cursor → Option NodeId × Cursor) (cursor : Cursor) (ids : List NodeId) : Prop :=
  ∀ n : Nat, steps step n cursor = (List.range n).map fun i => ids[i]?

section Gives

variable {step : Cursor → Option NodeId × Cursor} {cursor next : Cursor}

theorem gives_nil (ends : step cursor = (none, next)) (stays : step next = (none, next)) :
    Gives step cursor [] := by
  have nothing (n : Nat) : steps step n next = List.replicate n none := by
    induction n with
    | zero => rfl
    | succ n ih => rw [steps, stays, ih, List.replicate_succ]
  intro n
  cases n with
  | zero => rfl
  | succ n =>
    rw [steps, ends, nothing]
    simp [List.replicate_succ]

theorem Gives.cons {id : NodeId} {ids : List NodeId} (taken : step cursor = (some id, next))
    (gives : Gives step next ids) : Gives step cursor (id :: ids) := by
  intro n
  cases n with
  | zero => rfl
  | succ n =>
    rw [steps, taken, gives, List.range_succ_eq_map, List.map_cons, List.map_map]
    rfl

end Gives

/-! ## Chains of cells -/

/-- What is read from the first cell of a chain on: some items, from every later cell those that
are left, and from behind the last one nothing. The second slot of a cell names the next one. -/
structure Chain (tree : Tree) (step : Cursor → Option NodeId × Cursor) (cursor : Cursor)
    (ids : List NodeId) : Prop where
  gives : Gives step cursor ids
  cells : ∀ i < ids.length, ∃ head cell, cursor = some head ∧
    tree.follow? head (List.replicate i 1) = some cell
  suffixes : ∀ i head cell, cursor = some head →
    tree.follow? head (List.replicate i 1) = some cell → Gives step (some cell) (ids.drop i)

section Chain

variable {tree : Tree} {step : Cursor → Option NodeId × Cursor} {head : NodeId}

/-- A cell in front of a chain. -/
theorem Chain.cons {id : NodeId} {next : Cursor} {ids : List NodeId}
    (taken : step (some head) = (some id, next)) (linked : tree.child? head 1 = next)
    (chain : tree.Chain step next ids) : tree.Chain step (some head) (id :: ids) := by
  have gives := chain.gives.cons taken
  have later (i : Nat) : tree.follow? head (List.replicate (i + 1) 1) =
      next.bind fun cell => tree.follow? cell (List.replicate i 1) := by
    rw [List.replicate_succ, follow?, linked]
  refine ⟨gives, fun i bound => ?_, ?_⟩
  · cases i with
    | zero => exact ⟨head, head, rfl, rfl⟩
    | succ i =>
      obtain ⟨second, cell, rfl, leads⟩ := chain.cells i (Nat.lt_of_succ_lt_succ bound)
      exact ⟨head, cell, rfl, (later i).trans leads⟩
  · rintro (_ | i) _ cell isHead leads <;> cases isHead
    · cases leads
      exact gives
    · rw [later] at leads
      obtain ⟨second, isNext, leads⟩ := Option.bind_eq_some_iff.mp leads
      exact chain.suffixes i second cell isNext leads

/-- A chain without cells. -/
theorem chain_none (ends : step none = (none, none)) : tree.Chain step none [] :=
  ⟨gives_nil ends ends, nofun, nofun⟩

/-- A chain of one cell without item and successor. -/
theorem chain_sentinel (ends : step (some head) = (none, none)) (stays : step none = (none, none))
    (unlinked : tree.child? head 1 = none) : tree.Chain step (some head) [] := by
  refine ⟨gives_nil ends stays, nofun, ?_⟩
  rintro (_ | i) _ cell isHead leads <;> cases isHead
  · cases leads
    exact gives_nil ends stays
  · rw [List.replicate_succ, follow?, unlinked] at leads
    cases leads

end Chain

/-! ## Lists in an arena -/

variable {tree : Tree}

/-- The statements of a list stand in its chain. -/
theorem HasSite.chain_statements (list : SyntaxTree TokenOf .statements) (follow : Token)
    (n : NodeId) (has : tree.HasSite ⟨list, follow, n⟩) :
    tree.Chain tree.nextStatement (some n) (list.itemIds n) := by
  cases list with
  | noStatements =>
    have found := has.own rfl
    refine chain_sentinel (nextStatement_of_cell found) rfl ?_
    rw [child?, found]
    rfl
  | statements first rest =>
    have found := has.own rfl
    exact (HasSite.chain_statements rest follow _ (has.both rfl).2).cons
      (nextStatement_of_cell found) (child?_eq_some.mpr ⟨_, found, rfl⟩)

/-- The arguments of a call stand in its chain. -/
theorem HasSite.chain_arguments (list : SyntaxTree TokenOf .arguments) (follow : Token)
    (n : NodeId) (has : tree.HasSite ⟨list, follow, n⟩) :
    tree.Chain tree.nextArgument (list.slot n) (list.itemIds n) := by
  cases list with
  | noArguments => exact chain_none (nextArgument_none tree)
  | arguments first rest =>
    have found := has.own rfl
    refine (HasSite.chain_arguments rest follow _ (has.both rfl).2).cons
      (nextArgument_of_cell found) ?_
    rw [child?, SyntaxTree.root, found]
    rfl

/-- A name stands for a tree that is a part of a program. -/
def StandsFor (tree : Tree) (whole : Site) {part : Part} (form : SyntaxTree TokenOf part)
    (id : NodeId) : Prop :=
  ∃ follow n, Site.Within ⟨form, follow, n⟩ whole ∧ tree.HasSite ⟨form, follow, n⟩ ∧
    form.slot n = some id

/-- A chain gives a list of trees: names that stand for them, one for each, from left to right. -/
structure Lists (tree : Tree) (whole : Site) (step : Cursor → Option NodeId × Cursor)
    (cursor : Cursor) {part : Part} (items : List (SyntaxTree TokenOf part)) (ids : List NodeId) :
    Prop extends tree.Chain step cursor ids where
  increasing : ids.Pairwise (· < ·)
  each : List.Forall₂ (tree.StandsFor whole) items ids

variable {whole : Site}

/-- The name of a part of a subtree stands for it. -/
theorem HasSite.standsFor {site : Site} (has : tree.HasSite site) (within : site.Within whole)
    {part : Part} {form : SyntaxTree TokenOf part} {follow : Token} {n : NodeId}
    (isPart : ⟨form, follow, n⟩ ∈ site.parts) (notArguments : part ≠ .arguments) :
    tree.StandsFor whole form (form.root n) :=
  ⟨follow, n, within.trans (.step .refl isPart), has.parts isPart,
    SyntaxTree.slot_eq_some notArguments form n⟩

theorem HasSite.exists_statements (list : SyntaxTree TokenOf .statements) (follow : Token)
    (n : NodeId) (has : tree.HasSite ⟨list, follow, n⟩)
    (within : Site.Within ⟨list, follow, n⟩ whole) :
    ∃ items, list = .ofStatements items ∧
      List.Forall₂ (tree.StandsFor whole) items (list.itemIds n) := by
  cases list with
  | noStatements => exact ⟨[], rfl, .nil⟩
  | statements first rest =>
    obtain ⟨items, eq, each⟩ := HasSite.exists_statements rest follow _ (has.both rfl).2
      (within.trans (.step .refl (List.mem_cons_of_mem _ List.mem_cons_self)))
    exact ⟨first :: items, congrArg _ eq,
      .cons (has.standsFor within List.mem_cons_self (by decide)) each⟩

theorem HasSite.exists_arguments (list : SyntaxTree TokenOf .arguments) (follow : Token)
    (n : NodeId) (has : tree.HasSite ⟨list, follow, n⟩)
    (within : Site.Within ⟨list, follow, n⟩ whole) :
    ∃ items, list = .ofArguments items ∧
      List.Forall₂ (tree.StandsFor whole) items (list.itemIds n) := by
  cases list with
  | noArguments => exact ⟨[], rfl, .nil⟩
  | arguments first rest =>
    obtain ⟨items, eq, each⟩ := HasSite.exists_arguments rest follow _ (has.both rfl).2
      (within.trans (.step .refl (List.mem_cons_of_mem _ List.mem_cons_self)))
    exact ⟨first :: items, congrArg _ eq,
      .cons (has.standsFor within List.mem_cons_self (by decide)) each⟩

/-- The first cell of a list of statements that is a part of a program gives the list. -/
theorem HasSite.lists_statements {list : SyntaxTree TokenOf .statements} {follow : Token}
    {n : NodeId} (has : tree.HasSite ⟨list, follow, n⟩)
    (within : Site.Within ⟨list, follow, n⟩ whole) :
    ∃ items ids, list = .ofStatements items ∧ tree.statements n = .ok ids ∧
      tree.Lists whole tree.nextStatement (some n) items ids := by
  obtain ⟨items, eq, each⟩ := has.exists_statements list follow n within
  exact ⟨items, list.itemIds n, eq, statements_of_layout list follow n has,
    ⟨has.chain_statements list follow n, (list.itemIds_sorted n).1, each⟩⟩

theorem HasSite.lists_arguments {list : SyntaxTree TokenOf .arguments} {follow : Token}
    {n : NodeId} (has : tree.HasSite ⟨list, follow, n⟩)
    (within : Site.Within ⟨list, follow, n⟩ whole) :
    ∃ items ids, list = .ofArguments items ∧ tree.arguments (list.slot n) = .ok ids ∧
      tree.Lists whole tree.nextArgument (list.slot n) items ids := by
  obtain ⟨items, eq, each⟩ := has.exists_arguments list follow n within
  exact ⟨items, list.itemIds n, eq, arguments_of_layout list follow n has,
    ⟨has.chain_arguments list follow n, (list.itemIds_sorted n).1, each⟩⟩

/-- The readers of an arena give the lists of a program: its own statements from the root on, and
those in the bodies of its functions and the arguments of its calls from the slots of their
nodes on. -/
structure GivesLists (tree : Tree) (program : SyntaxTree TokenOf .statements) (last : Token) :
    Prop where
  program_list : ∃ items ids, program = .ofStatements items ∧ tree.statements tree.root = .ok ids ∧
    tree.Lists ⟨program, last, 0⟩ tree.nextStatement (some tree.root) items ids
  /-- Every part of the program but a list of arguments has a name in the arena. -/
  named : ∀ site : Site, site.Within ⟨program, last, 0⟩ → site.part ≠ .arguments →
    ∃ id, tree.StandsFor ⟨program, last, 0⟩ site.form id
  function_list : ∀ id opening body closing,
    tree.StandsFor ⟨program, last, 0⟩ (.function opening body closing) id →
    ∃ first items ids, tree.kind? id = some (.function first) ∧ body = .ofStatements items ∧
      tree.statements first = .ok ids ∧
      tree.Lists ⟨program, last, 0⟩ tree.nextStatement (some first) items ids
  call_list : ∀ id opening callee others closing,
    tree.StandsFor ⟨program, last, 0⟩ (.call opening callee others closing) id →
    ∃ head slot items ids, tree.kind? id = some (.call head slot) ∧ others = .ofArguments items ∧
      tree.arguments slot = .ok ids ∧
      tree.Lists ⟨program, last, 0⟩ tree.nextArgument slot items ids
  function_node : ∀ id first, tree.kind? id = some (.function first) →
    ∃ opening body closing,
      tree.StandsFor ⟨program, last, 0⟩ (.function opening body closing) id
  call_node : ∀ id callee slot, tree.kind? id = some (.call callee slot) →
    ∃ opening head others closing,
      tree.StandsFor ⟨program, last, 0⟩ (.call opening head others closing) id

theorem givesLists_of_layout {program : SyntaxTree TokenOf .statements} {last : Token}
    (root : tree.root = 0) (nodes : tree.nodes.toList = program.layout last 0) :
    tree.GivesLists program last := by
  have has := hasSite_of_layout nodes
  -- A node is the own one of a subtree, which it stands for.
  have origin {id : NodeId} {kind : NodeKind} (kindAt : tree.kind? id = some kind) :
      ∃ (site : Site) (node : Node), site.Within ⟨program, last, 0⟩ ∧ site.own? = some node ∧
        node.kind = kind ∧ tree.StandsFor ⟨program, last, 0⟩ site.form id := by
    obtain ⟨node, found, isKind⟩ := kind?_eq_some.mp kindAt
    obtain ⟨site, within, own⟩ :=
      Site.exists_own ⟨program, last, 0⟩ (mem_layout_of_node? nodes found)
    refine ⟨site, node, within, own, isKind, site.follow, site.start, within,
      has.within within, ?_⟩
    rw [← id_eq_of_layout nodes found]
    exact (Site.children_own own).1
  constructor
  case program_list =>
    rw [root]
    exact has.lists_statements .refl
  case named =>
    rintro ⟨form, follow, n⟩ within notArguments
    exact ⟨form.root n, follow, n, within, has.within within,
      SyntaxTree.slot_eq_some notArguments form n⟩
  case function_list =>
    rintro id opening body closing ⟨follow, n, within, hasFunction, slot⟩
    cases slot
    have isPart : ⟨body, closing.1, n⟩ ∈ Site.parts ⟨.function opening body closing, follow, n⟩ :=
      List.mem_cons_self
    obtain ⟨items, ids, eq, read, lists⟩ :=
      (hasFunction.parts isPart).lists_statements (within.trans (.step .refl isPart))
    refine ⟨n, items, ids, kind?_eq_some.mpr ⟨_, hasFunction.own rfl, ?_⟩, eq, read, lists⟩
    exact congrArg NodeKind.function (body.root_statements n)
  case call_list =>
    rintro id opening callee others closing ⟨follow, n, within, hasCall, slot⟩
    cases slot
    have isPart : ⟨others, follow, n + callee.size⟩ ∈
        Site.parts ⟨.call opening callee others closing, follow, n⟩ :=
      List.mem_cons_of_mem _ List.mem_cons_self
    obtain ⟨items, ids, eq, read, lists⟩ :=
      (hasCall.parts isPart).lists_arguments (within.trans (.step .refl isPart))
    exact ⟨_, _, items, ids, kind?_eq_some.mpr ⟨_, hasCall.own rfl, rfl⟩, eq, read, lists⟩
  case function_node =>
    intro id first kindAt
    obtain ⟨⟨form, follow, n⟩, node, within, own, isKind, stands⟩ := origin kindAt
    cases form with
    | function opening body closing => exact ⟨opening, body, closing, stands⟩
    | _ => cases own <;> cases isKind
  case call_node =>
    intro id callee slot kindAt
    obtain ⟨⟨form, follow, n⟩, node, within, own, isKind, stands⟩ := origin kindAt
    cases form with
    | call opening head others closing => exact ⟨opening, head, others, closing, stands⟩
    | _ => cases own <;> cases isKind

end Tree

namespace TokenBuffer

/-- The readers of an arena that a parse gives read the lists of the one program that the buffer
is written for. -/
theorem parse_lists (buffer : TokenBuffer) (tree : Tree) (parsed : buffer.parse = .ok tree) :
    ∃ program : SyntaxTree TokenOf .statements,
      (∀ other : SyntaxTree TokenOf .statements, other.tokens = buffer.body ↔ other = program) ∧
      tree.GivesLists program buffer.last := by
  obtain ⟨program, written, root, nodes⟩ := exists_layout parsed
  rw [SyntaxTree.root_statements] at root
  refine ⟨program, fun other => ⟨fun otherWritten => syntaxTree_unique otherWritten written, ?_⟩,
    Tree.givesLists_of_layout root nodes⟩
  rintro rfl
  exact written

/-- The tokens of `{x (f) y} (f {z} 1)`. -/
def listsInLists : TokenBuffer where
  body := [.ofLexeme .leftBrace ['{'] ⟨0, 1, 1⟩, .ofLexeme .identifier ['x'] ⟨1, 1, 2⟩,
    .ofLexeme .leftParen ['('] ⟨3, 1, 4⟩, .ofLexeme .identifier ['f'] ⟨4, 1, 5⟩,
    .ofLexeme .rightParen [')'] ⟨5, 1, 6⟩, .ofLexeme .identifier ['y'] ⟨7, 1, 8⟩,
    .ofLexeme .rightBrace ['}'] ⟨8, 1, 9⟩, .ofLexeme .leftParen ['('] ⟨10, 1, 11⟩,
    .ofLexeme .identifier ['f'] ⟨11, 1, 12⟩, .ofLexeme .leftBrace ['{'] ⟨13, 1, 14⟩,
    .ofLexeme .identifier ['z'] ⟨14, 1, 15⟩, .ofLexeme .rightBrace ['}'] ⟨15, 1, 16⟩,
    .ofLexeme .number ['1'] ⟨17, 1, 18⟩, .ofLexeme .rightParen [')'] ⟨18, 1, 19⟩]
  last := .endAt ⟨19, 1, 20⟩
  body_kind := by decide
  last_kind := rfl

theorem listsInLists_lists :
    ∃ tree, listsInLists.parse = .ok tree ∧ ∃ program : SyntaxTree TokenOf .statements,
      (∀ other : SyntaxTree TokenOf .statements,
        other.tokens = listsInLists.body ↔ other = program) ∧
      tree.GivesLists program listsInLists.last :=
  ⟨_, rfl, parse_lists listsInLists _ rfl⟩

end TokenBuffer

end PipeScript
