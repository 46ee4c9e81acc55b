import Mathlib.Data.List.ReduceOption
import PipeScript.Proofs.Drawing
import PipeScript.Render.Outline

/-!
# Two ways along a chain

Statement chains are walked in two ways. The digraph goes from node to node: `Tree.chainLink?` takes
the statement of a cell and the next node, and drops a next node that is a sentinel. The outline
goes from cursor to cursor: `Tree.nextStatement` reads what there is at a cursor, and may go on
behind a cell that gives nothing. `Tree.links` are the first links that the digraph's loop takes,
and `Digraph.drawChain_eq_links` says that the loop draws these, one by one, and does nothing else.

`Tree.walksAgree` compares the two in any arena: there may be names without nodes, nodes that are no
cells, cells with one slot filled, and chains that lead back into themselves. What the cells of a
chain lead to is left open, so the walks may not end; therefore they are compared link by link.
-/

namespace PipeScript

/-- The items among some answers of a reader that come before the first nothing. -/
def itemsBeforeNothing (answers : List (Option NodeId)) : List NodeId :=
  (answers.takeWhile Option.isSome).reduceOption

theorem itemsBeforeNothing_none (answers : List (Option NodeId)) :
    itemsBeforeNothing (none :: answers) = [] := rfl

theorem itemsBeforeNothing_some (id : NodeId) (answers : List (Option NodeId)) :
    itemsBeforeNothing (some id :: answers) = id :: itemsBeforeNothing answers := rfl

/-- A reader has given so many items when all answers but the last one are items. -/
theorem length_itemsBeforeNothing {answers : List (Option NodeId)} {count : Nat}
    (asked : answers.length = count + 1) :
    (itemsBeforeNothing answers).length = count ↔
      ∃ ids : List NodeId, ids.length = count ∧ answers = ids.map some ++ [none] := by
  induction answers generalizing count with
  | nil => cases asked
  | cons answer answers ih =>
    rw [List.length_cons, Nat.add_right_cancel_iff] at asked
    cases answer with
    | none =>
      rw [itemsBeforeNothing_none, List.length_nil]
      constructor
      · rintro rfl
        exact ⟨[], rfl, by rw [List.length_eq_zero_iff.mp asked]; rfl⟩
      · rintro ⟨ids, length, eq⟩
        cases ids with
        | nil => exact length
        | cons => cases eq
    | some id =>
      rw [itemsBeforeNothing_some, List.length_cons]
      cases count with
      | zero =>
        refine ⟨nofun, ?_⟩
        rintro ⟨ids, length, eq⟩
        rw [List.length_eq_zero_iff.mp length] at eq
        cases eq
      | succ count =>
        rw [Nat.add_right_cancel_iff, ih asked]
        constructor
        · rintro ⟨ids, length, rfl⟩
          exact ⟨id :: ids, congrArg Nat.succ length, rfl⟩
        · rintro ⟨ids, length, eq⟩
          cases ids with
          | nil => cases length
          | cons first ids =>
            cases eq
            exact ⟨ids, Nat.succ.inj length, rfl⟩

/-- What a walk over a chain finds at a cell: the statement, and the node to go on with. -/
structure ChainLink where
  cell : Node
  statement : NodeId
  next : Option Node

namespace Tree

/-- The first links of a chain, which may start at no node at all. -/
def links (tree : Tree) : Nat → Option Node → List ChainLink
  | 0, _ => []
  | _ + 1, none => []
  | limit + 1, some cell =>
    match tree.chainLink? cell with
    | none => []
    | some (statement, next) => ⟨cell, statement, next⟩ :: tree.links limit next

/-- Whether a chain is over when so many nodes have been looked at. -/
def endsWithin (tree : Tree) : Nat → Option Node → Bool
  | _, none => true
  | 0, some _ => false
  | limit + 1, some cell =>
    match tree.chainLink? cell with
    | none => true
    | some (_, next) => tree.endsWithin limit next

variable {tree : Tree} {cell : Node} {statement : NodeId} {next : Option Node}

theorem links_none (tree : Tree) (limit : Nat) : tree.links limit none = [] := by
  cases limit <;> rfl

theorem links_of_link (link : tree.chainLink? cell = some (statement, next)) (limit : Nat) :
    tree.links (limit + 1) (some cell) = ⟨cell, statement, next⟩ :: tree.links limit next := by
  rw [links, link]

theorem links_of_no_link (noLink : tree.chainLink? cell = none) (limit : Nat) :
    tree.links limit (some cell) = [] := by
  cases limit with
  | zero => rfl
  | succ limit => rw [links, noLink]

theorem endsWithin_of_link (link : tree.chainLink? cell = some (statement, next)) (limit : Nat) :
    tree.endsWithin (limit + 1) (some cell) = tree.endsWithin limit next := by
  rw [endsWithin, link]

theorem endsWithin_of_no_link (noLink : tree.chainLink? cell = none) (limit : Nat) :
    tree.endsWithin (limit + 1) (some cell) := by
  rw [endsWithin, noLink]

/-- A chain ends where its last link is taken, and one more is not. -/
theorem endsWithin_iff (count : Nat) (start : Option Node) :
    (∃ limit, tree.endsWithin limit start ∧ (tree.links limit start).length = count) ↔
      (tree.links (count + 1) start).length = count := by
  induction count generalizing start with
  | zero =>
    cases start with
    | none => exact ⟨fun _ => rfl, fun _ => ⟨0, rfl, rfl⟩⟩
    | some cell =>
      cases link : tree.chainLink? cell with
      | none =>
        rw [links_of_no_link link]
        exact ⟨fun _ => rfl, fun _ => ⟨1, endsWithin_of_no_link link 0, by
          rw [links_of_no_link link, List.length_nil]⟩⟩
      | some found =>
        rw [links_of_link link]
        refine ⟨?_, nofun⟩
        rintro ⟨limit, ends, length⟩
        cases limit with
        | zero => cases ends
        | succ limit =>
          rw [links_of_link link] at length
          cases length
  | succ count ih =>
    cases start with
    | none =>
      simp only [links_none]
      exact ⟨fun ⟨_, _, length⟩ => length, fun length => ⟨0, rfl, length⟩⟩
    | some cell =>
      cases link : tree.chainLink? cell with
      | none =>
        simp only [links_of_no_link link]
        exact ⟨fun ⟨_, _, length⟩ => length, nofun⟩
      | some found =>
        obtain ⟨statement, next⟩ := found
        rw [links_of_link link, List.length_cons, Nat.add_right_cancel_iff, ← ih next]
        constructor
        · rintro ⟨limit, ends, length⟩
          cases limit with
          | zero => cases ends
          | succ limit =>
            rw [endsWithin_of_link link] at ends
            rw [links_of_link link, List.length_cons, Nat.add_right_cancel_iff] at length
            exact ⟨limit, ends, length⟩
        · rintro ⟨limit, ends, length⟩
          refine ⟨limit + 1, ?_, ?_⟩
          · rw [endsWithin_of_link link]
            exact ends
          · rw [links_of_link link, List.length_cons, length]

end Tree

/-! ## The loop of the digraph -/

namespace Digraph

variable {tree : Tree}

/-- Draws a link of a chain with what is below its statement. -/
def drawLink (visit : Option NodeId → Visit Digraph) (graph : Digraph) (link : ChainLink) :
    Except Fault Digraph :=
  visit (some link.statement) (graph.drawCell link.cell link.statement link.next)

theorem drawRest_eq_links (visit : Option NodeId → Visit Digraph) (limit : Nat)
    (start : Option Node) (graph : Digraph) :
    drawRest tree visit limit start graph =
      (tree.links limit start).foldlM (drawLink visit) graph >>= fun drawn =>
        if tree.endsWithin limit start then .ok drawn else .error .endless := by
  induction limit generalizing start graph with
  | zero => cases start <;> rfl
  | succ limit ih =>
    cases start with
    | none => rfl
    | some cell =>
      change drawChain tree visit (limit + 1) cell graph = _
      cases link : tree.chainLink? cell with
      | none =>
        rw [Tree.links_of_no_link link, drawChain, link, Tree.endsWithin_of_no_link link]
        rfl
      | some found =>
        obtain ⟨statement, next⟩ := found
        rw [drawChain_cell link, Tree.links_of_link link, Tree.endsWithin_of_link link,
          List.foldlM_cons, bind_assoc]
        exact congrArg (visit _ _ >>= ·) (funext (ih next))

/-- The loop over a chain draws its links one by one. -/
theorem drawChain_eq_links (visit : Option NodeId → Visit Digraph) (limit : Nat) (cell : Node)
    (graph : Digraph) :
    drawChain tree visit limit cell graph =
      (tree.links limit (some cell)).foldlM (drawLink visit) graph >>= fun drawn =>
        if tree.endsWithin limit (some cell) then .ok drawn else .error .endless :=
  drawRest_eq_links visit limit (some cell) graph

end Digraph

/-! ## The reader of the outline -/

namespace Tree

variable {tree : Tree}

/-- At a node, the reader gives what the digraph's loop takes, and both go on with one name. -/
theorem link_or_nothing {cursor : Cursor} {cell : Node} (found : tree.get? cursor = some cell) :
    (∃ statement next, tree.chainLink? cell = some (statement, tree.filled? next) ∧
        tree.nextStatement cursor = (some statement, next)) ∨
      tree.chainLink? cell = none ∧ (tree.nextStatement cursor).1 = none := by
  rw [nextStatement, found, Option.map_some, chainLink?]
  cases cell.kind with
  | statementCell statement next =>
    cases statement with
    | none => exact Or.inr ⟨rfl, rfl⟩
    | some statement => exact Or.inl ⟨statement, next, rfl, rfl⟩
  | _ => exact Or.inr ⟨rfl, rfl⟩

/-- There is no link to be taken from a sentinel. -/
theorem links_filled? (limit : Nat) (slot : Option NodeId) :
    tree.links limit (tree.filled? slot) = tree.links limit (tree.get? slot) := by
  rw [filled?]
  cases tree.get? slot with
  | none => rfl
  | some node =>
    rw [Option.filter_some]
    cases sentinel : node.isSentinel with
    | false => rfl
    | true =>
      have kind : node.kind = .statementCell none none := of_decide_eq_true sentinel
      have noLink : tree.chainLink? node = none := by rw [chainLink?, kind]
      rw [links_of_no_link noLink]
      exact tree.links_none limit

/-- The statements of the links from a cursor on are what the reader gives before it gives
nothing. -/
theorem map_statement_links (limit : Nat) (cursor : Cursor) :
    (tree.links limit (tree.get? cursor)).map ChainLink.statement =
      itemsBeforeNothing (steps tree.nextStatement limit cursor) := by
  induction limit generalizing cursor with
  | zero => rfl
  | succ limit ih =>
    rw [steps]
    cases found : tree.get? cursor with
    | none =>
      have nothing : (tree.nextStatement cursor).1 = none := by
        rw [nextStatement, found]
        rfl
      rw [nothing, itemsBeforeNothing_none]
      rfl
    | some cell =>
      rcases link_or_nothing found with ⟨statement, next, link, taken⟩ | ⟨noLink, nothing⟩
      · rw [links_of_link link, List.map_cons, links_filled?, ih, taken, itemsBeforeNothing_some]
      · rw [links_of_no_link noLink, nothing, itemsBeforeNothing_none]
        rfl

theorem length_steps (step : Cursor → Option NodeId × Cursor) (n : Nat) (cursor : Cursor) :
    (steps step n cursor).length = n := by
  induction n generalizing cursor with
  | zero => rfl
  | succ n ih => rw [steps, List.length_cons, ih]

/-- A reading up to the first nothing gives what comes before it, if that is within its limit. -/
theorem collect_eq (step : Cursor → Option NodeId × Cursor) (found : List NodeId) (limit : Nat)
    (cursor : Cursor) :
    collect step found limit cursor =
      if (itemsBeforeNothing (steps step limit cursor)).length < limit then
        .ok (found.reverse ++ itemsBeforeNothing (steps step limit cursor))
      else .error .endless := by
  induction limit generalizing found cursor with
  | zero => rfl
  | succ limit ih =>
    rw [collect, steps]
    cases taken : step cursor with
    | mk answer next =>
      cases answer with
      | none => simp [itemsBeforeNothing_none]
      | some id => simp [itemsBeforeNothing_some, ih]

/-! ## Both ways -/

/-- Both walks over the statement chain from a node on find the same. -/
structure WalksAgree (tree : Tree) (id : NodeId) (cell : Node) : Prop where
  /-- The statements that the digraph's loop comes to are those that the reader gives before it
  first gives nothing, as far as one cares to look. -/
  statements : ∀ n, (tree.links n (some cell)).map ChainLink.statement =
    itemsBeforeNothing (steps tree.nextStatement n (some id))
  /-- The loop of the digraph draws these links, whatever is done below the statements. -/
  drawn : ∀ visit limit graph, Digraph.drawChain tree visit limit cell graph =
    (tree.links limit (some cell)).foldlM (Digraph.drawLink visit) graph >>= fun drawn =>
      if tree.endsWithin limit (some cell) then .ok drawn else .error .endless
  /-- The outline visits these statements, up to a limit that it has for all chains. -/
  visited : tree.statements id =
    if (tree.links (tree.size + 1) (some cell)).length < tree.size + 1 then
      .ok ((tree.links (tree.size + 1) (some cell)).map ChainLink.statement)
    else .error .endless
  /-- One walk ends if the other does, and after as many statements. -/
  ends : ∀ count, (∃ limit, tree.endsWithin limit (some cell) ∧
      (tree.links limit (some cell)).length = count) ↔
    ∃ ids : List NodeId, ids.length = count ∧
      steps tree.nextStatement (count + 1) (some id) = ids.map some ++ [none]

theorem walksAgree (tree : Tree) (id : NodeId) (cell : Node) (found : tree.node? id = some cell) :
    tree.WalksAgree id cell := by
  have start : tree.get? (some id) = some cell := found
  have statements (n : Nat) := tree.map_statement_links n (some id)
  simp only [start] at statements
  constructor
  case statements => exact statements
  case drawn => exact fun visit limit graph => Digraph.drawChain_eq_links visit limit cell graph
  case visited =>
    rw [Tree.statements, collect_eq, ← statements, List.length_map, List.reverse_nil,
      List.nil_append]
  case ends =>
    intro count
    rw [endsWithin_iff, ← length_itemsBeforeNothing (length_steps ..), ← statements,
      List.length_map]

/-- A chain of two cells that leads back into itself. -/
def loopedChain : Tree where
  toArena := .replay
    [.alloc (.endAt .origin) .sentinel, .alloc (.endAt .origin) .reference,
      .alloc (.endAt .origin) .sentinel, .link 0 1 2, .link 2 1 0]
  root := 0

theorem loopedChain_walksAgree : ∃ cell, loopedChain.node? 2 = some cell ∧
    cell.kind = .statementCell (some 1) (some 0) ∧ loopedChain.WalksAgree 2 cell :=
  ⟨_, rfl, rfl, walksAgree loopedChain 2 _ rfl⟩

end Tree

end PipeScript
