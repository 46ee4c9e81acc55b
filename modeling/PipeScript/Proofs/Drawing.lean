import PipeScript.Proofs.Sites
import PipeScript.Render.Digraph

/-!
# What is drawn of a tree

`Tree.drawing` lists the lines that a node has in a graph: its declaration, and an edge to each
child that is drawn. A call has edges to its arguments and none to their cells, and nothing
leads to a sentinel; these nodes have no lines of their own.

The renderer walks in a way of its own. It draws the cells of a statement list in a loop, and
the arguments of a call twice, once their edges and once what is below them. Over a block of
nodes that was laid out for a syntax tree it draws every node once (`SyntaxTree.drawn`), in
some order: what follows from the lines of each node alone holds of the whole graph.
-/

namespace PipeScript

/-! ## The lines of a node -/

/-- Whether a node has lines in a graph: the cells of argument lists and the sentinels do not. -/
def Node.isDrawn (node : Node) : Bool :=
  match node.kind with
  | .argumentCell _ _ => false
  | _ => !node.isSentinel

namespace Tree

/-- What is in a slot, if it is no sentinel. -/
def unlessSentinel (tree : Tree) (slot : Option NodeId) : List NodeId :=
  slot.toList.filter fun id => !(tree.node? id).any Node.isSentinel

/-- Where the edges of a node lead to, with their labels. -/
def arrows (tree : Tree) (node : Node) : List (NodeId × Option String) :=
  match node.kind with
  | .constant | .reference | .argumentCell _ _ => []
  | .binary left right => [(left, none), (right, none)]
  | .function body => (tree.unlessSentinel (some body)).map (·, some "body")
  | .call callee arguments =>
    (callee, some "fn") :: ((tree.arguments arguments).toOption.getD []).map (·, some "arg")
  | .definition initializer => [(initializer, some "=")]
  | .statementCell statement next =>
    statement.toList.map (·, some "stmt") ++ (tree.unlessSentinel next).map (·, some "next")

/-- The lines of a node: its declaration, labelled with its token, and its edges. -/
def drawing (tree : Tree) (node : Node) : List GraphItem :=
  if node.isDrawn then
    .node node.id node.token.display ::
      (tree.arrows node).map fun arrow => .edge node.id arrow.1 arrow.2
  else
    []

end Tree

/-! ## Visits that draw -/

namespace Digraph

variable {graph : Digraph}

/-- The graph with some more lines. -/
def add (graph : Digraph) (items : List GraphItem) : Digraph := ⟨graph.items ++ items.toArray⟩

theorem add_nil : graph.add [] = graph := by
  simp [add]

theorem add_append (items others : List GraphItem) :
    graph.add (items ++ others) = (graph.add items).add others := by
  simp [add, Array.append_assoc]

theorem add_cons (item : GraphItem) (items : List GraphItem) :
    graph.add (item :: items) = (graph.add [item]).add items :=
  add_append [item] items

theorem declare_eq_add (node : Node) :
    graph.declare node = graph.add [.node node.id node.token.display] := by
  simp [declare, add]

theorem edge_eq_add (source target : NodeId) (label : Option String) :
    graph.edge source target label = graph.add [.edge source target label] := by
  simp [edge, add]

theorem edges_eq_add (source : NodeId) (targets : List NodeId) (label : Option String) :
    graph.edges source targets label =
      graph.add (targets.map fun target => .edge source target label) := by
  unfold edges
  induction targets generalizing graph with
  | nil => exact add_nil.symm
  | cons target targets ih =>
    rw [List.foldl_cons, ih, edge_eq_add, List.map_cons, ← add_cons]

end Digraph

/-- A visit goes well and draws some nodes, one behind the other in some order. -/
def Visit.Draws (tree : Tree) (visit : Visit Digraph) (nodes : List Node) : Prop :=
  ∃ order : List Node, order.Perm nodes ∧
    ∀ graph, visit graph = .ok (graph.add (order.flatMap tree.drawing))

namespace Visit.Draws

variable {tree : Tree} {visit second : Visit Digraph} {nodes others : List Node}

theorem nothing : Visit.Draws tree .ok [] :=
  ⟨[], List.Perm.refl _, fun _ => congrArg Except.ok Digraph.add_nil.symm⟩

/-- A node without lines is drawn by doing nothing. -/
theorem skip (draws : Visit.Draws tree visit nodes) {node : Node} (hidden : node.isDrawn = false) :
    Visit.Draws tree visit (nodes ++ [node]) := by
  obtain ⟨order, perm, eq⟩ := draws
  refine ⟨order ++ [node], perm.append_right [node], fun graph => ?_⟩
  have undrawn : tree.drawing node = [] := if_neg (Bool.eq_false_iff.mp hidden)
  rw [List.flatMap_append, List.flatMap_singleton, undrawn, List.append_nil, eq]

theorem andThen (draws : Visit.Draws tree visit nodes) (drawsToo : Visit.Draws tree second others) :
    Visit.Draws tree (visit >=> second) (nodes ++ others) := by
  obtain ⟨order, perm, eq⟩ := draws
  obtain ⟨orderToo, permToo, eqToo⟩ := drawsToo
  refine ⟨order ++ orderToo, perm.append permToo, fun graph => ?_⟩
  change visit graph >>= second = _
  rw [eq, List.flatMap_append, Digraph.add_append]
  exact eqToo _

/-- A node may be drawn before what is below it. -/
theorem behind (draws : Visit.Draws tree visit nodes) (node : Node) :
    Visit.Draws tree (fun graph => visit (graph.add (tree.drawing node))) (node :: nodes) := by
  obtain ⟨order, perm, eq⟩ := draws
  refine ⟨node :: order, perm.cons node, fun graph => ?_⟩
  rw [List.flatMap_cons, Digraph.add_append]
  exact eq _

/-- Also a node that is laid out behind what is below it. -/
theorem before (draws : Visit.Draws tree visit nodes) (node : Node) :
    Visit.Draws tree (fun graph => visit (graph.add (tree.drawing node))) (nodes ++ [node]) := by
  obtain ⟨order, perm, eq⟩ := draws.behind node
  exact ⟨order, perm.trans (List.perm_append_singleton node nodes).symm, eq⟩

end Visit.Draws

theorem visitAll_cons {σ : Type} (visit : Option NodeId → Visit σ) (slot : Option NodeId)
    (slots : List (Option NodeId)) :
    visitAll visit (slot :: slots) = (visit slot >=> visitAll visit slots) := by
  funext state
  exact List.foldlM_cons

theorem visitAll_singleton {σ : Type} (visit : Option NodeId → Visit σ) (slot : Option NodeId) :
    visitAll visit [slot] = visit slot :=
  (visitAll_cons visit slot []).trans (funext fun _ => bind_pure _)

/-! ## Single nodes -/

namespace Digraph

variable {tree : Tree} {graph : Digraph} {node : Node}

/-- At a node that is there, the renderer does what it does for a node of its kind. -/
theorem walkTo_visitor {n : NodeId} (found : tree.node? n = some node) (depth : Nat) :
    tree.walkTo (visitor tree) (depth + 1) (some n) =
      (visitor tree (tree.walkTo (visitor tree) depth)).onKind node := by
  rw [Tree.walkTo, Tree.dispatch, Tree.get?, Option.bind_some, found]
  rfl

theorem unlessSentinel_some {id : NodeId} (found : tree.node? id = some node) :
    tree.unlessSentinel (some id) = if node.isSentinel then [] else [id] := by
  rw [Tree.unlessSentinel, Option.toList_some]
  cases sentinel : node.isSentinel <;> simp [found, sentinel]

theorem filled?_some {id : NodeId} (found : tree.node? id = some node) :
    tree.filled? (some id) = if node.isSentinel then none else some node := by
  rw [Tree.filled?, Tree.get?, Option.bind_some, found, Option.filter_some]
  cases node.isSentinel <;> rfl

/-- A cell is drawn with its edges to its statement and to the next cell. -/
theorem drawCell_eq_add {cell next : Node} {statement id : NodeId}
    (kind : cell.kind = .statementCell (some statement) (some id))
    (found : tree.node? id = some next) (named : next.id = id) :
    graph.drawCell cell statement (tree.filled? (some id)) = graph.add (tree.drawing cell) := by
  have drawn : cell.isDrawn := by
    simp [Node.isDrawn, Node.isSentinel, kind, NodeKind.sentinel]
  rw [Tree.drawing, if_pos drawn, Tree.arrows, kind]
  simp only [unlessSentinel_some found]
  unfold drawCell
  rw [filled?_some found, declare_eq_add, edge_eq_add]
  cases next.isSentinel with
  | true => simp [← add_append]
  | false => simp [edge_eq_add, ← add_append, named]

/-! A node of any other kind is drawn, and then what is below it. -/

section Kinds

variable (visit : Option NodeId → Visit Digraph)

theorem onKind_leaf (kind : node.kind = .constant ∨ node.kind = .reference) :
    (visitor tree visit).onKind node = fun graph => .ok (graph.add (tree.drawing node)) := by
  funext graph
  rcases kind with kind | kind <;>
    simp [Visitor.onKind, visitor, kind, Tree.drawing, Node.isDrawn, Node.isSentinel,
      NodeKind.sentinel, Tree.arrows, declare_eq_add]

theorem onKind_binary {left right : NodeId} (kind : node.kind = .binary left right) :
    (visitor tree visit).onKind node = fun graph =>
      visitAll visit [some left, some right] (graph.add (tree.drawing node)) := by
  funext graph
  simp [Visitor.onKind, visitor, kind, Tree.drawing, Node.isDrawn, Node.isSentinel,
    NodeKind.sentinel, Tree.arrows, declare_eq_add, edge_eq_add, ← add_append]

theorem onKind_function {body : NodeId} {found : Node} (kind : node.kind = .function body)
    (there : tree.node? body = some found) :
    (visitor tree visit).onKind node = fun graph =>
      visit (some body) (graph.add (tree.drawing node)) := by
  funext graph
  have drawn : node.isDrawn := by
    simp [Node.isDrawn, Node.isSentinel, kind, NodeKind.sentinel]
  rw [Tree.drawing, if_pos drawn, Tree.arrows, kind]
  simp only [unlessSentinel_some there, Visitor.onKind, visitor, kind, there, declare_eq_add]
  cases found.isSentinel with
  | true => rfl
  | false => simp [edge_eq_add, ← add_append]

theorem onKind_call {callee : NodeId} {arguments : Option NodeId} {ids : List NodeId}
    (kind : node.kind = .call callee arguments) (chain : tree.arguments arguments = .ok ids) :
    (visitor tree visit).onKind node = fun graph =>
      visitAll visit (some callee :: ids.map some) (graph.add (tree.drawing node)) := by
  funext graph
  simp [Visitor.onKind, visitor, kind, chain, Tree.drawing, Node.isDrawn, Node.isSentinel,
    NodeKind.sentinel, Tree.arrows, declare_eq_add, edge_eq_add, edges_eq_add, ← add_append]
  rfl

theorem onKind_definition {initializer : NodeId} (kind : node.kind = .definition initializer) :
    (visitor tree visit).onKind node = fun graph =>
      visit (some initializer) (graph.add (tree.drawing node)) := by
  funext graph
  simp [Visitor.onKind, visitor, kind, Tree.drawing, Node.isDrawn, Node.isSentinel,
    NodeKind.sentinel, Tree.arrows, declare_eq_add, edge_eq_add, ← add_append]

end Kinds

/-- Draws the rest of a chain, if there is a next cell. -/
def drawRest (tree : Tree) (visit : Option NodeId → Visit Digraph) (limit : Nat) :
    Option Node → Visit Digraph
  | none => .ok
  | some next => drawChain tree visit limit next

/-- A chain is drawn cell by cell, each with what is below its statement. -/
theorem drawChain_cell {cell : Node} {statement : NodeId} {next : Option Node}
    (link : tree.chainLink? cell = some (statement, next)) (visit : Option NodeId → Visit Digraph)
    (limit : Nat) : drawChain tree visit (limit + 1) cell = fun graph =>
      (visit (some statement) >=> drawRest tree visit limit next)
        (graph.drawCell cell statement next) := by
  funext graph
  simp only [drawChain, link]
  change _ = visit (some statement) (graph.drawCell cell statement next) >>= _
  cases visit (some statement) (graph.drawCell cell statement next) with
  | error fault => rfl
  | ok drawn => cases next <;> rfl

end Digraph

/-! ## Drawing along a layout -/

namespace SyntaxTree

open PipeScript.Digraph (visitor drawChain walkTo_visitor)

/-- What the renderer does where a tree was laid out, with depth enough: it draws all nodes of
the tree. A list of statements is drawn by the loop over its cells, and the arguments of a call
one by one. -/
def Drawn (tree : Tree) : {part : Part} → SyntaxTree TokenOf part → Prop
  | .statements, list => ∀ follow n depth limit cell, tree.HasSite ⟨list, follow, n⟩ →
    list.size ≤ depth → list.size ≤ limit → tree.node? n = some cell →
    Visit.Draws tree (drawChain tree (tree.walkTo (visitor tree) depth) limit cell)
      (list.layout follow n)
  | .arguments, list => ∀ follow n depth, tree.HasSite ⟨list, follow, n⟩ → list.size ≤ depth →
    Visit.Draws tree (visitAll (tree.walkTo (visitor tree) (depth + 1)) ((list.itemIds n).map some))
      (list.layout follow n)
  | _, form => ∀ follow n depth, tree.HasSite ⟨form, follow, n⟩ → form.size ≤ depth →
    Visit.Draws tree (tree.walkTo (visitor tree) (depth + 1) (some (form.root n)))
      (form.layout follow n)

variable {tree : Tree}

theorem drawn_noStatements : (noStatements (α := TokenOf)).Drawn tree := by
  intro follow n depth limit cell has _ enough found
  obtain ⟨spare, rfl⟩ := Nat.exists_eq_add_of_lt enough
  cases found.symm.trans (has.own rfl)
  exact Visit.Draws.nothing.skip rfl

/-- The loop goes on with the next cell of a list, unless that is the sentinel. -/
theorem draws_drawRest {list : SyntaxTree TokenOf .statements} (drawn : list.Drawn tree)
    {follow : Token} {n depth limit : Nat} (has : tree.HasSite ⟨list, follow, n⟩)
    (deep : list.size ≤ depth) (enough : list.size ≤ limit) :
    Visit.Draws tree
      (Digraph.drawRest tree (tree.walkTo (visitor tree) depth) limit (tree.filled? (some n)))
      (list.layout follow n) := by
  cases list with
  | noStatements =>
    rw [Digraph.filled?_some (has.own rfl)]
    exact Visit.Draws.nothing.skip rfl
  | statements =>
    rw [Digraph.filled?_some (has.own rfl)]
    exact drawn follow n depth limit _ has deep enough (has.own rfl)

/-- The node that stands for a list is a cell. -/
theorem exists_own_statements (list : SyntaxTree TokenOf .statements) (follow : Token)
    (n : NodeId) : ∃ cell statement next, (Site.mk list follow n).own? = some cell ∧ cell.id = n ∧
      cell.kind = .statementCell statement next := by
  cases list <;> exact ⟨_, _, _, rfl, rfl, rfl⟩

/-- A visit of a list draws the whole chain. -/
theorem draws_list {list : SyntaxTree TokenOf .statements} (drawn : list.Drawn tree)
    {follow : Token} {n depth : Nat} (has : tree.HasSite ⟨list, follow, n⟩)
    (deep : list.size ≤ depth) :
    Visit.Draws tree (tree.walkTo (visitor tree) (depth + 1) (some n)) (list.layout follow n) := by
  have fits := has.length_le
  rw [Site.nodes, length_layout] at fits
  obtain ⟨cell, statement, next, own, named, kind⟩ := list.exists_own_statements follow n
  have found := has.own own
  rw [named] at found
  have chain : (visitor tree (tree.walkTo (visitor tree) depth)).onKind cell =
      drawChain tree (tree.walkTo (visitor tree) depth) (tree.size + 1) cell := by
    rw [Visitor.onKind, kind]
    rfl
  rw [walkTo_visitor found, chain]
  exact drawn follow n depth _ cell has deep (Nat.le_succ_of_le fits) found

theorem drawn_statements {first : SyntaxTree TokenOf .statement}
    {rest : SyntaxTree TokenOf .statements} (firstDrawn : first.Drawn tree)
    (restDrawn : rest.Drawn tree) : (statements first rest).Drawn tree := by
  intro follow n depth limit cell has deep enough found
  obtain ⟨spare, rfl⟩ := Nat.exists_eq_add_of_lt enough
  obtain ⟨spareDepth, rfl⟩ := Nat.exists_eq_add_of_lt deep
  obtain ⟨hasFirst, hasRest⟩ := has.both rfl
  have same := Option.some.inj (found.symm.trans (has.own rfl))
  have kind : cell.kind =
      .statementCell (some (first.root (n + 1))) (some (n + 1 + first.size)) := by
    rw [same]
  have link : tree.chainLink? cell =
      some (first.root (n + 1), tree.filled? (some (n + 1 + first.size))) := by
    rw [Tree.chainLink?, kind]
  obtain ⟨next, -, -, own, named, -⟩ := rest.exists_own_statements follow (n + 1 + first.size)
  have foundNext := hasRest.own own
  rw [named] at foundNext
  have below := firstDrawn follow (n + 1) (first.size + rest.size + spareDepth) hasFirst (by omega)
  have others : Visit.Draws tree (Digraph.drawRest tree
      (tree.walkTo (visitor tree) (first.size + rest.size + spareDepth + 1))
      (first.size + rest.size + spare) (tree.filled? (some (n + 1 + first.size))))
      (rest.layout follow (n + 1 + first.size)) :=
    draws_drawRest restDrawn hasRest (by omega) (by omega)
  -- The cell comes first, and the loop goes on when what is below its statement is drawn.
  rw [Digraph.drawChain_cell link]
  simp only [Digraph.drawCell_eq_add kind foundNext named]
  rw [layout, ← same]
  exact (below.andThen others).behind cell

theorem drawn_definition {keyword : TokenOf .letKeyword} {symbol : TokenOf .identifier}
    {sign : TokenOf .assign} {initializer : SyntaxTree TokenOf .expression}
    (drawn : initializer.Drawn tree) : (definition keyword symbol sign initializer).Drawn tree := by
  intro follow n depth has deep
  obtain ⟨spare, rfl⟩ := Nat.exists_eq_add_of_lt deep
  have below := drawn follow n (initializer.size + spare) (has.only rfl) (by omega)
  rw [root, walkTo_visitor (has.own rfl), Digraph.onKind_definition _ rfl]
  exact below.before _

theorem drawn_plain {value : SyntaxTree TokenOf .expression} (drawn : value.Drawn tree) :
    (plain value).Drawn tree :=
  fun follow n depth has deep => drawn follow n depth (has.only rfl) deep

theorem drawn_operand {value : SyntaxTree TokenOf .operand} (drawn : value.Drawn tree) :
    (operand value).Drawn tree :=
  fun follow n depth has deep => drawn follow n depth (has.only rfl) deep

theorem drawn_number (digits : TokenOf .number) : (number digits).Drawn tree := by
  intro follow n depth has _
  rw [root, walkTo_visitor (has.own rfl), Digraph.onKind_leaf _ (Or.inl rfl)]
  exact Visit.Draws.nothing.before _

theorem drawn_name (word : TokenOf .identifier) : (name word).Drawn tree := by
  intro follow n depth has _
  rw [root, walkTo_visitor (has.own rfl), Digraph.onKind_leaf _ (Or.inr rfl)]
  exact Visit.Draws.nothing.before _

theorem drawn_pipe {left : SyntaxTree TokenOf .expression} {operator : TokenOf .pipe}
    {right : SyntaxTree TokenOf .operand} (leftDrawn : left.Drawn tree)
    (rightDrawn : right.Drawn tree) : (pipe left operator right).Drawn tree := by
  intro follow n depth has deep
  obtain ⟨spare, rfl⟩ := Nat.exists_eq_add_of_lt deep
  obtain ⟨hasLeft, hasRight⟩ := has.both rfl
  have leftDraws := leftDrawn follow n (left.size + right.size + spare) hasLeft (by omega)
  have rightDraws := rightDrawn follow _ (left.size + right.size + spare) hasRight (by omega)
  have below := leftDraws.andThen (rightDraws.andThen Visit.Draws.nothing)
  rw [List.append_nil] at below
  rw [root, walkTo_visitor (has.own rfl), Digraph.onKind_binary _ rfl]
  simp only [visitAll_cons]
  exact below.before _

theorem drawn_function {opening : TokenOf .leftBrace} {body : SyntaxTree TokenOf .statements}
    {closing : TokenOf .rightBrace} (drawn : body.Drawn tree) :
    (function opening body closing).Drawn tree := by
  intro follow n depth has deep
  obtain ⟨spare, rfl⟩ := Nat.exists_eq_add_of_lt deep
  have hasBody := has.only rfl
  obtain ⟨cell, -, -, own, named, -⟩ := body.exists_own_statements closing.1 n
  have found := hasBody.own own
  rw [named, ← body.root_statements n] at found
  have below : Visit.Draws tree
      (tree.walkTo (visitor tree) (body.size + spare + 1) (some (body.root n)))
      (body.layout closing.1 n) := by
    rw [root_statements]
    exact draws_list drawn hasBody (by omega)
  rw [root, walkTo_visitor (has.own rfl), Digraph.onKind_function _ rfl found]
  exact below.before _

theorem drawn_noArguments : (noArguments (α := TokenOf)).Drawn tree :=
  fun _ _ _ _ _ => Visit.Draws.nothing

theorem drawn_arguments {first : SyntaxTree TokenOf .expression}
    {rest : SyntaxTree TokenOf .arguments} (firstDrawn : first.Drawn tree)
    (restDrawn : rest.Drawn tree) : (arguments first rest).Drawn tree := by
  intro follow n depth has deep
  obtain ⟨hasFirst, hasRest⟩ := has.both rfl
  rw [size] at deep
  have firstDraws := firstDrawn follow n depth hasFirst (by omega)
  have restDraws := restDrawn follow _ depth hasRest (by omega)
  rw [itemIds, List.map_cons, visitAll_cons]
  exact (firstDraws.andThen restDraws).skip rfl

theorem drawn_call {opening : TokenOf .leftParen} {callee : SyntaxTree TokenOf .expression}
    {others : SyntaxTree TokenOf .arguments} {closing : TokenOf .rightParen}
    (calleeDrawn : callee.Drawn tree) (othersDrawn : others.Drawn tree) :
    (call opening callee others closing).Drawn tree := by
  intro follow n depth has deep
  obtain ⟨spare, rfl⟩ := Nat.exists_eq_add_of_lt deep
  obtain ⟨hasCallee, hasOthers⟩ := has.both rfl
  have chain := tree.arguments_of_layout others follow _ hasOthers
  have calleeDraws := calleeDrawn follow n (callee.size + others.size + spare) hasCallee (by omega)
  have othersDraw := othersDrawn follow _ (callee.size + others.size + spare) hasOthers (by omega)
  rw [root, walkTo_visitor (has.own rfl), Digraph.onKind_call _ rfl chain]
  simp only [visitAll_cons]
  exact (calleeDraws.andThen othersDraw).before _

/-- The renderer draws every tree where it was laid out. -/
theorem drawn {part : Part} (form : SyntaxTree TokenOf part) : form.Drawn tree := by
  induction form with
  | noStatements => exact drawn_noStatements
  | statements _ _ first rest => exact drawn_statements first rest
  | definition _ _ _ _ initializer => exact drawn_definition initializer
  | plain _ value => exact drawn_plain value
  | operand _ value => exact drawn_operand value
  | pipe _ _ _ left right => exact drawn_pipe left right
  | number digits => exact drawn_number digits
  | name word => exact drawn_name word
  | function _ _ _ body => exact drawn_function body
  | call _ _ _ _ callee others => exact drawn_call callee others
  | noArguments => exact drawn_noArguments
  | arguments _ _ first rest => exact drawn_arguments first rest

end SyntaxTree

/-! ## Whole graphs -/

/-- Texts that are put behind a text one by one are joined. -/
theorem foldl_text {α : Type} (shown : α → String) (items : List α) (text : String) :
    items.foldl (fun text item => text ++ shown item) text =
      text ++ String.join (items.map shown) := by
  induction items generalizing text with
  | nil => rw [List.foldl_nil, List.map_nil, String.join_nil, String.append_empty]
  | cons item items ih =>
    rw [List.foldl_cons, ih, List.map_cons, String.join_cons, String.append_assoc]

/-- A joined text tells the texts it is made of, if every one of them shows where it ends. -/
theorem join_map_inj {α : Type} {plain : α → Prop} (shown : α → String)
    (nonempty : ∀ a, (shown a).toList ≠ [])
    (apart : ∀ a b, plain a → plain b → ∀ rest behind,
      (shown a).toList ++ rest = (shown b).toList ++ behind → a = b ∧ rest = behind)
    {items others : List α} (itemsPlain : ∀ a ∈ items, plain a)
    (othersPlain : ∀ b ∈ others, plain b)
    (same : String.join (items.map shown) = String.join (others.map shown)) : items = others := by
  have chars := congrArg String.toList same
  simp only [String.toList_join, List.flatMap_map] at chars
  induction items generalizing others with
  | nil =>
    cases others with
    | nil => rfl
    | cons other others =>
      exact absurd (List.append_eq_nil_iff.mp chars.symm).1 (nonempty other)
  | cons item items ih =>
    cases others with
    | nil => exact absurd (List.append_eq_nil_iff.mp chars).1 (nonempty item)
    | cons other others =>
      obtain ⟨itemPlain, itemsPlain⟩ := List.forall_mem_cons.mp itemsPlain
      obtain ⟨otherPlain, othersPlain⟩ := List.forall_mem_cons.mp othersPlain
      obtain ⟨head, tail⟩ := apart item other itemPlain otherPlain _ _ chars
      have joined : String.join (items.map shown) = String.join (others.map shown) := by
        apply String.toList_injective
        simp only [String.toList_join, List.flatMap_map]
        exact tail
      rw [head, ih itemsPlain othersPlain joined tail]

/-- The text of a graph is that of its lines between header and footer. -/
theorem Digraph.text_add (items : List GraphItem) :
    (empty.add items).text =
      graphHeader ++ String.join (items.map GraphItem.text) ++ graphFooter := by
  rw [text, ← Array.foldl_toList, foldl_text]
  simp [add, empty]

/-- The graph of a tree that was laid out has the lines of each node once, whatever was drawn
before. -/
theorem Digraph.render_layout {tree : Tree} {program : SyntaxTree TokenOf .statements}
    {last : Token} (root : tree.root = program.root 0)
    (nodes : tree.nodes.toList = program.layout last 0) (graph : Digraph) :
    ∃ order : List Node, order.Perm tree.nodes.toList ∧
      graph.render tree = .ok (graphHeader ++
        String.join ((order.flatMap tree.drawing).map GraphItem.text) ++ graphFooter, empty) := by
  have has := Tree.hasSite_of_layout nodes
  have deep := Nat.le_of_eq (Tree.size_of_layout nodes)
  obtain ⟨order, perm, walked⟩ := SyntaxTree.draws_list program.drawn has deep
  rw [← nodes] at perm
  refine ⟨order, perm, ?_⟩
  rw [SyntaxTree.root_statements] at root
  rw [render, Tree.walk, root, ← text_add]
  change (tree.walkTo (visitor tree) (tree.size + 1) (some 0) empty >>= _) = _
  rw [walked]
  rfl

end PipeScript
