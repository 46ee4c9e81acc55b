import PipeScript.Proofs.Layout

/-!
# The parts of a tree in its arena

A `Site` is a syntax tree with its place in an arena: the name that its first node gets, and
the token behind it. `Site.parts` are the sites of the trees it is directly made of, and
`Site.own?` is the node that it adds to theirs. A statement that is an expression and an
expression that is an operand add none, and neither does an empty argument list.

What holds of a layout comes from what holds of one site and its parts. The nodes of a site
are its own one and those of its parts (`Site.nodes_perm`), under consecutive names
(`Site.ids_nodes`), and the slots of the own node hold the parts (`Site.children_own`). Where
a site stands in an arena, its own node and its parts stand (`Tree.hasSite_iff`), and what
fills its slot is a node of the right kind (`Tree.HasSite.shows`).
-/

namespace PipeScript

/-- The child slots of a kind that are filled. -/
def NodeKind.children (kind : NodeKind) : List NodeId := kind.slots.reduceOption

namespace NodeKind

@[simp] theorem children_binary (left right : NodeId) :
    (binary left right).children = [left, right] := rfl

@[simp] theorem children_function (body : NodeId) : (function body).children = [body] := rfl

@[simp] theorem children_call (callee : NodeId) (arguments : Option NodeId) :
    (call callee arguments).children = callee :: arguments.toList := by
  cases arguments <;> rfl

@[simp] theorem children_argumentCell (argument : NodeId) (next : Option NodeId) :
    (argumentCell argument next).children = argument :: next.toList := by
  cases next <;> rfl

@[simp] theorem children_definition (initializer : NodeId) :
    (definition initializer).children = [initializer] := rfl

@[simp] theorem children_statementCell (statement next : Option NodeId) :
    (statementCell statement next).children = statement.toList ++ next.toList := by
  cases statement <;> cases next <;> rfl

end NodeKind

/-! ## Sites -/

/-- A syntax tree at its place in an arena. -/
structure Site where
  {part : Part}
  form : SyntaxTree TokenOf part
  /-- The token behind the tree. -/
  follow : Token
  /-- The name of the first node. -/
  start : NodeId

namespace Site

open SyntaxTree (noStatements statements definition plain operand pipe number name function call
  noArguments arguments)

/-- The nodes that are laid out for a site. -/
def nodes (site : Site) : List Node := site.form.layout site.follow site.start

/-- The slot that a site fills. -/
def slot (site : Site) : Option NodeId := site.form.slot site.start

/-- The trees that a tree is directly made of, from left to right. -/
def parts : Site → List Site
  | ⟨noStatements, _, _⟩ => []
  | ⟨statements first rest, follow, n⟩ =>
    [⟨first, follow, n + 1⟩, ⟨rest, follow, n + 1 + first.size⟩]
  | ⟨definition _ _ _ initializer, follow, n⟩ => [⟨initializer, follow, n⟩]
  | ⟨plain value, follow, n⟩ => [⟨value, follow, n⟩]
  | ⟨operand value, follow, n⟩ => [⟨value, follow, n⟩]
  | ⟨pipe left _ right, follow, n⟩ => [⟨left, follow, n⟩, ⟨right, follow, n + left.size⟩]
  | ⟨number _, _, _⟩ => []
  | ⟨name _, _, _⟩ => []
  | ⟨function _ body closing, _, n⟩ => [⟨body, closing.1, n⟩]
  | ⟨call _ callee others _, follow, n⟩ =>
    [⟨callee, follow, n⟩, ⟨others, follow, n + callee.size⟩]
  | ⟨noArguments, _, _⟩ => []
  | ⟨arguments first rest, follow, n⟩ => [⟨first, follow, n⟩, ⟨rest, follow, n + first.size⟩]

/-- The node that a tree adds to those of its parts. -/
def own? : Site → Option Node
  | ⟨noStatements, follow, n⟩ => some ⟨n, follow, .sentinel⟩
  | ⟨statements first _, follow, n⟩ =>
    some ⟨n, first.tokens.headD follow,
      .statementCell (some (first.root (n + 1))) (some (n + 1 + first.size))⟩
  | ⟨definition _ symbol _ initializer, _, n⟩ =>
    some ⟨n + initializer.size, symbol.1, .definition (initializer.root n)⟩
  | ⟨plain _, _, _⟩ => none
  | ⟨operand _, _, _⟩ => none
  | ⟨pipe left operator right, _, n⟩ =>
    some ⟨n + left.size + right.size, operator.1,
      .binary (left.root n) (right.root (n + left.size))⟩
  | ⟨number digits, _, n⟩ => some ⟨n, digits.1, .constant⟩
  | ⟨name word, _, n⟩ => some ⟨n, word.1, .reference⟩
  | ⟨function opening body _, _, n⟩ =>
    some ⟨n + body.size, opening.1, .function (body.root n)⟩
  | ⟨call opening callee others _, _, n⟩ =>
    some ⟨n + callee.size + others.size, opening.1,
      .call (callee.root n) (others.slot (n + callee.size))⟩
  | ⟨noArguments, _, _⟩ => none
  | ⟨arguments first rest, follow, n⟩ =>
    some ⟨n + first.size + rest.size, first.tokens.headD follow,
      .argumentCell (first.root n) (rest.slot (n + first.size))⟩

/-- What holds of a site whenever it holds of its parts holds of every site. -/
theorem induction {motive : Site → Prop}
    (step : ∀ site, (∀ part ∈ site.parts, motive part) → motive site) (site : Site) :
    motive site := by
  obtain ⟨form, follow, n⟩ := site
  induction form generalizing follow n with
  | noStatements => exact step _ (by simp [parts])
  | statements first rest firstIh restIh => exact step _ (by simp [parts, firstIh, restIh])
  | definition _ _ _ initializer ih => exact step _ (by simp [parts, ih])
  | plain value ih => exact step _ (by simp [parts, ih])
  | operand value ih => exact step _ (by simp [parts, ih])
  | pipe left _ right leftIh rightIh => exact step _ (by simp [parts, leftIh, rightIh])
  | number => exact step _ (by simp [parts])
  | name => exact step _ (by simp [parts])
  | function _ body _ ih => exact step _ (by simp [parts, ih])
  | call _ callee others _ calleeIh othersIh => exact step _ (by simp [parts, calleeIh, othersIh])
  | noArguments => exact step _ (by simp [parts])
  | arguments first rest firstIh restIh => exact step _ (by simp [parts, firstIh, restIh])

/-- The nodes of a site are its own node and those of its parts. -/
theorem nodes_perm (site : Site) :
    (site.nodes).Perm (site.own?.toList ++ site.parts.flatMap nodes) := by
  obtain ⟨form, follow, n⟩ := site
  cases form with
  | noStatements => exact List.Perm.refl _
  | statements first rest => simp [nodes, own?, parts, SyntaxTree.layout]
  | definition => simp [nodes, own?, parts, SyntaxTree.layout, List.perm_append_singleton]
  | plain => simp [nodes, own?, parts, SyntaxTree.layout]
  | operand => simp [nodes, own?, parts, SyntaxTree.layout]
  | pipe =>
    simpa [nodes, own?, parts, SyntaxTree.layout] using List.perm_append_singleton _ (_ ++ _)
  | number => exact List.Perm.refl _
  | name => exact List.Perm.refl _
  | function => simp [nodes, own?, parts, SyntaxTree.layout, List.perm_append_singleton]
  | call =>
    simpa [nodes, own?, parts, SyntaxTree.layout] using List.perm_append_singleton _ (_ ++ _)
  | noArguments => exact List.Perm.refl _
  | arguments =>
    simpa [nodes, own?, parts, SyntaxTree.layout] using List.perm_append_singleton _ (_ ++ _)

/-- Two blocks and a node behind them. -/
theorem range'_concat_behind (n k m : Nat) :
    List.range' n k ++ List.range' (n + k) m ++ [n + k + m] = List.range' n (k + m + 1) := by
  rw [List.range'_append_1, List.range'_1_concat, Nat.add_assoc]

/-- The names in a block are consecutive. -/
theorem ids_nodes (site : Site) :
    site.nodes.map Node.id = List.range' site.start site.form.size := by
  obtain ⟨form, follow, n⟩ := site
  change (form.layout follow n).map Node.id = List.range' n form.size
  induction form generalizing follow n with
  | noStatements => rfl
  | statements first rest firstIh restIh =>
    simp only [SyntaxTree.layout, SyntaxTree.size, List.map_cons, List.map_append, firstIh, restIh,
      List.range'_append_1]
    rfl
  | definition _ _ _ initializer ih =>
    simp only [SyntaxTree.layout, SyntaxTree.size, List.map_append, ih, List.range'_1_concat]
    rfl
  | plain value ih => exact ih follow n
  | operand value ih => exact ih follow n
  | pipe left _ right leftIh rightIh =>
    simp only [SyntaxTree.layout, SyntaxTree.size, List.map_append, leftIh, rightIh]
    exact range'_concat_behind n left.size right.size
  | number => rfl
  | name => rfl
  | function _ body closing ih =>
    simp only [SyntaxTree.layout, SyntaxTree.size, List.map_append, ih, List.range'_1_concat]
    rfl
  | call _ callee others _ calleeIh othersIh =>
    simp only [SyntaxTree.layout, SyntaxTree.size, List.map_append, calleeIh, othersIh]
    exact range'_concat_behind n callee.size others.size
  | noArguments => rfl
  | arguments first rest firstIh restIh =>
    simp only [SyntaxTree.layout, SyntaxTree.size, List.map_append, firstIh, restIh]
    exact range'_concat_behind n first.size rest.size

/-- The own node of a site stands for it, and its slots hold the parts of the site in order. -/
theorem children_own {site : Site} {node : Node} (own : site.own? = some node) :
    site.slot = some node.id ∧
      node.kind.children = site.parts.flatMap fun part => part.slot.toList := by
  obtain ⟨form, follow, n⟩ := site
  have root {part : Part} (notArguments : part ≠ .arguments) (form : SyntaxTree TokenOf part)
      (n : NodeId) : (form.slot n).toList = [form.root n] := by
    rw [SyntaxTree.slot_eq_some notArguments]
    rfl
  cases form with
  | noStatements =>
    cases own
    exact ⟨rfl, rfl⟩
  | statements first rest =>
    cases own
    exact ⟨rfl, by simp [parts, slot, root, SyntaxTree.root_statements]⟩
  | definition =>
    cases own
    exact ⟨rfl, by simp [parts, slot, root]⟩
  | plain => cases own
  | operand => cases own
  | pipe =>
    cases own
    exact ⟨rfl, by simp [parts, slot, root]⟩
  | number =>
    cases own
    exact ⟨rfl, rfl⟩
  | name =>
    cases own
    exact ⟨rfl, rfl⟩
  | function =>
    cases own
    exact ⟨rfl, by simp [parts, slot, root]⟩
  | call =>
    cases own
    exact ⟨rfl, by simp [parts, slot, root]⟩
  | noArguments => cases own
  | arguments =>
    cases own
    exact ⟨rfl, by simp [parts, slot, root]⟩

/-- A tree without a node of its own is what stands for its only part. -/
theorem slot_of_own?_eq_none {site : Site} (own : site.own? = none) :
    site.slot.toList = site.parts.flatMap fun part => part.slot.toList := by
  obtain ⟨form, follow, n⟩ := site
  cases form with
  | plain value => simp [slot, parts, SyntaxTree.slot_eq_some, SyntaxTree.root]
  | operand value => simp [slot, parts, SyntaxTree.slot_eq_some, SyntaxTree.root]
  | noArguments => rfl
  | _ => cases own

/-- A site is a part of another one, or a part of a part of it, and so on, or the site itself. -/
inductive Within : Site → Site → Prop
  | refl {site : Site} : Within site site
  | step {inner part whole : Site} : Within inner part → part ∈ whole.parts → Within inner whole

/-- A node of a site is the own node of some site within it. -/
theorem exists_own {node : Node} (site : Site) (mem : node ∈ site.nodes) :
    ∃ inner : Site, inner.Within site ∧ inner.own? = some node := by
  induction site using Site.induction with
  | step site ih =>
    rcases List.mem_append.mp (site.nodes_perm.mem_iff.mp mem) with own | below
    · exact ⟨site, Within.refl, Option.mem_toList.mp own⟩
    · obtain ⟨part, isPart, inPart⟩ := List.mem_flatMap.mp below
      obtain ⟨inner, within, own⟩ := ih part isPart inPart
      exact ⟨inner, Within.step within isPart, own⟩

end Site

/-! ## Sites in an arena -/

namespace Tree

variable {tree : Tree} {site part inner : Site} {node : Node}

/-- A site stands in an arena if its nodes do. -/
def HasSite (tree : Tree) (site : Site) : Prop := tree.HasBlock site.start site.nodes

/-- Where a site stands, its own node and its parts stand. -/
theorem hasSite_iff :
    tree.HasSite site ↔ (∀ node, site.own? = some node → tree.node? node.id = some node) ∧
      ∀ part ∈ site.parts, tree.HasSite part := by
  obtain ⟨form, follow, n⟩ := site
  change tree.HasBlock n (form.layout follow n) ↔ _
  cases form with
  | noStatements => simp [SyntaxTree.layout, hasBlock_singleton, Site.own?, Site.parts]
  | statements =>
    simp [hasBlock_statements, Site.own?, Site.parts, HasSite, Site.nodes]
  | definition =>
    simp [hasBlock_definition, Site.own?, Site.parts, HasSite, Site.nodes, and_comm]
  | plain => simp [Site.own?, Site.parts, HasSite, Site.nodes, SyntaxTree.layout]
  | operand => simp [Site.own?, Site.parts, HasSite, Site.nodes, SyntaxTree.layout]
  | pipe =>
    simp [hasBlock_pipe, Site.own?, Site.parts, HasSite, Site.nodes, and_comm, and_assoc]
  | number => simp [SyntaxTree.layout, hasBlock_singleton, Site.own?, Site.parts]
  | name => simp [SyntaxTree.layout, hasBlock_singleton, Site.own?, Site.parts]
  | function =>
    simp [hasBlock_function, Site.own?, Site.parts, HasSite, Site.nodes, and_comm]
  | call =>
    simp [hasBlock_call, Site.own?, Site.parts, HasSite, Site.nodes, and_comm, and_assoc]
  | noArguments => simp [SyntaxTree.layout, HasBlock, Site.own?, Site.parts]
  | arguments =>
    simp [hasBlock_arguments, Site.own?, Site.parts, HasSite, Site.nodes, and_comm, and_assoc]

theorem HasSite.own (has : tree.HasSite site) (own : site.own? = some node) :
    tree.node? node.id = some node := (hasSite_iff.mp has).1 node own

theorem HasSite.parts (has : tree.HasSite site) (isPart : part ∈ site.parts) :
    tree.HasSite part := (hasSite_iff.mp has).2 part isPart

theorem HasSite.only (has : tree.HasSite site) (parts : site.parts = [part]) :
    tree.HasSite part := has.parts (by simp [parts])

theorem HasSite.both {first second : Site} (has : tree.HasSite site)
    (parts : site.parts = [first, second]) : tree.HasSite first ∧ tree.HasSite second :=
  ⟨has.parts (by simp [parts]), has.parts (by simp [parts])⟩

theorem HasSite.within (has : tree.HasSite site) (within : inner.Within site) :
    tree.HasSite inner := by
  induction within with
  | refl => exact has
  | step _ isPart ih => exact ih (has.parts isPart)

/-- An arena that is the layout of a program holds it. -/
theorem hasSite_of_layout {program : SyntaxTree TokenOf .statements} {last : Token}
    (nodes : tree.nodes.toList = program.layout last 0) : tree.HasSite ⟨program, last, 0⟩ := by
  have block := tree.hasBlock_nodes
  rw [nodes] at block
  exact block

theorem size_of_layout {program : SyntaxTree TokenOf .statements} {last : Token}
    (nodes : tree.nodes.toList = program.layout last 0) : program.size = tree.size := by
  rw [Arena.size, ← Array.length_toList, nodes, SyntaxTree.length_layout]

/-- The nodes of a program are named by their positions. -/
theorem ids_of_layout {program : SyntaxTree TokenOf .statements} {last : Token}
    (nodes : tree.nodes.toList = program.layout last 0) :
    tree.nodes.toList.map Node.id = List.range tree.size := by
  rw [nodes, ← size_of_layout nodes, List.range_eq_range']
  exact Site.ids_nodes ⟨program, last, 0⟩

/-- Sites that fill one slot have one own node. -/
theorem HasSite.own_eq {other : Site} {u v : Node} (has : tree.HasSite site)
    (hasOther : tree.HasSite other) (same : site.slot = other.slot) (own : site.own? = some u)
    (ownOther : other.own? = some v) : u = v := by
  have ids : some u.id = some v.id := by
    rw [← (Site.children_own own).1, same, (Site.children_own ownOther).1]
  have found := has.own own
  rw [Option.some.inj ids, hasOther.own ownOther] at found
  exact (Option.some.inj found).symm

end Tree

/-! ## Kinds of nodes and sorts of trees -/

/-- Whether a node of this kind stands for an operand. -/
def NodeKind.isOperand : NodeKind → Bool
  | constant | reference | function _ | call _ _ => true
  | _ => false

/-- Whether a node of this kind stands for an expression. -/
def NodeKind.isExpression : NodeKind → Bool
  | binary _ _ => true
  | kind => kind.isOperand

/-- Whether a node of this kind stands for a tree of this sort. -/
def Part.admits : Part → NodeKind → Bool
  | statements, .statementCell _ _ => true
  | statement, .definition _ => true
  | statement, kind | expression, kind => kind.isExpression
  | operand, kind => kind.isOperand
  | arguments, .argumentCell _ _ => true
  | _, _ => false

theorem Part.admits_expression {kind : NodeKind} (admits : operand.admits kind) :
    expression.admits kind := by
  cases kind <;> first | exact admits | contradiction

theorem Part.admits_statement {kind : NodeKind} (admits : expression.admits kind) :
    statement.admits kind := by
  cases kind <;> first | exact admits | contradiction

/-- A name in an arena stands for a tree of a sort. -/
def Tree.Shows (tree : Tree) (part : Part) (id : NodeId) : Prop :=
  ∃ node, tree.node? id = some node ∧ part.admits node.kind

theorem Site.admits_own {site : Site} {node : Node} (own : site.own? = some node) :
    site.part.admits node.kind := by
  obtain ⟨form, follow, n⟩ := site
  cases form <;> cases own <;> rfl

/-- What fills the slot of a tree stands for a tree of its sort. -/
theorem Tree.HasSite.shows {tree : Tree} {site : Site} (has : tree.HasSite site) {id : NodeId}
    (slot : site.slot = some id) : tree.Shows site.part id := by
  induction site using Site.induction with
  | step site ih =>
    cases own : site.own? with
    | some node =>
      rw [(Site.children_own own).1] at slot
      cases slot
      exact ⟨node, has.own own, Site.admits_own own⟩
    | none =>
      obtain ⟨form, follow, n⟩ := site
      cases form with
      | plain value =>
        obtain ⟨node, found, admits⟩ :=
          ih ⟨value, follow, n⟩ List.mem_cons_self (has.only rfl) (by
            rw [← slot]
            exact SyntaxTree.slot_eq_some (by decide) value n)
        exact ⟨node, found, Part.admits_statement admits⟩
      | operand value =>
        obtain ⟨node, found, admits⟩ :=
          ih ⟨value, follow, n⟩ List.mem_cons_self (has.only rfl) (by
            rw [← slot]
            exact SyntaxTree.slot_eq_some (by decide) value n)
        exact ⟨node, found, Part.admits_expression admits⟩
      | noArguments => cases slot
      | _ => cases own

end PipeScript
