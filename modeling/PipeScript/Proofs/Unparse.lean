import Mathlib.Data.List.Forall2
import PipeScript.Proofs.Layout
import PipeScript.Tree.Walk

/-!
# Writing a tree out again

`Tree.unparse` walks a tree from its root and writes down what the nodes say about the
tokens of the program: at an anchor the token itself, and for `let`, `=`, `}` and `)`, which
anchor no node, their kinds. It follows the child slots and looks at nothing else.

`TokenBuffer.unparse_parse` says that this gives back the whole buffer, token by token, for
every buffer that is parsed. The walk is followed along the layout: over a block of nodes it
writes the tokens of the syntax tree that the block was laid out for.
-/

namespace PipeScript

/-! ## Writing -/

/-- What a tree says about one token: which one it is, or at least its kind. -/
inductive Item
  | anchor (t : Token)
  | mark (kind : Kind)
deriving DecidableEq

namespace Item

/-- The kind of the token. -/
def kind : Item → Kind
  | anchor t => t.kind
  | mark kind => kind

/-- Whether it is true of a token. -/
def StandsFor : Item → Token → Prop
  | anchor u, t => u = t
  | mark kind, t => kind = t.kind

theorem StandsFor.kind_eq {item : Item} {t : Token} (stands : item.StandsFor t) :
    item.kind = t.kind := by
  cases item with
  | anchor u => exact congrArg Token.kind stands
  | mark kind => exact stands

theorem kinds_eq {items : List Item} {ts : List Token} (stand : List.Forall₂ StandsFor items ts) :
    items.map kind = ts.map Token.kind := by
  induction stand with
  | nil => rfl
  | cons stands _ ih => rw [List.map_cons, List.map_cons, stands.kind_eq, ih]

theorem getElem?_of_anchor {items : List Item} {ts : List Token}
    (stand : List.Forall₂ StandsFor items ts) {i : Nat} {t : Token}
    (found : items[i]? = some (anchor t)) : ts[i]? = some t := by
  induction stand generalizing i with
  | nil => exact absurd found (by simp)
  | cons stands _ ih =>
    cases i with
    | zero =>
      cases found
      exact congrArg some stands.symm
    | succ i => exact ih found

end Item

/-- Writes one item behind what is written already. -/
def Item.write (item : Item) : Visit (List Item) := fun written => .ok (written ++ [item])

/-- Writes what stands below a node. -/
def Visitor.unparser (visit : Option NodeId → Visit (List Item)) : Visitor (List Item) where
  onConstant node := (Item.anchor node.token).write
  onReference node := (Item.anchor node.token).write
  onBinary node left right :=
    visit (some left) >=> (Item.anchor node.token).write >=> visit (some right)
  onFunction node body :=
    (Item.anchor node.token).write >=> visit (some body) >=> (Item.mark .rightBrace).write
  onCall node callee arguments :=
    (Item.anchor node.token).write >=> visit (some callee) >=> visit arguments >=>
      (Item.mark .rightParen).write
  onArgumentCell _ argument next := visit (some argument) >=> visit next
  onDefinition node initializer :=
    (Item.mark .letKeyword).write >=> (Item.anchor node.token).write >=>
      (Item.mark .assign).write >=> visit (some initializer)
  onStatementCell _ statement next := visit statement >=> visit next

/-- The tokens of the program that a tree stands for, as far as the tree knows them. -/
def Tree.unparse (tree : Tree) : Except Fault (List Item) :=
  tree.walk .unparser (some tree.root) []

/-! ## What is written -/

/-- A visit goes well, and adds items that stand for some tokens, one by one. -/
def Visit.Writes (visit : Visit (List Item)) (ts : List Token) : Prop :=
  ∃ items, List.Forall₂ Item.StandsFor items ts ∧ ∀ written, visit written = .ok (written ++ items)

namespace Visit.Writes

variable {ts us : List Token}

theorem nothing : Visit.Writes .ok [] :=
  ⟨[], List.Forall₂.nil, fun written => by rw [List.append_nil]⟩

theorem anchor (t : Token) : Visit.Writes (Item.anchor t).write [t] :=
  ⟨[.anchor t], List.Forall₂.cons rfl List.Forall₂.nil, fun _ => rfl⟩

theorem mark {kind : Kind} (t : TokenOf kind) : Visit.Writes (Item.mark kind).write [t.1] :=
  ⟨[.mark kind], List.Forall₂.cons t.2.symm List.Forall₂.nil, fun _ => rfl⟩

theorem andThen {first second : Visit (List Item)} (writes : Visit.Writes first ts)
    (writesToo : Visit.Writes second us) : Visit.Writes (first >=> second) (ts ++ us) := by
  obtain ⟨items, stand, firstEq⟩ := writes
  obtain ⟨others, standToo, secondEq⟩ := writesToo
  refine ⟨items ++ others, List.rel_append stand standToo, fun written => ?_⟩
  change first written >>= second = _
  rw [firstEq, ← List.append_assoc]
  exact secondEq _

end Visit.Writes

/-! ## Walking along a layout -/

namespace Tree

theorem walkTo_none {σ : Type} (tree : Tree) (visitor : (Option NodeId → Visit σ) → Visitor σ)
    (depth : Nat) : tree.walkTo visitor (depth + 1) none = .ok := rfl

/-- At a node that is there, the writer does what it does for a node of its kind. -/
theorem walkTo_unparser {tree : Tree} {n : NodeId} {node : Node}
    (found : tree.node? n = some node) (depth : Nat) :
    tree.walkTo .unparser (depth + 1) (some n) =
      (Visitor.unparser (tree.walkTo .unparser depth)).onKind node := by
  rw [walkTo, dispatch, get?, Option.bind_some, found]
  rfl

/-- A walk over the block of a syntax tree writes the tokens of that tree. -/
theorem writes_layout (tree : Tree) {part : Part} (form : SyntaxTree TokenOf part)
    (follow : Token) (n : NodeId) (block : tree.HasBlock n (form.layout follow n)) (depth : Nat)
    (deep : form.size ≤ depth) :
    Visit.Writes (tree.walkTo .unparser (depth + 1) (form.slot n)) form.tokens := by
  induction form generalizing follow n depth with
  | noStatements =>
    obtain ⟨spare, rfl⟩ := Nat.exists_eq_add_of_le' deep
    rw [SyntaxTree.layout, hasBlock_singleton] at block
    rw [SyntaxTree.slot_eq_some (by decide), SyntaxTree.root, walkTo_unparser block]
    exact Visit.Writes.nothing.andThen Visit.Writes.nothing
  | statements first rest firstIh restIh =>
    obtain ⟨spare, rfl⟩ := Nat.exists_eq_add_of_le' deep
    obtain ⟨found, firstBlock, restBlock⟩ := hasBlock_statements.mp block
    -- One level of depth is spent on the cell, and what is left is enough for either part.
    have firstWrites := firstIh follow _ firstBlock (spare + (first.size + rest.size)) (by omega)
    have restWrites := restIh follow _ restBlock (spare + (first.size + rest.size)) (by omega)
    rw [SyntaxTree.slot_eq_some (by decide)] at firstWrites restWrites ⊢
    rw [SyntaxTree.root_statements] at restWrites
    rw [SyntaxTree.tokens_statements, SyntaxTree.root, walkTo_unparser found]
    exact firstWrites.andThen restWrites
  | definition keyword symbol sign initializer ih =>
    obtain ⟨spare, rfl⟩ := Nat.exists_eq_add_of_le' deep
    obtain ⟨initializerBlock, found⟩ := hasBlock_definition.mp block
    have writes := ih follow n initializerBlock (spare + initializer.size) (by omega)
    rw [SyntaxTree.slot_eq_some (by decide)] at writes ⊢
    rw [SyntaxTree.root, walkTo_unparser found]
    exact (Visit.Writes.mark keyword).andThen ((Visit.Writes.anchor symbol.1).andThen
      ((Visit.Writes.mark sign).andThen writes))
  | plain value ih =>
    have writes := ih follow n block depth deep
    rw [SyntaxTree.slot_eq_some (by decide)] at writes ⊢
    exact writes
  | operand value ih =>
    have writes := ih follow n block depth deep
    rw [SyntaxTree.slot_eq_some (by decide)] at writes ⊢
    exact writes
  | pipe left operator right leftIh rightIh =>
    obtain ⟨spare, rfl⟩ := Nat.exists_eq_add_of_le' deep
    obtain ⟨leftBlock, rightBlock, found⟩ := hasBlock_pipe.mp block
    have leftWrites := leftIh follow n leftBlock (spare + (left.size + right.size)) (by omega)
    have rightWrites := rightIh follow _ rightBlock (spare + (left.size + right.size)) (by omega)
    rw [SyntaxTree.slot_eq_some (by decide)] at leftWrites rightWrites ⊢
    rw [SyntaxTree.tokens_pipe, SyntaxTree.root, walkTo_unparser found]
    exact leftWrites.andThen ((Visit.Writes.anchor operator.1).andThen rightWrites)
  | number digits =>
    rw [SyntaxTree.layout, hasBlock_singleton] at block
    rw [SyntaxTree.slot_eq_some (by decide), SyntaxTree.root, walkTo_unparser block]
    exact Visit.Writes.anchor digits.1
  | name word =>
    rw [SyntaxTree.layout, hasBlock_singleton] at block
    rw [SyntaxTree.slot_eq_some (by decide), SyntaxTree.root, walkTo_unparser block]
    exact Visit.Writes.anchor word.1
  | function opening body closing ih =>
    obtain ⟨spare, rfl⟩ := Nat.exists_eq_add_of_le' deep
    obtain ⟨bodyBlock, found⟩ := hasBlock_function.mp block
    have writes := ih closing.1 n bodyBlock (spare + body.size) (by omega)
    rw [SyntaxTree.slot_eq_some (by decide)] at writes ⊢
    rw [SyntaxTree.tokens_function, SyntaxTree.root, walkTo_unparser found]
    exact (Visit.Writes.anchor opening.1).andThen (writes.andThen (Visit.Writes.mark closing))
  | call opening callee others closing calleeIh othersIh =>
    obtain ⟨spare, rfl⟩ := Nat.exists_eq_add_of_le' deep
    obtain ⟨calleeBlock, othersBlock, found⟩ := hasBlock_call.mp block
    have writes := calleeIh follow n calleeBlock (spare + (callee.size + others.size)) (by omega)
    have othersWrite :=
      othersIh follow _ othersBlock (spare + (callee.size + others.size)) (by omega)
    rw [SyntaxTree.slot_eq_some (by decide)] at writes ⊢
    rw [SyntaxTree.tokens_call, SyntaxTree.root, walkTo_unparser found]
    exact (Visit.Writes.anchor opening.1).andThen (writes.andThen
      (othersWrite.andThen (Visit.Writes.mark closing)))
  | noArguments =>
    rw [SyntaxTree.slot, walkTo_none]
    exact Visit.Writes.nothing
  | arguments first rest firstIh restIh =>
    obtain ⟨spare, rfl⟩ := Nat.exists_eq_add_of_le' deep
    obtain ⟨firstBlock, restBlock, found⟩ := hasBlock_arguments.mp block
    have firstWrites := firstIh follow n firstBlock (spare + (first.size + rest.size)) (by omega)
    have restWrites := restIh follow _ restBlock (spare + (first.size + rest.size)) (by omega)
    rw [SyntaxTree.slot_eq_some (by decide)] at firstWrites
    rw [SyntaxTree.tokens_arguments, SyntaxTree.slot_arguments, walkTo_unparser found]
    exact firstWrites.andThen restWrites

end Tree

/-! ## Parses -/

/-- A tree that a parse gives is written out as the tokens of the buffer before the end of
the input: the same kinds in the same order, and every token that anchors a node stands
where it is written. -/
theorem TokenBuffer.unparse_parse (buffer : TokenBuffer) (tree : Tree)
    (parsed : buffer.parse = .ok tree) :
    ∃ items : List Item,
      tree.unparse = .ok items ∧ items.map Item.kind = buffer.body.map Token.kind ∧
      ∀ (i : Nat) (t : Token), items[i]? = some (.anchor t) → buffer.tokens[i]? = some t := by
  obtain ⟨program, written, root, nodes⟩ := exists_layout parsed
  have block := tree.hasBlock_nodes
  rw [nodes] at block
  have size : program.size = tree.size := by
    rw [Arena.size, ← Array.length_toList, nodes, SyntaxTree.length_layout]
  obtain ⟨items, stand, walked⟩ :=
    tree.writes_layout program buffer.last 0 block _ (Nat.le_of_eq size)
  rw [written] at stand
  rw [SyntaxTree.slot_eq_some (by decide), ← root] at walked
  refine ⟨items, walked [], Item.kinds_eq stand, ?_⟩
  intro i t found
  have inBody := Item.getElem?_of_anchor stand found
  rw [tokens, List.getElem?_append_left (List.getElem?_eq_some_iff.mp inBody).1]
  exact inBody

/-- The tokens of `(f {x} y) |> g`. -/
def TokenBuffer.callInPipe : TokenBuffer where
  body := [.ofLexeme .leftParen ['('] ⟨0, 1, 1⟩, .ofLexeme .identifier ['f'] ⟨1, 1, 2⟩,
    .ofLexeme .leftBrace ['{'] ⟨3, 1, 4⟩, .ofLexeme .identifier ['x'] ⟨4, 1, 5⟩,
    .ofLexeme .rightBrace ['}'] ⟨5, 1, 6⟩, .ofLexeme .identifier ['y'] ⟨7, 1, 8⟩,
    .ofLexeme .rightParen [')'] ⟨8, 1, 9⟩, .ofLexeme .pipe ['|', '>'] ⟨10, 1, 11⟩,
    .ofLexeme .identifier ['g'] ⟨13, 1, 14⟩]
  last := .endAt ⟨14, 1, 15⟩
  body_kind := by decide
  last_kind := rfl

theorem TokenBuffer.unparse_callInPipe :
    ∃ tree, callInPipe.parse = .ok tree ∧ ∃ items : List Item, tree.unparse = .ok items ∧
      items.map Item.kind = callInPipe.body.map Token.kind ∧
      ∀ (i : Nat) (t : Token), items[i]? = some (.anchor t) → callInPipe.tokens[i]? = some t :=
  ⟨_, rfl, unparse_parse callInPipe _ rfl⟩

end PipeScript
