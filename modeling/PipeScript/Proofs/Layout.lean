import PipeScript.Proofs.ParserRun
import PipeScript.Proofs.SyntaxTree
import PipeScript.Tree.Chain

/-!
# The layout of a tree in its arena

`SyntaxTree.layout` lists the nodes of a syntax tree in creation order, each with its name,
its anchor and its child slots filled in, for a tree whose first node gets a given name. It
is a function on trees: every subtree takes up a block of `SyntaxTree.size` nodes that
starts where the blocks before it end.

`SyntaxTree.Builds` says, for each sort of tree, what the parser does on its tokens: it
reads them all, and leaves behind the nodes of the layout. `TokenBuffer.parse_layout` puts
this together for programs: a buffer that a syntax tree writes is parsed, and the nodes in
the arena are the layout of that tree.
-/

namespace PipeScript

namespace SyntaxTree

/-! ## Blocks of nodes -/

/-- How many nodes a tree takes up. -/
def size {α : Kind → Type} : {part : Part} → SyntaxTree α part → Nat
  | _, noStatements => 1
  | _, statements first rest => first.size + rest.size + 1
  | _, definition _ _ _ initializer => initializer.size + 1
  | _, plain value => value.size
  | _, operand value => value.size
  | _, pipe left _ right => left.size + right.size + 1
  | _, number _ => 1
  | _, name _ => 1
  | _, function _ body _ => body.size + 1
  | _, call _ callee others _ => callee.size + others.size + 1
  | _, noArguments => 0
  | _, arguments first rest => first.size + rest.size + 1

/-- The node that stands for a tree whose first node has a given name: the first cell of a
list of statements, and the last node of anything else. -/
def root {α : Kind → Type} : {part : Part} → SyntaxTree α part → NodeId → NodeId
  | _, noStatements, n => n
  | _, statements _ _, n => n
  | _, definition _ _ _ initializer, n => n + initializer.size
  | _, plain value, n => value.root n
  | _, operand value, n => value.root n
  | _, pipe left _ right, n => n + left.size + right.size
  | _, number _, n => n
  | _, name _, n => n
  | _, function _ body _, n => n + body.size
  | _, call _ callee others _, n => n + callee.size + others.size
  | _, noArguments, n => n
  | _, arguments first rest, n => n + first.size + rest.size

/-- A list of statements is known by its first cell. -/
theorem root_statements {α : Kind → Type} (list : SyntaxTree α .statements) (n : NodeId) :
    list.root n = n := by
  cases list <;> rfl

/-- The slot that a tree fills. It is empty where there are no arguments. -/
def slot {α : Kind → Type} : {part : Part} → SyntaxTree α part → NodeId → Option NodeId
  | _, noArguments, _ => none
  | _, tree, n => some (tree.root n)

theorem slot_eq_some {α : Kind → Type} {part : Part} (notArguments : part ≠ .arguments)
    (tree : SyntaxTree α part) (n : NodeId) : tree.slot n = some (tree.root n) := by
  cases tree <;> first | rfl | contradiction

theorem slot_statements {α : Kind → Type} (list : SyntaxTree α .statements) (n : NodeId) :
    list.slot n = some n := by
  rw [slot_eq_some (by decide), root_statements]

theorem slot_arguments {α : Kind → Type} (first : SyntaxTree α .expression)
    (rest : SyntaxTree α .arguments) (n : NodeId) :
    (arguments first rest).slot n = some (n + first.size + rest.size) := rfl

/-- The statements of a list or the arguments of a call, by the nodes that stand for them. -/
def itemIds {α : Kind → Type} : {part : Part} → SyntaxTree α part → NodeId → List NodeId
  | _, statements first rest, n => first.root (n + 1) :: rest.itemIds (n + 1 + first.size)
  | _, arguments first rest, n => first.root n :: rest.itemIds (n + first.size)
  | _, _, _ => []

theorem itemIds_noStatements {α : Kind → Type} (n : NodeId) :
    (noStatements (α := α)).itemIds n = [] := rfl

theorem itemIds_noArguments {α : Kind → Type} (n : NodeId) :
    (noArguments (α := α)).itemIds n = [] := rfl

/-- The nodes of a tree in creation order, if the first of them has a given name. The cells
of a list of statements are anchored at the tokens that follow them; behind the tree that
is `follow`. -/
def layout : {part : Part} → SyntaxTree TokenOf part → (follow : Token) → NodeId → List Node
  | _, noStatements, follow, n => [⟨n, follow, .sentinel⟩]
  | _, statements first rest, follow, n =>
    let next := n + 1 + first.size
    ⟨n, first.tokens.headD follow, .statementCell (some (first.root (n + 1))) (some next)⟩ ::
      (first.layout follow (n + 1) ++ rest.layout follow next)
  | _, definition _ symbol _ initializer, follow, n =>
    initializer.layout follow n ++
      [⟨n + initializer.size, symbol.1, .definition (initializer.root n)⟩]
  | _, plain value, follow, n => value.layout follow n
  | _, operand value, follow, n => value.layout follow n
  | _, pipe left operator right, follow, n =>
    left.layout follow n ++ right.layout follow (n + left.size) ++
      [⟨n + left.size + right.size, operator.1,
        .binary (left.root n) (right.root (n + left.size))⟩]
  | _, number digits, _, n => [⟨n, digits.1, .constant⟩]
  | _, name word, _, n => [⟨n, word.1, .reference⟩]
  | _, function opening body closing, _, n =>
    body.layout closing.1 n ++ [⟨n + body.size, opening.1, .function (body.root n)⟩]
  | _, call opening callee others _, follow, n =>
    callee.layout follow n ++ others.layout follow (n + callee.size) ++
      [⟨n + callee.size + others.size, opening.1,
        .call (callee.root n) (others.slot (n + callee.size))⟩]
  | _, noArguments, _, _ => []
  | _, arguments first rest, follow, n =>
    first.layout follow n ++ rest.layout follow (n + first.size) ++
      [⟨n + first.size + rest.size, first.tokens.headD follow,
        .argumentCell (first.root n) (rest.slot (n + first.size))⟩]

@[simp] theorem length_layout {part : Part} (tree : SyntaxTree TokenOf part) (follow : Token)
    (n : NodeId) : (tree.layout follow n).length = tree.size := by
  induction tree generalizing follow n with
  | noStatements => rfl
  | statements first rest firstIh restIh =>
    simp only [layout, size, List.length_cons, List.length_append, firstIh, restIh]
  | definition _ _ _ initializer ih => simp [layout, size, ih]
  | plain value ih => exact ih follow n
  | operand value ih => exact ih follow n
  | pipe left _ right leftIh rightIh => simp [layout, size, leftIh, rightIh, Nat.add_assoc]
  | number => rfl
  | name => rfl
  | function _ body _ ih => simp [layout, size, ih]
  | call _ callee others _ calleeIh othersIh =>
    simp [layout, size, calleeIh, othersIh, Nat.add_assoc]
  | noArguments => rfl
  | arguments first rest firstIh restIh =>
    simp [layout, size, firstIh, restIh, Nat.add_assoc]

end SyntaxTree

/-! ## Drafts and their nodes -/

/-- The nodes that a draft builds. -/
structure Draft.Holds (draft : Draft) (nodes : List Node) : Prop where
  nodes_eq : draft.arena.nodes.toList = nodes
  size_eq : draft.size = nodes.length

namespace Draft

variable {draft : Draft} {nodes : List Node}

theorem empty_holds : Draft.empty.Holds [] := ⟨rfl, rfl⟩

theorem arena_alloc (draft : Draft) (t : Token) (kind : NodeKind) :
    (draft.alloc t kind).2.arena = draft.arena.alloc t kind := by
  simp [arena, alloc, Arena.replay, List.foldl_append, Arena.edit]

theorem arena_link (draft : Draft) (cell statement next : NodeId) :
    (draft.link cell statement next).arena = draft.arena.link cell statement next := by
  simp [arena, link, Arena.replay, List.foldl_append, Arena.edit]

theorem Holds.alloc (holds : draft.Holds nodes) (t : Token) (kind : NodeKind) :
    (draft.alloc t kind).2.Holds (nodes ++ [⟨nodes.length, t, kind⟩]) := by
  constructor
  · rw [arena_alloc, Arena.alloc, Array.toList_push, holds.nodes_eq, Arena.size,
      ← Array.length_toList, holds.nodes_eq]
  · rw [List.length_append, ← holds.size_eq]
    rfl

/-- A node behind two blocks gets the name behind both. -/
theorem Holds.alloc_behind {first second : List Node}
    (holds : draft.Holds (nodes ++ first ++ second)) (t : Token) (kind : NodeKind) :
    draft.size = nodes.length + first.length + second.length ∧
      (draft.alloc t kind).2.Holds (nodes ++ (first ++ second ++
        [⟨nodes.length + first.length + second.length, t, kind⟩])) := by
  have size : draft.size = nodes.length + first.length + second.length := by
    rw [holds.size_eq, List.length_append, List.length_append]
  have added := holds.alloc t kind
  rw [← holds.size_eq, size, List.append_assoc nodes, List.append_assoc nodes] at added
  exact ⟨size, added⟩

/-- A cell is filled in where it stands. -/
theorem Holds.link {before after : List Node} {cell : Node}
    (holds : draft.Holds (before ++ cell :: after)) (statement next : NodeId) :
    (draft.link before.length statement next).Holds
      (before ++ { cell with kind := .statementCell (some statement) (some next) } :: after) := by
  constructor
  · rw [arena_link, Arena.link, Array.toList_modify, holds.nodes_eq]
    exact List.modifyTailIdx_add _ 0 before (cell :: after)
  · have size := holds.size_eq
    simp only [List.length_append, List.length_cons] at size ⊢
    exact size

end Draft

/-! ## Building -/

namespace Parse

/-- A token at a control is taken as the start of a statement or the end of a list. Behind
some nodes, the open cell of that list is the last one, anchored at the token. -/
def OpensCell (t : Token) (control : Control) (draft : Draft) (block : Block) (head : NodeId)
    (nodes : List Node) : Prop :=
  ∃ draft', step t control draft = takeStatement t block ⟨head, nodes.length⟩ draft' ∧
    draft'.Holds (nodes ++ [⟨nodes.length, t, .sentinel⟩])

variable {t first : Token} {draft : Draft} {nodes inner : List Node}

theorem opensCell_opened (holds : draft.Holds nodes) (block : Block) (t : Token) :
    OpensCell t (.opened block) draft block nodes.length nodes := by
  refine ⟨_, ?_, holds.alloc t .sentinel⟩
  rw [← holds.size_eq]
  rfl

/-- Behind an expression in a list of statements its statement is complete. -/
theorem takeBehind_context (t : Token) (value : NodeId) (block : Block) (list : OpenList)
    (purpose : Purpose) (draft : Draft) :
    takeBehind t value (block.context list purpose) draft =
      takeStatement t block (completeStatement value purpose list t draft).1
        (completeStatement value purpose list t draft).2 := by
  cases block <;> rfl

/-- In a list of statements, all but an operator goes on with the list. -/
theorem step_operator_context (notPipe : t.kind ≠ .pipe) (value : NodeId) (block : Block)
    (list : OpenList) (purpose : Purpose) :
    step t (.operator value (block.context list purpose)) draft =
      takeStatement t block (completeStatement value purpose list t draft).1
        (completeStatement value purpose list t draft).2 := by
  rw [step, if_neg notPipe, takeBehind_context]

/-- Behind an expression that is a statement, its cell is filled in and the next one is open. -/
theorem opensCell_statement (notPipe : t.kind ≠ .pipe)
    (holds : draft.Holds (nodes ++ ⟨nodes.length, first, .sentinel⟩ :: inner)) (value : NodeId)
    (block : Block) (head : NodeId) :
    OpensCell t (.operator value (block.context ⟨head, nodes.length⟩ .statement)) draft block head
      (nodes ++ ⟨nodes.length, first,
        .statementCell (some value) (some (nodes.length + 1 + inner.length))⟩ :: inner) := by
  have length (kind : NodeKind) : (nodes ++ ⟨nodes.length, first, kind⟩ :: inner).length =
      nodes.length + 1 + inner.length := by
    rw [List.length_append, List.length_cons, Nat.add_assoc, Nat.add_comm 1]
  have size : draft.size = nodes.length + 1 + inner.length := holds.size_eq.trans (length _)
  have opened := holds.alloc t .sentinel
  rw [length, ← size, List.append_assoc, List.cons_append] at opened
  refine ⟨(draft.alloc t .sentinel).2.link nodes.length value draft.size, ?_, ?_⟩
  · rw [step_operator_context notPipe, length, ← size]
    rfl
  · rw [length, ← size, List.append_assoc, List.cons_append]
    exact opened.link value draft.size

/-- Behind the expression of a definition, the definition is the statement. -/
theorem opensCell_initializer (notPipe : t.kind ≠ .pipe)
    (holds : draft.Holds (nodes ++ ⟨nodes.length, first, .sentinel⟩ :: inner)) (symbol : Token)
    (value : NodeId) (block : Block) (head : NodeId) :
    OpensCell t (.operator value (block.context ⟨head, nodes.length⟩ (.initializer symbol))) draft
      block head
      (nodes ++ ⟨nodes.length, first, .statementCell (some (nodes.length + 1 + inner.length))
          (some (nodes.length + 1 + inner.length + 1))⟩ ::
        (inner ++ [⟨nodes.length + 1 + inner.length, symbol, .definition value⟩])) := by
  have size : draft.size = nodes.length + 1 + inner.length := by
    rw [holds.size_eq, List.length_append, List.length_cons, Nat.add_assoc, Nat.add_comm 1]
  have defined := holds.alloc symbol (.definition value)
  rw [← holds.size_eq, size, List.append_assoc, List.cons_append] at defined
  have same : step t (.operator value (block.context ⟨head, nodes.length⟩ (.initializer symbol)))
        draft =
      step t (.operator draft.size (block.context ⟨head, nodes.length⟩ .statement))
        (draft.alloc symbol (.definition value)).2 := by
    rw [step_operator_context notPipe, step_operator_context notPipe]
    rfl
  rw [OpensCell, same, size]
  have whole := opensCell_statement notPipe defined draft.size block head
  rw [List.length_append, List.length_singleton, ← Nat.add_assoc, size] at whole
  exact whole

/-- Any token but an operator is looked at as an argument of a call, or as its end. -/
def ExpectsArgument (control : Control) (paren : Token) (callee : NodeId)
    (before : List (Token × NodeId)) (pending : Option Pending) (outer : Context) : Prop :=
  ∀ t draft, t.kind ≠ .pipe →
    step t control draft = takeArgument t paren callee before pending outer draft

theorem expectsArgument_callee (value : NodeId) (paren : Token) (pending : Option Pending)
    (outer : Context) :
    ExpectsArgument (.operator value (.callee paren pending outer)) paren value [] pending outer :=
  fun _ _ notPipe => if_neg notPipe

theorem expectsArgument_argument (value : NodeId) (first paren : Token) (callee : NodeId)
    (before : List (Token × NodeId)) (pending : Option Pending) (outer : Context) :
    ExpectsArgument (.operator value (.argument first paren callee before pending outer)) paren
      callee ((first, value) :: before) pending outer :=
  fun _ _ notPipe => if_neg notPipe

/-- An expression as a statement is read as any expression. -/
theorem takeStatement_of_startsExpression (starts : t.kind.startsExpression) (block : Block)
    (list : OpenList) :
    takeStatement t block list draft =
      takeOperand t none (block.context list .statement) draft := by
  refine takeStatement_eq_takeOperand list draft ?_ ?_ ?_ block
  all_goals
    intro kind
    rw [kind] at starts
    exact absurd starts (by decide)

/-- An argument is read as any expression. -/
theorem takeArgument_of_startsExpression (starts : t.kind.startsExpression) (paren : Token)
    (callee : NodeId) (before : List (Token × NodeId)) (pending : Option Pending)
    (outer : Context) :
    takeArgument t paren callee before pending outer draft =
      takeOperand t none (.argument t paren callee before pending outer) draft :=
  if_pos starts

/-- The bracket that closes a call completes it. -/
theorem takeArgument_rightParen (kind : t.kind = .rightParen) (paren : Token) (callee : NodeId)
    (before : List (Token × NodeId)) (pending : Option Pending) (outer : Context) :
    takeArgument t paren callee before pending outer draft =
      completeOperand (allocArguments draft none before).2.size pending outer
        ((allocArguments draft none before).2.alloc paren
          (.call callee (allocArguments draft none before).1)).2 := by
  simp only [takeArgument, kind]
  rfl

end Parse

namespace SyntaxTree

open Parse

/-- What the parser does on the tokens of a tree, at any place where such a tree can stand:
it reads them, and adds the nodes of the layout. An operand is left to be completed. The
cells of arguments are left to be added when their call ends. -/
def Builds : {part : Part} → SyntaxTree TokenOf part → Prop
  | .statements, tree => ∀ follow block head nodes c d, follow.kind ≠ .pipe →
    OpensCell (tree.tokens.headD follow) c d block head nodes →
    ∃ c' d' nodes', Reads tree.tokens c d c' d' ∧ OpensCell follow c' d' block head nodes' ∧
      nodes' ++ [⟨nodes'.length, follow, .sentinel⟩] = nodes ++ tree.layout follow nodes.length
  | .statement, tree => ∀ follow block head nodes c d,
    OpensCell (tree.tokens.headD follow) c d block head nodes →
    ∃ c' d', Reads tree.tokens c d c' d' ∧ ∀ t, t.kind ≠ .pipe →
      OpensCell t c' d' block head (nodes ++
        ⟨nodes.length, tree.tokens.headD follow, .statementCell
          (some (tree.root (nodes.length + 1))) (some (nodes.length + 1 + tree.size))⟩ ::
        tree.layout follow (nodes.length + 1))
  | .expression, tree => ∀ follow outer nodes d, d.Holds nodes →
    ∃ d', d'.Holds (nodes ++ tree.layout follow nodes.length) ∧
      Reads tree.tokens (.operand none outer) d (.operator (tree.root nodes.length) outer) d'
  | .operand, tree => ∀ follow pending outer nodes d, d.Holds nodes →
    ∃ d', d'.Holds (nodes ++ tree.layout follow nodes.length) ∧ ∀ c'' d'',
      completeOperand (tree.root nodes.length) pending outer d' = (.proceed c'', d'') →
      Reads tree.tokens (.operand pending outer) d c'' d''
  | .arguments, tree => ∀ follow paren callee before pending outer nodes c d,
    ExpectsArgument c paren callee before pending outer → d.Holds nodes →
    ∃ c' d' before' d'', Reads tree.tokens c d c' d' ∧
      ExpectsArgument c' paren callee before' pending outer ∧
      allocArguments d' none before' = allocArguments d'' (tree.slot nodes.length) before ∧
      d''.Holds (nodes ++ tree.layout follow nodes.length)

theorem builds_noStatements : (noStatements (α := TokenOf)).Builds := by
  intro follow block head nodes c d _ opens
  exact ⟨c, d, nodes, Reads.refl, opens, rfl⟩

/-- No statement starts with an operator. -/
theorem headD_tokens_ne_pipe (list : SyntaxTree TokenOf .statements) {follow : Token}
    (notPipe : follow.kind ≠ .pipe) : (list.tokens.headD follow).kind ≠ .pipe := by
  cases list with
  | noStatements => exact notPipe
  | statements first rest =>
    obtain ⟨t, ts, eq, start⟩ := first.starts
    rw [tokens_statements, eq]
    intro kind
    rw [show t.kind = .pipe from kind] at start
    exact absurd start (by decide)

theorem builds_statements {first : SyntaxTree TokenOf .statement}
    {rest : SyntaxTree TokenOf .statements} (firstBuilds : first.Builds)
    (restBuilds : rest.Builds) : (statements first rest).Builds := by
  intro follow block head nodes c d notPipe opens
  -- The list's open cell becomes the cell of `first`, whose last step opens that of `rest`.
  obtain ⟨t, ts, eq, -⟩ := first.starts
  have anchor : (statements first rest).tokens.headD follow = first.tokens.headD follow := by
    rw [tokens_statements, eq]
    rfl
  rw [anchor] at opens
  obtain ⟨c₁, d₁, firstRead, next⟩ := firstBuilds follow block head nodes c d opens
  obtain ⟨c₂, d₂, nodes', restRead, last, nodesEq⟩ := restBuilds follow block head _ c₁ d₁ notPipe
    (next _ (headD_tokens_ne_pipe rest notPipe))
  refine ⟨c₂, d₂, nodes', ?_, last, ?_⟩
  · rw [tokens_statements]
    exact firstRead.trans restRead
  · rw [nodesEq]
    simp [layout, Nat.add_assoc, Nat.add_comm 1]

theorem builds_definition {keyword : TokenOf .letKeyword} {symbol : TokenOf .identifier}
    {sign : TokenOf .assign} {initializer : SyntaxTree TokenOf .expression}
    (builds : initializer.Builds) : (definition keyword symbol sign initializer).Builds := by
  intro follow block head nodes c d ⟨d₀, taken, holds⟩
  obtain ⟨d₁, holds₁, read⟩ := builds follow
    (block.context ⟨head, nodes.length⟩ (.initializer symbol.1)) _ d₀ holds
  rw [List.length_append, List.length_singleton] at holds₁ read
  rw [List.append_assoc, List.singleton_append] at holds₁
  refine ⟨_, d₁, Reads.step (taken.trans (takeStatement_letKeyword _ _ keyword.2 _))
    (Reads.step (if_pos symbol.2) (Reads.step (if_pos sign.2) read)), ?_⟩
  intro t notPipe
  have next := opensCell_initializer notPipe holds₁ symbol.1
    (initializer.root (nodes.length + 1)) block head
  rw [length_layout] at next
  exact next

theorem builds_plain {value : SyntaxTree TokenOf .expression} (builds : value.Builds) :
    (plain value).Builds := by
  intro follow block head nodes c d ⟨d₀, taken, holds⟩
  obtain ⟨d₁, holds₁, read⟩ := builds follow (block.context ⟨head, nodes.length⟩ .statement) _ d₀
    holds
  rw [List.length_append, List.length_singleton] at holds₁ read
  rw [List.append_assoc, List.singleton_append] at holds₁
  obtain ⟨t, ts, eq, start⟩ := value.starts
  rw [tokens_plain, eq, List.headD_cons, takeStatement_of_startsExpression start] at taken
  rw [eq] at read
  refine ⟨.operator (value.root (nodes.length + 1)) (block.context ⟨head, nodes.length⟩ .statement),
    d₁, ?_, ?_⟩
  · rw [tokens_plain, eq]
    refine Reads.of_step_eq ?_ read
    exact taken
  · intro u notPipe
    have next := opensCell_statement notPipe holds₁ (value.root (nodes.length + 1)) block head
    rw [length_layout] at next
    exact next

theorem builds_operand {value : SyntaxTree TokenOf .operand} (builds : value.Builds) :
    (operand value).Builds := by
  intro follow outer nodes d holds
  obtain ⟨d', holds', read⟩ := builds follow none outer nodes d holds
  exact ⟨d', holds', read _ _ rfl⟩

theorem builds_pipe {left : SyntaxTree TokenOf .expression} {operator : TokenOf .pipe}
    {right : SyntaxTree TokenOf .operand} (leftBuilds : left.Builds)
    (rightBuilds : right.Builds) : (pipe left operator right).Builds := by
  intro follow outer nodes d holds
  obtain ⟨d₁, holds₁, leftRead⟩ := leftBuilds follow outer nodes d holds
  obtain ⟨d₂, holds₂, rightRead⟩ := rightBuilds follow
    (some ⟨left.root nodes.length, operator.1⟩) outer _ d₁ holds₁
  rw [List.length_append, length_layout] at holds₂ rightRead
  obtain ⟨size, holds₃⟩ := holds₂.alloc_behind operator.1
    (.binary (left.root nodes.length) (right.root (nodes.length + left.size)))
  rw [length_layout, length_layout] at size holds₃
  have completed : completeOperand (right.root (nodes.length + left.size))
      (some ⟨left.root nodes.length, operator.1⟩) outer d₂ =
      (.proceed (.operator (nodes.length + left.size + right.size) outer), (d₂.alloc operator.1
        (.binary (left.root nodes.length) (right.root (nodes.length + left.size)))).2) := by
    rw [← size]
    rfl
  refine ⟨_, holds₃, ?_⟩
  rw [tokens_pipe]
  exact leftRead.trans (Reads.step (if_pos operator.2) (rightRead _ _ completed))

theorem builds_number (digits : TokenOf .number) : (number digits).Builds := by
  intro follow pending outer nodes d holds
  refine ⟨_, holds.alloc digits.1 .constant, ?_⟩
  intro c'' d'' completed
  refine Reads.single ?_
  rw [root, ← holds.size_eq] at completed
  rw [← completed, step, takeOperand]
  simp only [digits.2]
  rfl

theorem builds_name (word : TokenOf .identifier) : (name word).Builds := by
  intro follow pending outer nodes d holds
  refine ⟨_, holds.alloc word.1 .reference, ?_⟩
  intro c'' d'' completed
  refine Reads.single ?_
  rw [root, ← holds.size_eq] at completed
  rw [← completed, step, takeOperand]
  simp only [word.2]
  rfl

theorem builds_function {opening : TokenOf .leftBrace} {body : SyntaxTree TokenOf .statements}
    {closing : TokenOf .rightBrace} (builds : body.Builds) :
    (function opening body closing).Builds := by
  intro follow pending outer nodes d holds
  have notPipe : closing.1.kind ≠ .pipe := by
    rw [closing.2]
    decide
  -- What follows the body is the closing brace, so that is where its last cell is anchored.
  obtain ⟨c₁, d₁, nodes', read, ⟨d₂, taken, holds₂⟩, nodesEq⟩ := builds closing.1 _ _ nodes _ d
    notPipe (opensCell_opened holds (.function opening.1 pending outer) _)
  rw [nodesEq] at holds₂
  rw [takeStatement_function_rightBrace _ _ closing.2] at taken
  have size : d₂.size = nodes.length + body.size := by
    rw [holds₂.size_eq]
    simp
  have holds₃ := holds₂.alloc opening.1 (.function (body.root nodes.length))
  rw [← holds₂.size_eq, size, List.append_assoc] at holds₃
  refine ⟨_, holds₃, ?_⟩
  intro c'' d'' completed
  rw [tokens_function]
  refine Reads.step ?_ (read.trans (Reads.single (taken.trans ?_)))
  · rw [step, takeOperand]
    simp only [opening.2]
  · rw [size]
    rw [root, root_statements] at completed
    exact completed

theorem builds_noArguments : (noArguments (α := TokenOf)).Builds := by
  intro follow paren callee before pending outer nodes c d expects holds
  refine ⟨c, d, before, d, Reads.refl, expects, rfl, ?_⟩
  rw [layout, List.append_nil]
  exact holds

theorem builds_arguments {first : SyntaxTree TokenOf .expression}
    {rest : SyntaxTree TokenOf .arguments} (firstBuilds : first.Builds)
    (restBuilds : rest.Builds) : (arguments first rest).Builds := by
  intro follow paren callee before pending outer nodes c d expects holds
  obtain ⟨t, ts, eq, start⟩ := first.starts
  have notPipe : t.kind ≠ .pipe := by
    intro kind
    rw [kind] at start
    exact absurd start (by decide)
  obtain ⟨d₁, holds₁, firstRead⟩ := firstBuilds follow
    (.argument t paren callee before pending outer) nodes d holds
  -- The cells wait until the call ends, and are then added back to front: the one of `first`
  -- comes behind those of `rest`.
  obtain ⟨c₂, d₂, before', d₃, restRead, expects', alloc, holds₃⟩ := restBuilds follow paren callee
    ((t, first.root nodes.length) :: before) pending outer _ _ d₁
    (expectsArgument_argument _ t paren callee before pending outer) holds₁
  rw [List.length_append, length_layout] at alloc holds₃
  obtain ⟨size, holds₄⟩ := holds₃.alloc_behind t
    (.argumentCell (first.root nodes.length) (rest.slot (nodes.length + first.size)))
  rw [length_layout, length_layout] at size holds₄
  have taken := expects t d notPipe
  rw [takeArgument_of_startsExpression start] at taken
  have completed : allocArguments d₂ none before' =
      allocArguments (d₃.alloc t (.argumentCell (first.root nodes.length)
        (rest.slot (nodes.length + first.size)))).2
        ((arguments first rest).slot nodes.length) before := by
    rw [alloc, slot_arguments, ← size]
    rfl
  have anchor : first.tokens.headD follow = t := by
    rw [eq]
    rfl
  rw [← anchor] at holds₄ completed
  rw [eq] at firstRead
  refine ⟨c₂, d₂, before', _, ?_, expects', completed, holds₄⟩
  rw [tokens_arguments, eq]
  refine Reads.trans (Reads.of_step_eq ?_ firstRead) restRead
  exact taken

theorem builds_call {opening : TokenOf .leftParen} {callee : SyntaxTree TokenOf .expression}
    {others : SyntaxTree TokenOf .arguments} {closing : TokenOf .rightParen}
    (calleeBuilds : callee.Builds) (othersBuild : others.Builds) :
    (call opening callee others closing).Builds := by
  intro follow pending outer nodes d holds
  have notPipe : closing.1.kind ≠ .pipe := by
    rw [closing.2]
    decide
  obtain ⟨d₁, holds₁, calleeRead⟩ := calleeBuilds follow (.callee opening.1 pending outer) nodes d
    holds
  obtain ⟨c₂, d₂, before, d₃, othersRead, expects, alloc, holds₃⟩ :=
    othersBuild follow opening.1 _ [] pending outer _ _ d₁
      (expectsArgument_callee _ opening.1 pending outer) holds₁
  rw [List.length_append, length_layout] at alloc holds₃
  obtain ⟨size, holds₄⟩ := holds₃.alloc_behind opening.1
    (.call (callee.root nodes.length) (others.slot (nodes.length + callee.size)))
  rw [length_layout, length_layout] at size holds₄
  have taken := expects closing.1 d₂ notPipe
  rw [takeArgument_rightParen closing.2, alloc] at taken
  refine ⟨_, holds₄, ?_⟩
  intro c'' d'' completed
  rw [tokens_call]
  refine Reads.step ?_ (calleeRead.trans (othersRead.trans (Reads.single (taken.trans ?_))))
  · rw [step, takeOperand]
    simp only [opening.2]
  · rw [allocArguments, size]
    exact completed

/-- The parser builds the layout of every tree. -/
theorem builds {part : Part} (tree : SyntaxTree TokenOf part) : tree.Builds := by
  induction tree with
  | noStatements => exact builds_noStatements
  | statements _ _ first rest => exact builds_statements first rest
  | definition _ _ _ _ initializer => exact builds_definition initializer
  | plain _ value => exact builds_plain value
  | operand _ value => exact builds_operand value
  | pipe _ _ _ left right => exact builds_pipe left right
  | number digits => exact builds_number digits
  | name word => exact builds_name word
  | function _ _ _ body => exact builds_function body
  | call _ _ _ _ callee others => exact builds_call callee others
  | noArguments => exact builds_noArguments
  | arguments _ _ first rest => exact builds_arguments first rest

end SyntaxTree

/-! ## Programs -/

/-- The parser reads what a syntax tree writes, and accepts the end of the input behind it with
the layout of that tree. -/
theorem SyntaxTree.reads_layout (program : SyntaxTree TokenOf .statements) {last : Token}
    (lastKind : last.kind = .endOfInput) :
    ∃ c d d', Parse.Reads program.tokens (.opened .program) .empty c d ∧
      Parse.step last c d = (.accept 0, d') ∧ d'.Holds (program.layout last 0) := by
  have notPipe : last.kind ≠ .pipe := by
    rw [lastKind]
    decide
  obtain ⟨c, d, nodes, read, ⟨d', taken, holds⟩, nodesEq⟩ :=
    program.builds last .program _ [] _ _ notPipe
      (Parse.opensCell_opened Draft.empty_holds .program _)
  rw [Parse.takeStatement_program_endOfInput _ _ lastKind] at taken
  rw [nodesEq] at holds
  exact ⟨c, d, d', read, taken, holds⟩

/-- A buffer that a syntax tree writes is parsed, and the arena is the layout of that tree. -/
theorem TokenBuffer.parse_layout {buffer : TokenBuffer} {program : SyntaxTree TokenOf .statements}
    (written : program.tokens = buffer.body) :
    ∃ tree : Tree, buffer.parse = .ok tree ∧ tree.root = program.root 0 ∧
      tree.nodes.toList = program.layout buffer.last 0 := by
  obtain ⟨c, d, d', read, taken, holds⟩ := program.reads_layout buffer.last_kind
  have split : buffer.tokens = program.tokens ++ buffer.last :: [] := by
    rw [written]
    rfl
  exact ⟨_, parse_of_reads split read taken, (program.root_statements 0).symm, holds.nodes_eq⟩

/-- Every tree that a parse gives is the layout of the syntax tree that the buffer is
written for. -/
theorem TokenBuffer.exists_layout {buffer : TokenBuffer} {tree : Tree}
    (parsed : buffer.parse = .ok tree) :
    ∃ program : SyntaxTree TokenOf .statements, program.tokens = buffer.body ∧
      tree.root = program.root 0 ∧ tree.nodes.toList = program.layout buffer.last 0 := by
  obtain ⟨program, written⟩ := buffer.exists_syntaxTree parsed
  obtain ⟨tree', parsed', root, nodes⟩ := parse_layout written
  rw [parsed] at parsed'
  cases parsed'
  exact ⟨program, written, root, nodes⟩

/-! ## Blocks in a tree -/

namespace Tree

/-- Some nodes stand in a tree, one behind the other, the first of them under a given name. -/
def HasBlock (tree : Tree) (n : NodeId) (nodes : List Node) : Prop :=
  ∀ i node, nodes[i]? = some node → tree.node? (n + i) = some node

variable {tree : Tree} {n : NodeId} {node : Node} {nodes others : List Node}

theorem hasBlock_cons :
    tree.HasBlock n (node :: nodes) ↔ tree.node? n = some node ∧ tree.HasBlock (n + 1) nodes := by
  constructor
  · intro block
    refine ⟨block 0 node rfl, fun i u found => ?_⟩
    rw [Nat.add_assoc, Nat.add_comm 1]
    exact block (i + 1) u found
  · rintro ⟨head, tail⟩ (_ | i) u found
    · exact head.trans found
    · rw [← Nat.add_assoc, Nat.add_right_comm]
      exact tail i u found

theorem hasBlock_append :
    tree.HasBlock n (nodes ++ others) ↔
      tree.HasBlock n nodes ∧ tree.HasBlock (n + nodes.length) others := by
  induction nodes generalizing n with
  | nil => simp [HasBlock]
  | cons node nodes ih =>
    rw [List.cons_append, hasBlock_cons, hasBlock_cons, ih, and_assoc, List.length_cons,
      Nat.add_assoc n 1, Nat.add_comm 1]

theorem hasBlock_singleton : tree.HasBlock n [node] ↔ tree.node? n = some node := by
  rw [hasBlock_cons]
  simp [HasBlock]

theorem hasBlock_nodes (tree : Tree) : tree.HasBlock 0 tree.nodes.toList := by
  intro i node found
  rw [Nat.zero_add, node?, ← Array.getElem?_toList]
  exact found

/-! The blocks of the parts of a tree. -/

section Parts

variable {follow : Token}

theorem hasBlock_statements {first : SyntaxTree TokenOf .statement}
    {rest : SyntaxTree TokenOf .statements} :
    tree.HasBlock n ((SyntaxTree.statements first rest).layout follow n) ↔
      tree.node? n = some ⟨n, first.tokens.headD follow, .statementCell
        (some (first.root (n + 1))) (some (n + 1 + first.size))⟩ ∧
      tree.HasBlock (n + 1) (first.layout follow (n + 1)) ∧
      tree.HasBlock (n + 1 + first.size) (rest.layout follow (n + 1 + first.size)) := by
  rw [SyntaxTree.layout, hasBlock_cons, hasBlock_append, SyntaxTree.length_layout]

theorem hasBlock_definition {keyword : TokenOf .letKeyword} {symbol : TokenOf .identifier}
    {sign : TokenOf .assign} {initializer : SyntaxTree TokenOf .expression} :
    tree.HasBlock n ((SyntaxTree.definition keyword symbol sign initializer).layout follow n) ↔
      tree.HasBlock n (initializer.layout follow n) ∧
      tree.node? (n + initializer.size) =
        some ⟨n + initializer.size, symbol.1, .definition (initializer.root n)⟩ := by
  rw [SyntaxTree.layout, hasBlock_append, hasBlock_singleton, SyntaxTree.length_layout]

theorem hasBlock_pipe {left : SyntaxTree TokenOf .expression} {operator : TokenOf .pipe}
    {right : SyntaxTree TokenOf .operand} :
    tree.HasBlock n ((SyntaxTree.pipe left operator right).layout follow n) ↔
      tree.HasBlock n (left.layout follow n) ∧
      tree.HasBlock (n + left.size) (right.layout follow (n + left.size)) ∧
      tree.node? (n + left.size + right.size) = some ⟨n + left.size + right.size, operator.1,
        .binary (left.root n) (right.root (n + left.size))⟩ := by
  rw [SyntaxTree.layout, hasBlock_append, hasBlock_append, hasBlock_singleton, List.length_append,
    SyntaxTree.length_layout, SyntaxTree.length_layout, Nat.add_assoc, and_assoc]

theorem hasBlock_function {opening : TokenOf .leftBrace} {body : SyntaxTree TokenOf .statements}
    {closing : TokenOf .rightBrace} :
    tree.HasBlock n ((SyntaxTree.function opening body closing).layout follow n) ↔
      tree.HasBlock n (body.layout closing.1 n) ∧
      tree.node? (n + body.size) =
        some ⟨n + body.size, opening.1, .function (body.root n)⟩ := by
  rw [SyntaxTree.layout, hasBlock_append, hasBlock_singleton, SyntaxTree.length_layout]

theorem hasBlock_call {opening : TokenOf .leftParen} {callee : SyntaxTree TokenOf .expression}
    {others : SyntaxTree TokenOf .arguments} {closing : TokenOf .rightParen} :
    tree.HasBlock n ((SyntaxTree.call opening callee others closing).layout follow n) ↔
      tree.HasBlock n (callee.layout follow n) ∧
      tree.HasBlock (n + callee.size) (others.layout follow (n + callee.size)) ∧
      tree.node? (n + callee.size + others.size) = some ⟨n + callee.size + others.size, opening.1,
        .call (callee.root n) (others.slot (n + callee.size))⟩ := by
  rw [SyntaxTree.layout, hasBlock_append, hasBlock_append, hasBlock_singleton, List.length_append,
    SyntaxTree.length_layout, SyntaxTree.length_layout, Nat.add_assoc, and_assoc]

theorem hasBlock_arguments {first : SyntaxTree TokenOf .expression}
    {rest : SyntaxTree TokenOf .arguments} :
    tree.HasBlock n ((SyntaxTree.arguments first rest).layout follow n) ↔
      tree.HasBlock n (first.layout follow n) ∧
      tree.HasBlock (n + first.size) (rest.layout follow (n + first.size)) ∧
      tree.node? (n + first.size + rest.size) = some ⟨n + first.size + rest.size,
        first.tokens.headD follow, .argumentCell (first.root n) (rest.slot (n + first.size))⟩ := by
  rw [SyntaxTree.layout, hasBlock_append, hasBlock_append, hasBlock_singleton, List.length_append,
    SyntaxTree.length_layout, SyntaxTree.length_layout, Nat.add_assoc, and_assoc]

end Parts

/-! The chains of a tree. -/

theorem nextStatement_of_cell {t : Token} {statement next : Option NodeId}
    (found : tree.node? n = some ⟨n, t, .statementCell statement next⟩) :
    tree.nextStatement (some n) = (statement, next) := by
  rw [nextStatement, get?, Option.bind_some, found]
  rfl

theorem nextArgument_of_cell {t : Token} {argument : NodeId} {next : Option NodeId}
    (found : tree.node? n = some ⟨n, t, .argumentCell argument next⟩) :
    tree.nextArgument (some n) = (some argument, next) := by
  rw [nextArgument, get?, Option.bind_some, found]
  rfl

theorem nextArgument_none (tree : Tree) : tree.nextArgument none = (none, none) := rfl

theorem collect_of_some {step : Cursor → Option NodeId × Cursor} {cursor next : Cursor}
    {id : NodeId} (taken : step cursor = (some id, next)) (found : List NodeId) (limit : Nat) :
    collect step found (limit + 1) cursor = collect step (id :: found) limit next := by
  rw [collect, taken]

theorem collect_of_none {step : Cursor → Option NodeId × Cursor} {cursor next : Cursor}
    (taken : step cursor = (none, next)) (found : List NodeId) (limit : Nat) :
    collect step found (limit + 1) cursor = .ok found.reverse := by
  rw [collect, taken]

/-- A block takes up no more nodes than there are. -/
theorem HasBlock.length_le (block : tree.HasBlock n nodes) : nodes.length ≤ tree.size := by
  rcases List.eq_nil_or_concat nodes with rfl | ⟨before, last, rfl⟩
  · exact Nat.zero_le _
  · have found := block before.length last (by simp)
    have bound := (Array.getElem?_eq_some_iff.mp found).1
    rw [List.concat_eq_append, List.length_append, List.length_singleton]
    exact Nat.le_trans (Nat.succ_le_succ (Nat.le_add_left ..)) bound

theorem collect_statements (list : SyntaxTree TokenOf .statements) (follow : Token) (n : NodeId)
    (block : tree.HasBlock n (list.layout follow n)) (found : List NodeId) (limit : Nat)
    (enough : list.size ≤ limit) :
    collect tree.nextStatement found limit (some n) =
      .ok (found.reverse ++ list.itemIds n) := by
  obtain ⟨spare, rfl⟩ := Nat.exists_eq_add_of_le' enough
  cases list with
  | noStatements =>
    rw [SyntaxTree.layout, hasBlock_singleton] at block
    rw [SyntaxTree.itemIds_noStatements, List.append_nil]
    exact collect_of_none (nextStatement_of_cell block) found spare
  | statements first rest =>
    obtain ⟨cell, -, restBlock⟩ := hasBlock_statements.mp block
    have others := collect_statements rest follow _ restBlock (first.root (n + 1) :: found)
      (spare + (first.size + rest.size)) (by omega)
    rw [List.reverse_cons, List.append_assoc] at others
    exact (collect_of_some (nextStatement_of_cell cell) found _).trans others

theorem collect_arguments (list : SyntaxTree TokenOf .arguments) (follow : Token) (n : NodeId)
    (block : tree.HasBlock n (list.layout follow n)) (found : List NodeId) (limit : Nat)
    (enough : list.size < limit) :
    collect tree.nextArgument found limit (list.slot n) =
      .ok (found.reverse ++ list.itemIds n) := by
  obtain ⟨spare, rfl⟩ := Nat.exists_eq_add_of_lt enough
  cases list with
  | noArguments =>
    rw [SyntaxTree.itemIds_noArguments, List.append_nil]
    exact collect_of_none (nextArgument_none tree) found _
  | arguments first rest =>
    obtain ⟨-, restBlock, cell⟩ := hasBlock_arguments.mp block
    have others := collect_arguments rest follow _ restBlock (first.root n :: found)
      (first.size + rest.size + 1 + spare) (by omega)
    rw [List.reverse_cons, List.append_assoc] at others
    rw [SyntaxTree.slot_arguments]
    exact (collect_of_some (nextArgument_of_cell cell) found _).trans others

/-- The statements of a list stand in its chain. -/
theorem statements_of_layout (list : SyntaxTree TokenOf .statements) (follow : Token) (n : NodeId)
    (block : tree.HasBlock n (list.layout follow n)) :
    tree.statements n = .ok (list.itemIds n) := by
  have enough := block.length_le
  rw [SyntaxTree.length_layout] at enough
  exact collect_statements list follow n block [] _ (Nat.le_succ_of_le enough)

/-- The arguments of a call stand in its chain. -/
theorem arguments_of_layout (list : SyntaxTree TokenOf .arguments) (follow : Token) (n : NodeId)
    (block : tree.HasBlock n (list.layout follow n)) :
    tree.arguments (list.slot n) = .ok (list.itemIds n) := by
  have enough := block.length_le
  rw [SyntaxTree.length_layout] at enough
  exact collect_arguments list follow n block [] _ (Nat.lt_succ_of_le enough)

end Tree

end PipeScript
