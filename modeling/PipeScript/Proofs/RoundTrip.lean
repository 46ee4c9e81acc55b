import PipeScript.Proofs.Layout
import PipeScript.Proofs.WrittenText

/-!
# Programs survive being written and parsed

`Tree.program?` turns an arena back into the syntax tree of a program, with spellings for its
leaves. It starts at the root, takes the statements of a list and the arguments of a call as
`Tree.statements` and `Tree.arguments` give them, and reads numbers and names off the
lexemes of their anchors. An arena that has no such form gives nothing: a chain that does
not end, a node in a place where its kind cannot stand, or a lexeme that is none of its kind.

`TokenBuffer.parse_written` goes once around: a program is written as a text, the text is
read into tokens, the tokens are parsed into a tree, and the program is read back from that
tree. It is the same program, however its lexemes were set apart. Each leaf is followed
along the way: the lexer makes a token of its spelling (`Written.scans`), the tokens are the
leaves of a syntax tree of the same shape (`SyntaxTree.exists_map`), the arena is the layout
of that tree (`TokenBuffer.parse_layout`), and from the layout the spellings are read back
(`Tree.program?_of_layout`).
-/

namespace PipeScript

/-- The only spelling of a kind that has just one. -/
def Spelling.only (kind : Kind) (fixed : kind.spelling.isEmpty = false) : Spelling kind :=
  ⟨kind.spelling, by cases kind <;> first | rfl | contradiction⟩

theorem Spelling.eq_only {kind : Kind} (fixed : kind.spelling.isEmpty = false) (s : Spelling kind) :
    s = Spelling.only kind fixed := by
  obtain ⟨chars, spells⟩ := s
  refine Subtype.ext ?_
  cases kind with
  | endOfInput => contradiction
  | number => contradiction
  | identifier => contradiction
  | _ => exact spells

/-- The spelling of a token, if its lexeme is one of the given kind. -/
def Token.spelling? (t : Token) (kind : Kind) : Option (Spelling kind) :=
  if spells : kind.Spells t.lexeme.toList then some ⟨t.lexeme.toList, spells⟩ else none

theorem Token.spelling?_of_lexeme {kind : Kind} (lexeme : Lexeme kind) :
    (Lexeme.token kind lexeme).1.spelling? kind = some (Lexeme.spelling kind lexeme) :=
  dif_pos lexeme.2

/-- The program of some statements. -/
def SyntaxTree.ofStatements {α : Kind → Type} (items : List (SyntaxTree α .statement)) :
    SyntaxTree α .statements :=
  items.foldr statements noStatements

/-- The arguments of a call. -/
def SyntaxTree.ofArguments {α : Kind → Type} (items : List (SyntaxTree α .expression)) :
    SyntaxTree α .arguments :=
  items.foldr arguments noArguments

/-! ## Reading -/

/-- Reads the node of a name as a part of a program. -/
abbrev Reader := (part : Part) → NodeId → Option (SyntaxTree Spelling part)

namespace Tree

section Readers

variable (tree : Tree) (read : Reader)

/-- Reads the statements of the list that starts at a cell. -/
def readStatements (list : NodeId) : Option (SyntaxTree Spelling .statements) := do
  let ids ← (tree.statements list).toOption
  let items ← ids.mapM (read .statement)
  return .ofStatements items

/-- Reads the arguments of the list in a slot. -/
def readArguments (list : Option NodeId) : Option (SyntaxTree Spelling .arguments) := do
  let ids ← (tree.arguments list).toOption
  let items ← ids.mapM (read .expression)
  return .ofArguments items

/-- Reads a node as an operand. -/
def readOperand (node : Node) : Option (SyntaxTree Spelling .operand) :=
  match node.kind with
  | .constant => do return .number (← node.token.spelling? .number)
  | .reference => do return .name (← node.token.spelling? .identifier)
  | .function body => do
    return .function (.only .leftBrace rfl) (← read .statements body)
      (.only .rightBrace rfl)
  | .call callee list => do
    return .call (.only .leftParen rfl) (← read .expression callee)
      (← tree.readArguments read list) (.only .rightParen rfl)
  | _ => none

/-- Reads a node as an expression. -/
def readExpression (node : Node) : Option (SyntaxTree Spelling .expression) :=
  match node.kind with
  | .binary left right => do
    return .pipe (← read .expression left) (.only .pipe rfl) (← read .operand right)
  | _ => do return .operand (← tree.readOperand read node)

/-- Reads a node as a statement. -/
def readStatement (node : Node) : Option (SyntaxTree Spelling .statement) :=
  match node.kind with
  | .definition initializer => do
    return .definition (.only .letKeyword rfl) (← node.token.spelling? .identifier)
      (.only .assign rfl) (← read .expression initializer)
  | _ => do return .plain (← tree.readExpression read node)

end Readers

/-- Reads a node and what stands below it, down to a given depth. -/
def readTo (tree : Tree) : Nat → Reader
  | 0, _, _ => none
  | depth + 1, .statements, id => tree.readStatements (tree.readTo depth) id
  | depth + 1, .arguments, id => tree.readArguments (tree.readTo depth) (some id)
  | depth + 1, .statement, id => (tree.node? id).bind (tree.readStatement (tree.readTo depth))
  | depth + 1, .expression, id => (tree.node? id).bind (tree.readExpression (tree.readTo depth))
  | depth + 1, .operand, id => (tree.node? id).bind (tree.readOperand (tree.readTo depth))

section Depth

variable (tree : Tree) (depth : Nat) (id : NodeId)

theorem readTo_statements :
    tree.readTo (depth + 1) .statements id = tree.readStatements (tree.readTo depth) id := rfl

theorem readTo_statement :
    tree.readTo (depth + 1) .statement id =
      (tree.node? id).bind (tree.readStatement (tree.readTo depth)) := rfl

theorem readTo_expression :
    tree.readTo (depth + 1) .expression id =
      (tree.node? id).bind (tree.readExpression (tree.readTo depth)) := rfl

theorem readTo_operand :
    tree.readTo (depth + 1) .operand id =
      (tree.node? id).bind (tree.readOperand (tree.readTo depth)) := rfl

end Depth

/-- The program of a tree. No path through a tree is longer than it has nodes. -/
def program? (tree : Tree) : Option (SyntaxTree Spelling .statements) :=
  tree.readTo (tree.size + 1) .statements tree.root

/-! ## Reading along a layout -/

section Nodes

variable {tree : Tree} {read : Reader} {node : Node}

/-- A node that is an operand is no operator. -/
theorem readExpression_of_operand {value : SyntaxTree Spelling .operand}
    (operand : tree.readOperand read node = some value) :
    tree.readExpression read node = some (.operand value) := by
  rw [readExpression]
  split
  · rename_i kind
    rw [readOperand, kind] at operand
    cases operand
  · rw [operand]
    rfl

/-- A node that is an expression is no definition. -/
theorem readStatement_of_expression {value : SyntaxTree Spelling .expression}
    (expression : tree.readExpression read node = some value) :
    tree.readStatement read node = some (.plain value) := by
  rw [readStatement]
  split
  · rename_i kind
    rw [readExpression, readOperand, kind] at expression
    cases expression
  · rw [expression]
    rfl

end Nodes

/-- What is read back from the block of a tree. The items of a list are read one by one. -/
def ReadsBack (tree : Tree) : {part : Part} → SyntaxTree Lexeme part → Prop
  | .statements, form => ∀ follow n depth,
    tree.HasBlock n ((form.map Lexeme.token).layout follow n) →
    (form.map Lexeme.token).size ≤ depth + 1 →
    ∃ items, ((form.map Lexeme.token).itemIds n).mapM (tree.readTo (depth + 1) .statement) =
      some items ∧ .ofStatements items = form.map Lexeme.spelling
  | .arguments, form => ∀ follow n depth,
    tree.HasBlock n ((form.map Lexeme.token).layout follow n) →
    (form.map Lexeme.token).size ≤ depth →
    ∃ items, ((form.map Lexeme.token).itemIds n).mapM (tree.readTo (depth + 1) .expression) =
      some items ∧ .ofArguments items = form.map Lexeme.spelling
  | part, form => ∀ follow n depth,
    tree.HasBlock n ((form.map Lexeme.token).layout follow n) →
    (form.map Lexeme.token).size ≤ depth →
    tree.readTo (depth + 1) part ((form.map Lexeme.token).root n) = some (form.map Lexeme.spelling)

section Parts

variable {tree : Tree}

theorem readsBack_noStatements : tree.ReadsBack .noStatements := by
  intro follow n depth block deep
  exact ⟨[], rfl, rfl⟩

theorem readsBack_statements {first : SyntaxTree Lexeme .statement}
    {rest : SyntaxTree Lexeme .statements} (firstBack : tree.ReadsBack first)
    (restBack : tree.ReadsBack rest) : tree.ReadsBack (.statements first rest) := by
  intro follow n depth block deep
  obtain ⟨-, firstBlock, restBlock⟩ := hasBlock_statements.mp block
  simp only [SyntaxTree.map, SyntaxTree.size] at deep
  have head := firstBack follow _ depth firstBlock (by omega)
  obtain ⟨items, readItems, whole⟩ := restBack follow _ depth restBlock (by omega)
  refine ⟨first.map Lexeme.spelling :: items, ?_, ?_⟩
  · rw [SyntaxTree.map, SyntaxTree.itemIds, List.mapM_cons, head, readItems]
    rfl
  · rw [SyntaxTree.map, ← whole]
    rfl

/-- A list of statements is read back from its first cell. -/
theorem readTo_of_readsBack {list : SyntaxTree Lexeme .statements} (back : tree.ReadsBack list)
    {follow : Token} {n : NodeId}
    (block : tree.HasBlock n ((list.map Lexeme.token).layout follow n))
    {depth : Nat} (deep : (list.map Lexeme.token).size ≤ depth) :
    tree.readTo (depth + 1) .statements n = some (list.map Lexeme.spelling) := by
  cases depth with
  | zero =>
    cases list <;> exact absurd deep (Nat.not_succ_le_zero _)
  | succ depth =>
    obtain ⟨items, readItems, whole⟩ := back follow n depth block deep
    rw [readTo_statements, readStatements, statements_of_layout _ follow n block, ← whole]
    simp only [Except.toOption, Option.bind_eq_bind, Option.bind_some, readItems]
    rfl

theorem readArguments_of_readsBack {list : SyntaxTree Lexeme .arguments}
    (back : tree.ReadsBack list) {follow : Token} {n : NodeId}
    (block : tree.HasBlock n ((list.map Lexeme.token).layout follow n)) (depth : Nat)
    (deep : (list.map Lexeme.token).size ≤ depth) :
    tree.readArguments (tree.readTo (depth + 1)) ((list.map Lexeme.token).slot n) =
      some (list.map Lexeme.spelling) := by
  obtain ⟨items, readItems, whole⟩ := back follow n depth block deep
  rw [readArguments, arguments_of_layout _ follow n block, ← whole]
  simp only [Except.toOption, Option.bind_eq_bind, Option.bind_some, readItems]
  rfl

theorem readsBack_definition {keyword : Lexeme .letKeyword} {symbol : Lexeme .identifier}
    {sign : Lexeme .assign} {initializer : SyntaxTree Lexeme .expression}
    (back : tree.ReadsBack initializer) :
    tree.ReadsBack (.definition keyword symbol sign initializer) := by
  intro follow n depth block deep
  obtain ⟨initializerBlock, found⟩ := hasBlock_definition.mp block
  cases depth with
  | zero => exact absurd deep (Nat.not_succ_le_zero _)
  | succ depth =>
    have value := back follow n depth initializerBlock (Nat.le_of_succ_le_succ deep)
    rw [readTo_statement, SyntaxTree.map, SyntaxTree.root, found]
    simp only [Option.bind_some, readStatement, Token.spelling?_of_lexeme, value]
    rw [SyntaxTree.map, Spelling.eq_only rfl (Lexeme.spelling _ keyword),
      Spelling.eq_only rfl (Lexeme.spelling _ sign)]
    rfl

theorem readsBack_plain {value : SyntaxTree Lexeme .expression} (back : tree.ReadsBack value) :
    tree.ReadsBack (.plain value) := by
  intro follow n depth block deep
  have expression := back follow n depth block deep
  rw [readTo_expression] at expression
  obtain ⟨node, found, expression⟩ := Option.bind_eq_some_iff.mp expression
  rw [readTo_statement]
  exact Option.bind_eq_some_iff.mpr ⟨node, found, readStatement_of_expression expression⟩

theorem readsBack_operand {value : SyntaxTree Lexeme .operand} (back : tree.ReadsBack value) :
    tree.ReadsBack (.operand value) := by
  intro follow n depth block deep
  have operand := back follow n depth block deep
  rw [readTo_operand] at operand
  obtain ⟨node, found, operand⟩ := Option.bind_eq_some_iff.mp operand
  rw [readTo_expression]
  exact Option.bind_eq_some_iff.mpr ⟨node, found, readExpression_of_operand operand⟩

theorem readsBack_pipe {left : SyntaxTree Lexeme .expression} {operator : Lexeme .pipe}
    {right : SyntaxTree Lexeme .operand} (leftBack : tree.ReadsBack left)
    (rightBack : tree.ReadsBack right) : tree.ReadsBack (.pipe left operator right) := by
  intro follow n depth block deep
  obtain ⟨leftBlock, rightBlock, found⟩ := hasBlock_pipe.mp block
  cases depth with
  | zero => exact absurd deep (Nat.not_succ_le_zero _)
  | succ depth =>
    simp only [SyntaxTree.map, SyntaxTree.size] at deep
    have leftValue := leftBack follow n depth leftBlock (by omega)
    have rightValue := rightBack follow _ depth rightBlock (by omega)
    rw [readTo_expression, SyntaxTree.map, SyntaxTree.root, found]
    simp only [Option.bind_some, readExpression, leftValue, rightValue]
    rw [SyntaxTree.map, Spelling.eq_only rfl (Lexeme.spelling _ operator)]
    rfl

theorem readsBack_number (digits : Lexeme .number) : tree.ReadsBack (.number digits) := by
  intro follow n depth block deep
  rw [SyntaxTree.map, SyntaxTree.layout, hasBlock_singleton] at block
  rw [readTo_operand, SyntaxTree.map, SyntaxTree.root, block]
  simp only [Option.bind_some, readOperand, Token.spelling?_of_lexeme]
  rfl

theorem readsBack_name (word : Lexeme .identifier) : tree.ReadsBack (.name word) := by
  intro follow n depth block deep
  rw [SyntaxTree.map, SyntaxTree.layout, hasBlock_singleton] at block
  rw [readTo_operand, SyntaxTree.map, SyntaxTree.root, block]
  simp only [Option.bind_some, readOperand, Token.spelling?_of_lexeme]
  rfl

theorem readsBack_function {opening : Lexeme .leftBrace} {body : SyntaxTree Lexeme .statements}
    {closing : Lexeme .rightBrace} (back : tree.ReadsBack body) :
    tree.ReadsBack (.function opening body closing) := by
  intro follow n depth block deep
  obtain ⟨bodyBlock, found⟩ := hasBlock_function.mp block
  cases depth with
  | zero => exact absurd deep (Nat.not_succ_le_zero _)
  | succ depth =>
    have value := readTo_of_readsBack back bodyBlock (Nat.le_of_succ_le_succ deep)
    rw [readTo_operand, SyntaxTree.map, SyntaxTree.root, found]
    simp only [Option.bind_some, readOperand, SyntaxTree.root_statements, value]
    rw [SyntaxTree.map, Spelling.eq_only rfl (Lexeme.spelling _ opening),
      Spelling.eq_only rfl (Lexeme.spelling _ closing)]
    rfl

theorem readsBack_call {opening : Lexeme .leftParen} {callee : SyntaxTree Lexeme .expression}
    {others : SyntaxTree Lexeme .arguments} {closing : Lexeme .rightParen}
    (calleeBack : tree.ReadsBack callee) (othersBack : tree.ReadsBack others) :
    tree.ReadsBack (.call opening callee others closing) := by
  intro follow n depth block deep
  obtain ⟨calleeBlock, othersBlock, found⟩ := hasBlock_call.mp block
  cases depth with
  | zero => exact absurd deep (Nat.not_succ_le_zero _)
  | succ depth =>
    simp only [SyntaxTree.map, SyntaxTree.size] at deep
    have calleeValue := calleeBack follow n depth calleeBlock (by omega)
    have othersValue := readArguments_of_readsBack othersBack othersBlock depth (by omega)
    rw [readTo_operand, SyntaxTree.map, SyntaxTree.root, found]
    simp only [Option.bind_some, readOperand, calleeValue, othersValue]
    rw [SyntaxTree.map, Spelling.eq_only rfl (Lexeme.spelling _ opening),
      Spelling.eq_only rfl (Lexeme.spelling _ closing)]
    rfl

theorem readsBack_noArguments : tree.ReadsBack .noArguments := by
  intro follow n depth block deep
  exact ⟨[], rfl, rfl⟩

theorem readsBack_arguments {first : SyntaxTree Lexeme .expression}
    {rest : SyntaxTree Lexeme .arguments} (firstBack : tree.ReadsBack first)
    (restBack : tree.ReadsBack rest) : tree.ReadsBack (.arguments first rest) := by
  intro follow n depth block deep
  obtain ⟨firstBlock, restBlock, -⟩ := hasBlock_arguments.mp block
  simp only [SyntaxTree.map, SyntaxTree.size] at deep
  have head := firstBack follow _ depth firstBlock (by omega)
  obtain ⟨items, readItems, whole⟩ := restBack follow _ depth restBlock (by omega)
  refine ⟨first.map Lexeme.spelling :: items, ?_, ?_⟩
  · rw [SyntaxTree.map, SyntaxTree.itemIds, List.mapM_cons, head, readItems]
    rfl
  · rw [SyntaxTree.map, ← whole]
    rfl

/-- Every tree is read back from its block. -/
theorem readsBack (tree : Tree) {part : Part} (form : SyntaxTree Lexeme part) :
    tree.ReadsBack form := by
  induction form with
  | noStatements => exact readsBack_noStatements
  | statements _ _ first rest => exact readsBack_statements first rest
  | definition _ _ _ _ initializer => exact readsBack_definition initializer
  | plain _ value => exact readsBack_plain value
  | operand _ value => exact readsBack_operand value
  | pipe _ _ _ left right => exact readsBack_pipe left right
  | number digits => exact readsBack_number digits
  | name word => exact readsBack_name word
  | function _ _ _ body => exact readsBack_function body
  | call _ _ _ _ callee others => exact readsBack_call callee others
  | noArguments => exact readsBack_noArguments
  | arguments _ _ first rest => exact readsBack_arguments first rest

end Parts

/-- From the layout of a program its spellings are read back. -/
theorem program?_of_layout {tree : Tree} (program : SyntaxTree Lexeme .statements) (follow : Token)
    (root : tree.root = (program.map Lexeme.token).root 0)
    (nodes : tree.nodes.toList = (program.map Lexeme.token).layout follow 0) :
    tree.program? = some (program.map Lexeme.spelling) := by
  have block := tree.hasBlock_nodes
  rw [nodes] at block
  have deep := block.length_le
  rw [SyntaxTree.length_layout] at deep
  rw [program?, root, SyntaxTree.root_statements]
  exact readTo_of_readsBack (tree.readsBack program) block deep

end Tree

/-! ## Once around -/

/-- A text that a program is written for is read and parsed, and the program is what is read
back from its tree. -/
theorem TokenBuffer.parse_written (program : SyntaxTree Spelling .statements) (source : String)
    (written : Written program.leaves source.toList) :
    ∃ buffer tree, ofSource source = .ok buffer ∧ buffer.parse = .ok tree ∧
      tree.program? = some program := by
  obtain ⟨lexemes, last, spelled, scans⟩ := written.scans (.ofSource source) rfl
  obtain ⟨form, leaves, rfl⟩ := program.exists_map Lexeme.spelling lexemes spelled
  obtain ⟨buffer, lexed, body⟩ := exists_ofLexer scans
  have tokens : (form.map Lexeme.token).tokens = buffer.body := by
    rw [SyntaxTree.tokens, SyntaxTree.leaves_map, leaves, List.map_map, body]
    rfl
  obtain ⟨tree, parsed, root, nodes⟩ := parse_layout tokens
  exact ⟨buffer, tree, lexed, parsed, Tree.program?_of_layout form buffer.last root nodes⟩

/-- The program `let f = { x |> g } (f 10 |> f)`. -/
def SyntaxTree.pipedArgument : SyntaxTree Spelling .statements :=
  .statements
    (.definition (.only .letKeyword rfl) ⟨['f'], by decide⟩ (.only .assign rfl)
      (.operand (.function (.only .leftBrace rfl)
        (.statements
          (.plain (.pipe (.operand (.name ⟨['x'], by decide⟩)) (.only .pipe rfl)
            (.name ⟨['g'], by decide⟩)))
          .noStatements)
        (.only .rightBrace rfl))))
    (.statements
      (.plain (.operand (.call (.only .leftParen rfl) (.operand (.name ⟨['f'], by decide⟩))
        (.arguments
          (.pipe (.operand (.number ⟨['1', '0'], by decide⟩)) (.only .pipe rfl)
            (.name ⟨['f'], by decide⟩))
          .noArguments)
        (.only .rightParen rfl))))
      .noStatements)

theorem SyntaxTree.written_pipedArgument :
    Written pipedArgument.leaves "let f = \x7b x |> g \x7d\r\n( f  10 |> f\t)".toList :=
  Written.apart _ [' '] (by decide) (by decide) <|
  Written.apart _ [' '] (by decide) (by decide) <|
  Written.apart _ [' '] (by decide) (by decide) <|
  Written.apart _ [' '] (by decide) (by decide) <|
  Written.apart _ [' '] (by decide) (by decide) <|
  Written.apart _ [' '] (by decide) (by decide) <|
  Written.apart _ [' '] (by decide) (by decide) <|
  Written.apart _ ['\r', '\n'] (by decide) (by decide) <|
  Written.apart _ [' '] (by decide) (by decide) <|
  Written.apart _ [' ', ' '] (by decide) (by decide) <|
  Written.apart _ [' '] (by decide) (by decide) <|
  Written.apart _ [' '] (by decide) (by decide) <|
  Written.apart _ ['\t'] (by decide) (by decide) <| Written.last _

theorem TokenBuffer.parse_pipedArgument :
    Written SyntaxTree.pipedArgument.leaves "let f = \x7b x |> g \x7d\r\n( f  10 |> f\t)".toList ∧
      ∃ buffer tree, ofSource "let f = \x7b x |> g \x7d\r\n( f  10 |> f\t)" = .ok buffer ∧
        buffer.parse = .ok tree ∧ tree.program? = some SyntaxTree.pipedArgument :=
  ⟨SyntaxTree.written_pipedArgument, parse_written _ _ SyntaxTree.written_pipedArgument⟩

end PipeScript
