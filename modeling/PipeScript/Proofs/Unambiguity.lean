import PipeScript.Proofs.Sites

/-!
# A program has one tree

No other syntax tree has the same tokens and stands in the same place of an arena
(`SyntaxTree.determined`): the node in a slot says which construct it is, and its slots say
where the parts are, so that two trees in one place part nowhere. Two trees with the tokens of
one buffer do stand in one place, since the parser builds the layout of either. So the grammar
is not ambiguous (`TokenBuffer.syntaxTree_unique`).

`TokenBuffer.parse_laidOut` says what an accepted buffer becomes: the nodes of the arena are the
layout of the one tree that the buffer is written for, every subtree takes up a block of
them, and every child slot holds the name that the layout gives to a part.
-/

namespace PipeScript

namespace SyntaxTree

/-- No other tree has the same tokens in front and stands in the same place of an arena. -/
def Determined (tree : Tree) {part : Part} (form : SyntaxTree TokenOf part) : Prop :=
  ∀ (other : SyntaxTree TokenOf part) follow follow' n ts us, tree.HasSite ⟨form, follow, n⟩ →
    tree.HasSite ⟨other, follow', n⟩ → form.slot n = other.slot n →
    form.tokens ++ ts = other.tokens ++ us → form = other ∧ ts = us

variable {tree : Tree}

theorem slot_eq_of_root {α β : Kind → Type} {part : Part} (notArguments : part ≠ .arguments)
    {form : SyntaxTree α part} {other : SyntaxTree β part} {n m : NodeId}
    (same : form.root n = other.root m) : form.slot n = other.slot m := by
  rw [slot_eq_some notArguments, slot_eq_some notArguments, same]

theorem determined_noStatements : (noStatements (α := TokenOf)).Determined tree := by
  intro other follow follow' n ts us has hasOther same tokens
  cases other with
  | noStatements => exact ⟨rfl, tokens⟩
  | statements first rest => cases has.own_eq hasOther same rfl rfl

theorem determined_statements {first : SyntaxTree TokenOf .statement}
    {rest : SyntaxTree TokenOf .statements} (firstDetermined : first.Determined tree)
    (restDetermined : rest.Determined tree) : (statements first rest).Determined tree := by
  intro other follow follow' n ts us has hasOther same tokens
  cases other with
  | noStatements => cases has.own_eq hasOther same rfl rfl
  | statements first' rest' =>
    obtain ⟨hasFirst, hasRest⟩ := has.both rfl
    obtain ⟨otherFirst, otherRest⟩ := hasOther.both rfl
    have own := has.own_eq hasOther same rfl rfl
    simp only [Node.mk.injEq, NodeKind.statementCell.injEq, Option.some.injEq] at own
    rw [tokens_statements, tokens_statements, List.append_assoc, List.append_assoc] at tokens
    obtain ⟨rfl, restTokens⟩ := firstDetermined first' follow follow' (n + 1) _ _ hasFirst
      otherFirst (slot_eq_of_root (by decide) own.2.2.1) tokens
    have restSame : rest.slot (n + 1 + first.size) = rest'.slot (n + 1 + first.size) := by
      rw [slot_statements, slot_statements]
    obtain ⟨rfl, behind⟩ := restDetermined rest' follow follow' (n + 1 + first.size) _ _
      hasRest otherRest restSame restTokens
    exact ⟨rfl, behind⟩

/-- A definition does not stand where an expression does. -/
theorem slot_definition_ne_plain {keyword : TokenOf .letKeyword} {symbol : TokenOf .identifier}
    {sign : TokenOf .assign} {initializer value : SyntaxTree TokenOf .expression}
    {follow follow' : Token} {n : NodeId}
    (has : tree.HasSite ⟨definition keyword symbol sign initializer, follow, n⟩)
    (hasPlain : tree.HasSite ⟨plain value, follow', n⟩) :
    (definition keyword symbol sign initializer).slot n ≠ (plain value).slot n := by
  intro same
  have slot : value.slot n = some (n + initializer.size) := by
    rw [slot_eq_some (by decide)] at same ⊢
    exact same.symm
  obtain ⟨node, found, admits⟩ := (hasPlain.only rfl).shows slot
  rw [has.own rfl] at found
  cases found
  cases admits

/-- An operator does not stand where an operand does. -/
theorem slot_pipe_ne_operand {left : SyntaxTree TokenOf .expression} {operator : TokenOf .pipe}
    {right value : SyntaxTree TokenOf .operand} {follow follow' : Token} {n : NodeId}
    (has : tree.HasSite ⟨pipe left operator right, follow, n⟩)
    (hasOperand : tree.HasSite ⟨operand value, follow', n⟩) :
    (pipe left operator right).slot n ≠ (operand value).slot n := by
  intro same
  have slot : value.slot n = some (n + left.size + right.size) := by
    rw [slot_eq_some (by decide)] at same ⊢
    exact same.symm
  obtain ⟨node, found, admits⟩ := (hasOperand.only rfl).shows slot
  rw [has.own rfl] at found
  cases found
  cases admits

theorem determined_definition {keyword : TokenOf .letKeyword} {symbol : TokenOf .identifier}
    {sign : TokenOf .assign} {initializer : SyntaxTree TokenOf .expression}
    (determined : initializer.Determined tree) :
    (definition keyword symbol sign initializer).Determined tree := by
  intro other follow follow' n ts us has hasOther same tokens
  cases other with
  | definition keyword' symbol' sign' initializer' =>
    have own := has.own_eq hasOther same rfl rfl
    simp only [Node.mk.injEq, NodeKind.definition.injEq] at own
    simp only [tokens_definition, List.cons_append, List.cons.injEq] at tokens
    obtain ⟨keywordEq, symbolEq, signEq, tokens⟩ := tokens
    obtain ⟨rfl, behind⟩ := determined initializer' follow follow' n ts us
      (has.only rfl) (hasOther.only rfl)
      (slot_eq_of_root (by decide) own.2.2) tokens
    rw [Subtype.ext keywordEq, Subtype.ext symbolEq, Subtype.ext signEq]
    exact ⟨rfl, behind⟩
  | plain value => exact absurd same (slot_definition_ne_plain has hasOther)

theorem determined_plain {value : SyntaxTree TokenOf .expression}
    (determined : value.Determined tree) : (plain value).Determined tree := by
  intro other follow follow' n ts us has hasOther same tokens
  cases other with
  | definition => exact absurd same.symm (slot_definition_ne_plain hasOther has)
  | plain value' =>
    obtain ⟨rfl, behind⟩ := determined value' follow follow' n ts us
      (has.only rfl) (hasOther.only rfl)
      (slot_eq_of_root (by decide) (Option.some.inj same)) tokens
    exact ⟨rfl, behind⟩

theorem determined_operand {value : SyntaxTree TokenOf .operand}
    (determined : value.Determined tree) : (operand value).Determined tree := by
  intro other follow follow' n ts us has hasOther same tokens
  cases other with
  | pipe => exact absurd same.symm (slot_pipe_ne_operand hasOther has)
  | operand value' =>
    obtain ⟨rfl, behind⟩ := determined value' follow follow' n ts us
      (has.only rfl) (hasOther.only rfl)
      (slot_eq_of_root (by decide) (Option.some.inj same)) tokens
    exact ⟨rfl, behind⟩

theorem determined_pipe {left : SyntaxTree TokenOf .expression} {operator : TokenOf .pipe}
    {right : SyntaxTree TokenOf .operand} (leftDetermined : left.Determined tree)
    (rightDetermined : right.Determined tree) : (pipe left operator right).Determined tree := by
  intro other follow follow' n ts us has hasOther same tokens
  cases other with
  | operand value => exact absurd same (slot_pipe_ne_operand has hasOther)
  | pipe left' operator' right' =>
    obtain ⟨hasLeft, hasRight⟩ := has.both rfl
    obtain ⟨otherLeft, otherRight⟩ := hasOther.both rfl
    have own := has.own_eq hasOther same rfl rfl
    simp only [Node.mk.injEq, NodeKind.binary.injEq] at own
    obtain ⟨-, operatorEq, leftRoot, rightRoot⟩ := own
    rw [tokens_pipe, tokens_pipe, List.append_assoc, List.append_assoc] at tokens
    obtain ⟨rfl, rightTokens⟩ := leftDetermined left' follow follow' n _ _ hasLeft otherLeft
      (slot_eq_of_root (by decide) leftRoot) tokens
    obtain ⟨rfl, behind⟩ := rightDetermined right' follow follow' (n + left.size) ts us
      hasRight otherRight
      (slot_eq_of_root (by decide) rightRoot) (List.cons.inj rightTokens).2
    rw [Subtype.ext operatorEq]
    exact ⟨rfl, behind⟩

theorem determined_number (digits : TokenOf .number) : (number digits).Determined tree := by
  intro other follow follow' n ts us has hasOther same tokens
  cases other with
  | number digits' =>
    have digitsEq : digits = digits' := Subtype.ext (List.cons.inj tokens).1
    rw [digitsEq]
    exact ⟨rfl, (List.cons.inj tokens).2⟩
  | _ => cases congrArg Node.kind (has.own_eq hasOther same rfl rfl)

theorem determined_name (word : TokenOf .identifier) : (name word).Determined tree := by
  intro other follow follow' n ts us has hasOther same tokens
  cases other with
  | name word' =>
    have wordEq : word = word' := Subtype.ext (List.cons.inj tokens).1
    rw [wordEq]
    exact ⟨rfl, (List.cons.inj tokens).2⟩
  | _ => cases congrArg Node.kind (has.own_eq hasOther same rfl rfl)

theorem determined_function {opening : TokenOf .leftBrace} {body : SyntaxTree TokenOf .statements}
    {closing : TokenOf .rightBrace} (determined : body.Determined tree) :
    (function opening body closing).Determined tree := by
  intro other follow follow' n ts us has hasOther same tokens
  cases other with
  | function opening' body' closing' =>
    have bodySame : body.slot n = body'.slot n := by
      rw [slot_statements, slot_statements]
    simp only [tokens_function, List.cons_append, List.append_assoc, List.cons.injEq,
      List.nil_append] at tokens
    obtain ⟨rfl, closingTokens⟩ := determined body' closing.1 closing'.1 n _ _
      (has.only rfl) (hasOther.only rfl) bodySame tokens.2
    rw [Subtype.ext tokens.1, Subtype.ext (List.cons.inj closingTokens).1]
    exact ⟨rfl, (List.cons.inj closingTokens).2⟩
  | _ => cases congrArg Node.kind (has.own_eq hasOther same rfl rfl)

theorem determined_call {opening : TokenOf .leftParen} {callee : SyntaxTree TokenOf .expression}
    {others : SyntaxTree TokenOf .arguments} {closing : TokenOf .rightParen}
    (calleeDetermined : callee.Determined tree) (othersDetermined : others.Determined tree) :
    (call opening callee others closing).Determined tree := by
  intro other follow follow' n ts us has hasOther same tokens
  cases other with
  | call opening' callee' others' closing' =>
    obtain ⟨hasCallee, hasOthers⟩ := has.both rfl
    obtain ⟨otherCallee, otherOthers⟩ := hasOther.both rfl
    have own := has.own_eq hasOther same rfl rfl
    simp only [Node.mk.injEq, NodeKind.call.injEq] at own
    obtain ⟨-, openingEq, calleeRoot, othersSlot⟩ := own
    simp only [tokens_call, List.cons_append, List.append_assoc, List.cons.injEq,
      List.nil_append] at tokens
    obtain ⟨rfl, othersTokens⟩ := calleeDetermined callee' follow follow' n _ _ hasCallee
      otherCallee (slot_eq_of_root (by decide) calleeRoot) tokens.2
    obtain ⟨rfl, closingTokens⟩ := othersDetermined others' follow follow' (n + callee.size) _ _
      hasOthers otherOthers othersSlot othersTokens
    rw [Subtype.ext openingEq, Subtype.ext (List.cons.inj closingTokens).1]
    exact ⟨rfl, (List.cons.inj closingTokens).2⟩
  | _ => cases congrArg Node.kind (has.own_eq hasOther same rfl rfl)

theorem determined_noArguments : (noArguments (α := TokenOf)).Determined tree := by
  intro other follow follow' n ts us has hasOther same tokens
  cases other with
  | noArguments => exact ⟨rfl, tokens⟩
  | arguments first rest => cases same

theorem determined_arguments {first : SyntaxTree TokenOf .expression}
    {rest : SyntaxTree TokenOf .arguments} (firstDetermined : first.Determined tree)
    (restDetermined : rest.Determined tree) : (arguments first rest).Determined tree := by
  intro other follow follow' n ts us has hasOther same tokens
  cases other with
  | noArguments => cases same
  | arguments first' rest' =>
    obtain ⟨hasFirst, hasRest⟩ := has.both rfl
    obtain ⟨otherFirst, otherRest⟩ := hasOther.both rfl
    have own := has.own_eq hasOther same rfl rfl
    simp only [Node.mk.injEq, NodeKind.argumentCell.injEq] at own
    obtain ⟨-, -, firstRoot, restSlot⟩ := own
    rw [tokens_arguments, tokens_arguments, List.append_assoc, List.append_assoc] at tokens
    obtain ⟨rfl, restTokens⟩ := firstDetermined first' follow follow' n _ _ hasFirst otherFirst
      (slot_eq_of_root (by decide) firstRoot) tokens
    obtain ⟨rfl, behind⟩ := restDetermined rest' follow follow' (n + first.size) _ _
      hasRest otherRest restSlot restTokens
    exact ⟨rfl, behind⟩

theorem determined (tree : Tree) {part : Part} (form : SyntaxTree TokenOf part) :
    form.Determined tree := by
  induction form with
  | noStatements => exact determined_noStatements
  | statements _ _ first rest => exact determined_statements first rest
  | definition _ _ _ _ initializer => exact determined_definition initializer
  | plain _ value => exact determined_plain value
  | operand _ value => exact determined_operand value
  | pipe _ _ _ left right => exact determined_pipe left right
  | number digits => exact determined_number digits
  | name word => exact determined_name word
  | function _ _ _ body => exact determined_function body
  | call _ _ _ _ callee others => exact determined_call callee others
  | noArguments => exact determined_noArguments
  | arguments _ _ first rest => exact determined_arguments first rest

end SyntaxTree

/-! ## Programs -/

/-- A buffer is written for one tree at most. -/
theorem TokenBuffer.syntaxTree_unique {buffer : TokenBuffer}
    {program other : SyntaxTree TokenOf .statements} (written : program.tokens = buffer.body)
    (otherWritten : other.tokens = buffer.body) : program = other := by
  obtain ⟨tree, parsed, -, nodes⟩ := parse_layout written
  obtain ⟨tree', parsed', -, otherNodes⟩ := parse_layout otherWritten
  rw [parsed] at parsed'
  cases parsed'
  have same : program.slot 0 = other.slot 0 := by
    rw [SyntaxTree.slot_statements, SyntaxTree.slot_statements]
  have tokens : program.tokens ++ [] = other.tokens ++ [] := by rw [written, otherWritten]
  exact (program.determined tree other _ _ 0 [] [] (Tree.hasSite_of_layout nodes)
    (Tree.hasSite_of_layout otherNodes) same tokens).1

/-- An arena holds the layout of a program and nothing else. -/
structure Tree.LaidOut (tree : Tree) (program : SyntaxTree TokenOf .statements) (last : Token) :
    Prop where
  root : tree.root = 0
  nodes : tree.nodes.toList = program.layout last 0
  ids : tree.nodes.toList.map Node.id = List.range tree.size
  /-- Every subtree stands in the arena as a block of nodes with consecutive names. -/
  blocks : ∀ site : Site, site.Within ⟨program, last, 0⟩ →
    tree.HasSite site ∧ site.nodes.map Node.id = List.range' site.start site.form.size
  /-- Every node is the own one of a subtree, and its slots hold the parts of that subtree. -/
  links : ∀ node ∈ tree.nodes.toList, ∃ site : Site, site.Within ⟨program, last, 0⟩ ∧
    site.own? = some node ∧ site.slot = some node.id ∧
    node.kind.children = site.parts.flatMap fun part => part.slot.toList

/-- An arena that a parse gives is laid out for the one program that the buffer is written
for. -/
theorem TokenBuffer.parse_laidOut (buffer : TokenBuffer) (tree : Tree)
    (parsed : buffer.parse = .ok tree) :
    ∃ program : SyntaxTree TokenOf .statements,
      (∀ other : SyntaxTree TokenOf .statements, other.tokens = buffer.body ↔ other = program) ∧
      tree.LaidOut program buffer.last := by
  obtain ⟨program, written, root, nodes⟩ := exists_layout parsed
  refine ⟨program, fun other => ?_, ?_⟩
  · constructor
    · intro otherWritten
      exact syntaxTree_unique otherWritten written
    · rintro rfl
      exact written
  have has := Tree.hasSite_of_layout nodes
  constructor
  case root => rw [root, SyntaxTree.root_statements]
  case nodes => exact nodes
  case ids => exact Tree.ids_of_layout nodes
  case blocks =>
    intro site within
    exact ⟨has.within within, site.ids_nodes⟩
  case links =>
    intro node mem
    rw [nodes] at mem
    obtain ⟨site, within, own⟩ := Site.exists_own ⟨program, buffer.last, 0⟩ mem
    exact ⟨site, within, own, Site.children_own own⟩

/-- The tokens of `let f = {x} (f a |> g 1)`. -/
def TokenBuffer.defineAndCall : TokenBuffer where
  body := [.ofLexeme .letKeyword ['l', 'e', 't'] ⟨0, 1, 1⟩,
    .ofLexeme .identifier ['f'] ⟨4, 1, 5⟩, .ofLexeme .assign ['='] ⟨6, 1, 7⟩,
    .ofLexeme .leftBrace ['{'] ⟨8, 1, 9⟩, .ofLexeme .identifier ['x'] ⟨9, 1, 10⟩,
    .ofLexeme .rightBrace ['}'] ⟨10, 1, 11⟩, .ofLexeme .leftParen ['('] ⟨12, 1, 13⟩,
    .ofLexeme .identifier ['f'] ⟨13, 1, 14⟩, .ofLexeme .identifier ['a'] ⟨15, 1, 16⟩,
    .ofLexeme .pipe ['|', '>'] ⟨17, 1, 18⟩, .ofLexeme .identifier ['g'] ⟨20, 1, 21⟩,
    .ofLexeme .number ['1'] ⟨22, 1, 23⟩, .ofLexeme .rightParen [')'] ⟨23, 1, 24⟩]
  last := .endAt ⟨24, 1, 25⟩
  body_kind := by decide
  last_kind := rfl

theorem TokenBuffer.defineAndCall_laidOut :
    ∃ tree, defineAndCall.parse = .ok tree ∧ ∃ program : SyntaxTree TokenOf .statements,
      (∀ other : SyntaxTree TokenOf .statements,
        other.tokens = defineAndCall.body ↔ other = program) ∧
      tree.LaidOut program defineAndCall.last :=
  ⟨_, rfl, parse_laidOut defineAndCall _ rfl⟩

end PipeScript
