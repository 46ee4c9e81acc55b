import PipeScript.Proofs.GraphText
import PipeScript.Proofs.Parallel
import PipeScript.Proofs.PrintedOutline
import PipeScript.Render.Backend

/-!
# Renderings tell programs apart

Two programs have the same outline if their tokens agree, and only then; and the same holds of
their graphs (`Backend.render_faithful`).

Programs whose tokens agree are of one shape, so their trees have the same nodes, with tokens that
are shown alike. The lines of an outline come from the shape and the values of numbers and names
(`SyntaxTree.lines_eq`). A graph is drawn from names, kinds and labels of nodes alone
(`Digraph.render_eq`). The way back is `SyntaxTree.told` for outlines and `SyntaxTree.pictured` for
graphs.
-/

namespace PipeScript

/-! ## Tokens that are shown alike -/

/-- Two tokens of sources that stand for the same. -/
structure Token.Matches (t u : Token) : Prop where
  agrees : t.Agrees u
  genuine : t.kind = .endOfInput ∨ t.Genuine ∧ u.Genuine

namespace Token.Matches

variable {t u : Token}

theorem kind_eq (matched : t.Matches u) : t.kind = u.kind := matched.agrees.kind

theorem display_eq (matched : t.Matches u) : t.display = u.display := by
  rcases matched.genuine with ending | ⟨genuine, genuineToo⟩
  · rw [display, display, ending, matched.kind_eq.symm.trans ending]
  · exact (genuine.display_eq_iff genuineToo).mpr matched.agrees

theorem lexeme_eq (matched : t.Matches u) (notEnd : t.kind ≠ .endOfInput)
    (notNumber : t.kind ≠ .number) : t.lexeme = u.lexeme := by
  obtain ⟨genuine, genuineToo⟩ := matched.genuine.resolve_left notEnd
  exact genuine.lexeme_eq genuineToo matched.agrees notNumber

end Token.Matches

/-- The tokens of two sources agree if they do before the end of the input. -/
theorem TokenBuffer.matches_of_body {source other : String} {buffer buffer' : TokenBuffer}
    (lexed : ofSource source = .ok buffer) (lexed' : ofSource other = .ok buffer')
    (agree : List.Forall₂ Token.Agrees buffer.body buffer'.body) :
    List.Forall₂ Token.Matches buffer.tokens buffer'.tokens := by
  obtain ⟨genuine, valued⟩ := genuine_of_ofSource lexed
  obtain ⟨genuine', valued'⟩ := genuine_of_ofSource lexed'
  have lasts : buffer.last.Agrees buffer'.last :=
    Token.agrees_of_value (buffer.last_kind.trans buffer'.last_kind.symm)
      (valued.trans valued'.symm)
  refine List.rel_append ?_ (.cons ⟨lasts, Or.inl buffer.last_kind⟩ .nil)
  refine List.forall₂_iff_get.mpr ⟨agree.length_eq, fun i bound bound' => ⟨?_, ?_⟩⟩
  · exact agree.get bound bound'
  · exact Or.inr ⟨genuine _ (List.getElem_mem _), genuine' _ (List.getElem_mem _)⟩

/-! ## Outlines of one shape -/

/-- Trees of one shape have the same lines, if their tokens stand for the same. -/
theorem SyntaxTree.lines_eq {part : Part} (pairs : SyntaxTree (PairOf Token.Matches) part)
    (depth : Nat) :
    (pairs.map PairOf.first).lines depth = (pairs.map PairOf.second).lines depth := by
  have lexemes {kind : Kind} (pair : PairOf Token.Matches kind) (notEnd : kind ≠ .endOfInput)
      (notNumber : kind ≠ .number) : pair.1.1.1.lexeme = pair.1.2.1.lexeme := by
    have isKind := pair.1.1.2
    exact pair.2.lexeme_eq (by rwa [isKind]) (by rwa [isKind])
  induction pairs generalizing depth with
  | noStatements | noArguments => rfl
  | statements first rest firstIh restIh =>
    rw [map, map, lines, lines, firstIh, restIh]
  | definition _ symbol _ initializer ih =>
    have names := lexemes symbol (by decide) (by decide)
    simp only [map, lines, ih, PairOf.first, PairOf.second, names]
  | plain value ih => exact ih depth
  | operand value ih => exact ih depth
  | pipe left operator right leftIh rightIh =>
    have signs := lexemes operator (by decide) (by decide)
    simp only [map, lines, leftIh, rightIh, PairOf.first, PairOf.second, signs]
  | number digits =>
    have values := digits.2.agrees.number
    simp only [map, lines, PairOf.first, PairOf.second, values]
  | name word =>
    have names := lexemes word (by decide) (by decide)
    simp only [map, lines, PairOf.first, PairOf.second, names]
  | function _ body _ ih => simp only [map, lines, ih]
  | call _ callee others _ calleeIh othersIh => simp only [map, lines, calleeIh, othersIh]
  | arguments first rest firstIh restIh => rw [map, map, lines, lines, firstIh, restIh]

/-! ## Graphs of one shape -/

/-- Nodes that look the same in a graph. -/
abbrev Node.LooksLike : Node → Node → Prop := Node.Alike fun t u => t.display = u.display

theorem Node.LooksLike.isSentinel_eq {node other : Node} (looks : node.LooksLike other) :
    node.isSentinel = other.isSentinel := by
  rw [isSentinel, isSentinel, looks.kind]

namespace Tree

variable {tree other : Tree}

section

variable (alike : List.Forall₂ Node.LooksLike tree.nodes.toList other.nodes.toList)

include alike

theorem size_eq_of_alike : tree.size = other.size := by
  rw [Arena.size, Arena.size, ← Array.length_toList, alike.length_eq, Array.length_toList]

/-- What is in a slot of one tree looks like what is in the same slot of the other. -/
theorem get?_rel (slot : Option NodeId) :
    Option.Rel Node.LooksLike (tree.get? slot) (other.get? slot) := by
  cases slot with
  | none => exact .none
  | some id => exact node?_rel alike id

theorem filled?_rel (slot : Option NodeId) :
    Option.Rel Node.LooksLike (tree.filled? slot) (other.filled? slot) := by
  rw [filled?, filled?]
  rcases rel_cases (get?_rel alike slot) with ⟨nothing, nothing'⟩ | ⟨node, node', eq, eq', looks⟩
  · rw [nothing, nothing']
    exact .none
  · rw [eq, eq', Option.filter_some, Option.filter_some, looks.isSentinel_eq]
    split
    · exact .some looks
    · exact .none

theorem arguments_eq_of_alike (slot : Option NodeId) :
    tree.arguments slot = other.arguments slot := by
  have steps : tree.nextArgument = other.nextArgument := by
    funext cursor
    have kinds : (tree.get? cursor).map Node.kind = (other.get? cursor).map Node.kind := by
      rcases rel_cases (get?_rel alike cursor) with ⟨nothing, nothing'⟩ | ⟨_, _, eq, eq', looks⟩
      · rw [nothing, nothing']
      · rw [eq, eq', Option.map_some, Option.map_some, looks.kind]
    rw [nextArgument, nextArgument, kinds]
  rw [arguments, arguments, steps, size_eq_of_alike alike]

end

end Tree

namespace Digraph

variable {tree other : Tree}

theorem declare_eq {node node' : Node} (looks : node.LooksLike node') (graph : Digraph) :
    graph.declare node = graph.declare node' := by
  rw [declare, declare, looks.id, looks.token]

theorem drawCell_eq {cell cell' : Node} (looks : cell.LooksLike cell') {next next' : Option Node}
    (nextLooks : Option.Rel Node.LooksLike next next') (statement : NodeId) (graph : Digraph) :
    graph.drawCell cell statement next = graph.drawCell cell' statement next' := by
  simp only [drawCell, declare_eq looks, looks.id]
  cases nextLooks with
  | none => rfl
  | some nextLooks => simp only [nextLooks.id]

variable (alike : List.Forall₂ Node.LooksLike tree.nodes.toList other.nodes.toList)

include alike

theorem chainLink?_rel {cell cell' : Node} (looks : cell.LooksLike cell') :
    Option.Rel (fun link link' => link.1 = link'.1 ∧ Option.Rel Node.LooksLike link.2 link'.2)
      (tree.chainLink? cell) (other.chainLink? cell') := by
  rw [Tree.chainLink?, Tree.chainLink?, ← looks.kind]
  split
  · exact .some ⟨rfl, Tree.filled?_rel alike _⟩
  · exact .none

/-- Chains of cells that look the same are drawn alike. -/
theorem drawChain_eq (visit : Option NodeId → Visit Digraph) (limit : Nat) {cell cell' : Node}
    (looks : cell.LooksLike cell') (graph : Digraph) :
    drawChain tree visit limit cell graph = drawChain other visit limit cell' graph := by
  induction limit generalizing cell cell' graph with
  | zero => rfl
  | succ limit ih =>
    rw [drawChain, drawChain]
    rcases rel_cases (chainLink?_rel alike looks) with ⟨nothing, nothing'⟩ |
      ⟨⟨statement, next⟩, ⟨_, next'⟩, eq, eq', rfl, nextLooks⟩
    · rw [nothing, nothing']
    · rw [eq, eq']
      simp only [drawCell_eq looks nextLooks]
      cases visit (some statement) (graph.drawCell cell' statement next') with
      | error fault => rfl
      | ok drawn =>
        cases nextLooks with
        | none => rfl
        | some nextLooks => exact ih nextLooks drawn

/-- At nodes that look the same the renderer does the same. -/
theorem onKind_eq (visit : Option NodeId → Visit Digraph) {node node' : Node}
    (looks : node.LooksLike node') :
    (visitor tree visit).onKind node = (visitor other visit).onKind node' := by
  funext graph
  have declared := declare_eq looks graph
  rw [Visitor.onKind, Visitor.onKind, ← looks.kind]
  cases kind : node.kind with
  | constant => exact congrArg Except.ok declared
  | reference => exact congrArg Except.ok declared
  | binary left right => simp only [visitor, declared, looks.id]
  | function body =>
    have bodies : Option.Rel Node.LooksLike (tree.node? body) (other.node? body) :=
      Tree.get?_rel alike (some body)
    simp only [visitor, declared, looks.id]
    rcases rel_cases bodies with ⟨nothing, nothing'⟩ | ⟨_, _, eq, eq', bodyLooks⟩
    · rw [nothing, nothing']
    · simp only [eq, eq', bodyLooks.isSentinel_eq]
  | call callee arguments =>
    simp only [visitor, declared, looks.id, Tree.arguments_eq_of_alike alike]
  | argumentCell => rfl
  | definition initializer => simp only [visitor, declared, looks.id]
  | statementCell statement next =>
    simp only [visitor, Tree.size_eq_of_alike alike]
    exact drawChain_eq alike visit _ looks graph

theorem walkTo_eq (depth : Nat) :
    tree.walkTo (visitor tree) depth = other.walkTo (visitor other) depth := by
  induction depth with
  | zero => rfl
  | succ depth ih =>
    funext slot
    rw [Tree.walkTo, Tree.walkTo, ih, Tree.dispatch, Tree.dispatch]
    rcases rel_cases (Tree.get?_rel alike slot) with ⟨nothing, nothing'⟩ | ⟨_, _, eq, eq', looks⟩
    · rw [nothing, nothing']
    · simp only [eq, eq', onKind_eq alike _ looks]
      rfl

/-- Trees of nodes that look the same have the same graph. -/
theorem render_eq (roots : tree.root = other.root) (graph : Digraph) :
    graph.render tree = graph.render other := by
  rw [render, render, Tree.walk, Tree.walk, walkTo_eq alike, Tree.size_eq_of_alike alike, roots]

end Digraph

/-! ## Both formats -/

namespace Backend

section Layout

variable {tree : Tree} {program : SyntaxTree TokenOf .statements} {last : Token}

theorem render_outline (root : tree.root = program.root 0)
    (nodes : tree.nodes.toList = program.layout last 0) :
    outline.render tree = .ok (String.join ((program.lines 0).map OutlineLine.text)) := by
  rw [render, create, Renderer.render, Outline.render_layout root nodes]
  rfl

theorem render_digraph (root : tree.root = program.root 0)
    (nodes : tree.nodes.toList = program.layout last 0) :
    ∃ order : List Node, order.Perm tree.nodes.toList ∧
      digraph.render tree = .ok (graphHeader ++
        String.join ((order.flatMap tree.drawing).map GraphItem.text) ++ graphFooter) := by
  obtain ⟨order, perm, rendered⟩ := Digraph.render_layout root nodes .empty
  refine ⟨order, perm, ?_⟩
  rw [render, create, Renderer.render, rendered]
  rfl

end Layout

/-- A parsed tree is rendered in every format. -/
theorem exists_render {buffer : TokenBuffer} {tree : Tree} (parsed : buffer.parse = .ok tree)
    (backend : Backend) : ∃ text, backend.render tree = .ok text := by
  obtain ⟨program, -, root, nodes⟩ := buffer.exists_layout parsed
  cases backend with
  | outline => exact ⟨_, render_outline root nodes⟩
  | digraph =>
    obtain ⟨order, -, rendered⟩ := render_digraph root nodes
    exact ⟨_, rendered⟩

section Two

variable {buffer buffer' : TokenBuffer} {tree tree' : Tree}

/-- Programs whose tokens stand for the same are rendered alike. -/
theorem render_eq_of_matches
    (matched : List.Forall₂ Token.Matches buffer.tokens buffer'.tokens)
    (parsed : buffer.parse = .ok tree) (parsed' : buffer'.parse = .ok tree') (backend : Backend) :
    backend.render tree = backend.render tree' := by
  have sameKind (t u : Token) (matched : t.Matches u) : t.kind = u.kind := matched.kind_eq
  obtain ⟨bodies, lasts⟩ := TokenBuffer.forall₂_body matched
  obtain ⟨program, written, root, nodes⟩ := buffer.exists_layout parsed
  rw [← written] at bodies
  obtain ⟨pairs, rfl, written'⟩ := program.exists_pairs sameKind _ bodies
  -- The second tokens of the pairs are the other program, so the other tree is its layout.
  obtain ⟨_, parsedToo, root', nodes'⟩ := TokenBuffer.parse_layout written'
  cases parsed'.symm.trans parsedToo
  cases backend with
  | outline => rw [render_outline root nodes, render_outline root' nodes', pairs.lines_eq]
  | digraph =>
    have alike := pairs.layout_alike lasts 0
    rw [← nodes, ← nodes'] at alike
    have looks : List.Forall₂ Node.LooksLike tree.nodes.toList tree'.nodes.toList :=
      alike.imp fun _ _ same => ⟨same.id, same.kind, same.token.display_eq⟩
    have roots : tree.root = tree'.root := by
      rw [root, root', SyntaxTree.root_map, SyntaxTree.root_map]
    rw [render, create, Renderer.render, render, create, Renderer.render,
      Digraph.render_eq looks roots]

variable (genuine : ∀ t ∈ buffer.body, t.Genuine) (genuine' : ∀ t ∈ buffer'.body, t.Genuine)
  (parsed : buffer.parse = .ok tree) (parsed' : buffer'.parse = .ok tree')

include genuine genuine' parsed parsed'

/-- Programs with the same outline have tokens that agree. -/
theorem agree_of_render_outline (same : outline.render tree = outline.render tree') :
    List.Forall₂ Token.Agrees buffer.body buffer'.body := by
  obtain ⟨program, written, root, nodes⟩ := buffer.exists_layout parsed
  obtain ⟨program', written', root', nodes'⟩ := buffer'.exists_layout parsed'
  rw [← written] at genuine ⊢
  rw [← written'] at genuine' ⊢
  rw [render_outline root nodes, render_outline root' nodes'] at same
  have lines := OutlineLine.eq_of_join (program.plain_lines 0 genuine)
    (program'.plain_lines 0 genuine') (Except.ok.inj same)
  exact (program.told program' 0 [] [] genuine genuine' nofun nofun
    (by rw [List.append_nil, List.append_nil, lines])).1

/-- Programs with the same graph have tokens that agree. -/
theorem agree_of_render_digraph (same : digraph.render tree = digraph.render tree') :
    List.Forall₂ Token.Agrees buffer.body buffer'.body := by
  obtain ⟨program, written, root, nodes⟩ := buffer.exists_layout parsed
  obtain ⟨program', written', root', nodes'⟩ := buffer'.exists_layout parsed'
  obtain ⟨order, perm, rendered⟩ := render_digraph root nodes
  obtain ⟨order', perm', rendered'⟩ := render_digraph root' nodes'
  rw [← written] at genuine ⊢
  rw [← written'] at genuine' ⊢
  rw [rendered, rendered'] at same
  have joined := (String.append_right_inj _).mp ((String.append_left_inj _).mp (Except.ok.inj same))
  have plain (tree : Tree) (order : List Node) : ∀ item ∈ order.flatMap tree.drawing, item.Plain :=
    List.forall_mem_flatMap.mpr fun node _ => tree.plain_drawing node
  have items := GraphItem.eq_of_join (plain tree order) (plain tree' order') joined
  have alike := Tree.drawsAlike_of_lines nodes nodes' perm perm' items
  have has := Tree.hasSite_of_layout nodes
  have has' := Tree.hasSite_of_layout nodes'
  exact program.pictured alike program' _ _ 0 0 has has' genuine genuine'
    (Site.entries_program alike has has')

end Two

/-- For any two programs it is the same that their tokens agree, each in kind, text and number,
that they have the same outline, and that they have the same graph. -/
theorem render_faithful (source other : String) (buffer buffer' : TokenBuffer) (tree tree' : Tree)
    (lexed : TokenBuffer.ofSource source = .ok buffer)
    (lexed' : TokenBuffer.ofSource other = .ok buffer')
    (parsed : buffer.parse = .ok tree) (parsed' : buffer'.parse = .ok tree') :
    ∃ text text' picture picture',
      outline.render tree = .ok text ∧ outline.render tree' = .ok text' ∧
      digraph.render tree = .ok picture ∧ digraph.render tree' = .ok picture' ∧
      (List.Forall₂ Token.Agrees buffer.tokens buffer'.tokens ↔ text = text') ∧
      (List.Forall₂ Token.Agrees buffer.tokens buffer'.tokens ↔ picture = picture') := by
  obtain ⟨text, outlined⟩ := exists_render parsed outline
  obtain ⟨text', outlined'⟩ := exists_render parsed' outline
  obtain ⟨picture, drawn⟩ := exists_render parsed digraph
  obtain ⟨picture', drawn'⟩ := exists_render parsed' digraph
  have genuine := (TokenBuffer.genuine_of_ofSource lexed).1
  have genuine' := (TokenBuffer.genuine_of_ofSource lexed').1
  have alike (agree : List.Forall₂ Token.Agrees buffer.tokens buffer'.tokens) :=
    render_eq_of_matches
      (TokenBuffer.matches_of_body lexed lexed' (TokenBuffer.forall₂_body agree).1) parsed parsed'
  have agree (bodies : List.Forall₂ Token.Agrees buffer.body buffer'.body) :
      List.Forall₂ Token.Agrees buffer.tokens buffer'.tokens :=
    (TokenBuffer.matches_of_body lexed lexed' bodies).imp fun _ _ matched => matched.agrees
  refine ⟨text, text', picture, picture', outlined, outlined', drawn, drawn', ⟨?_, ?_⟩, ⟨?_, ?_⟩⟩
  · intro agrees
    exact Except.ok.inj (outlined.symm.trans ((alike agrees outline).trans outlined'))
  · rintro rfl
    exact agree (agree_of_render_outline genuine genuine' parsed parsed'
      (outlined.trans outlined'.symm))
  · intro agrees
    exact Except.ok.inj (drawn.symm.trans ((alike agrees digraph).trans drawn'))
  · rintro rfl
    exact agree (agree_of_render_digraph genuine genuine' parsed parsed' (drawn.trans drawn'.symm))

end Backend

/-- The tokens of `x |> 1`. -/
def TokenBuffer.pipedOne : TokenBuffer where
  body := [.ofLexeme .identifier ['x'] ⟨0, 1, 1⟩, .ofLexeme .pipe ['|', '>'] ⟨2, 1, 3⟩,
    .ofLexeme .number ['1'] ⟨5, 1, 6⟩]
  last := .endAt ⟨6, 1, 7⟩
  body_kind := by decide
  last_kind := rfl

/-- The same on two lines, with a zero in front of the number. -/
def TokenBuffer.pipedOneBelow : TokenBuffer where
  body := [.ofLexeme .identifier ['x'] ⟨0, 1, 1⟩, .ofLexeme .pipe ['|', '>'] ⟨2, 2, 1⟩,
    .ofLexeme .number ['0', '1'] ⟨4, 2, 3⟩]
  last := .endAt ⟨6, 2, 5⟩
  body_kind := by decide
  last_kind := rfl

theorem Backend.render_pipedOne :
    TokenBuffer.ofSource "x |> 1" = .ok .pipedOne ∧
      TokenBuffer.ofSource "x\n|>01" = .ok .pipedOneBelow ∧
      ∃ tree tree' text picture, TokenBuffer.pipedOne.parse = .ok tree ∧
        TokenBuffer.pipedOneBelow.parse = .ok tree' ∧
        outline.render tree = .ok text ∧ outline.render tree' = .ok text ∧
        digraph.render tree = .ok picture ∧ digraph.render tree' = .ok picture := by
  have lexed : TokenBuffer.ofSource "x |> 1" = .ok .pipedOne :=
    TokenBuffer.ofLexer_eq_ok.mpr (by decide)
  have lexed' : TokenBuffer.ofSource "x\n|>01" = .ok .pipedOneBelow :=
    TokenBuffer.ofLexer_eq_ok.mpr (by decide)
  obtain ⟨text, _, picture, _, outlined, outlined', drawn, drawn', outlines, graphs⟩ :=
    render_faithful "x |> 1" "x\n|>01" .pipedOne .pipedOneBelow _ _ lexed lexed' rfl rfl
  have agree : List.Forall₂ Token.Agrees TokenBuffer.pipedOne.tokens
      TokenBuffer.pipedOneBelow.tokens :=
    .cons ⟨rfl, rfl, rfl⟩ (.cons ⟨rfl, rfl, rfl⟩ (.cons ⟨rfl, rfl, rfl⟩
      (.cons ⟨rfl, rfl, rfl⟩ .nil)))
  cases outlines.mp agree
  cases graphs.mp agree
  exact ⟨lexed, lexed', _, _, text, picture, rfl, rfl, outlined, outlined', drawn, drawn'⟩

end PipeScript
