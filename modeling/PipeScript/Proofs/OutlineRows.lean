import Mathlib.Tactic.Choose
import PipeScript.Proofs.AnchorPlaces
import PipeScript.Proofs.PrintedOutline

/-!
# The outline in an arena

Every node but the cells of lists has a line in an outline. The slots that lead from the root to
the node are its path, and the outline is in the order of the paths: a node stands before those
below it, and what is in its first slot before what is in its second one. For the slots of an arena
that was parsed this is the order of the source, and the cells on a path make no level.

An `OutlineRow` is a line with its node and path. `Site.HasRows` says what the rows of a subtree
have to be, with paths from the node that stands for it. The rows of the parts, each behind its
slot, and the own node before them are the rows of the whole (`Tree.HasSite.rows_own`), so every
subtree has rows (`Tree.HasSite.exists_rows`). `Outline.render_rows` is that for the outline of
every program.
-/

namespace PipeScript

/-- A line of an outline with the node that it is for, and the slots that lead there. -/
structure OutlineRow where
  path : List Nat
  node : Node
  line : OutlineLine

/-- The same row, seen from where a further slot leads to it. -/
def OutlineRow.below (slot : Nat) (row : OutlineRow) : OutlineRow :=
  { row with path := slot :: row.path }

/-- A row as it is written: two spaces for every level, what the line says, and a line feed. -/
def OutlineRow.written (row : OutlineRow) : String :=
  String.join (List.replicate row.line.depth "  ") ++ row.line.label ++ "\n"

/-- What the line of a node says. Cells of lists have no line. -/
def Node.caption (node : Node) : Option String :=
  match node.kind with
  | .constant => node.token.number?.map fun value => "num " ++ value.text
  | .reference => some ("ref " ++ node.token.lexeme)
  | .binary _ _ => some "|>"
  | .function _ => some "fn"
  | .call _ _ => some "call"
  | .definition _ => some ("let " ++ node.token.lexeme)
  | .argumentCell _ _ | .statementCell _ _ => none

/-- The row of a node itself, if it has a line. -/
def Node.rows (node : Node) (depth : Nat) : List OutlineRow :=
  node.caption.toList.map fun label => ⟨[], node, ⟨depth, label⟩⟩

/-- A row stands before another one: its path does, and unless it leads past the node of the row,
the token of the node does too. -/
def OutlineRow.Precedes (before : Token → Token → Prop) (row later : OutlineRow) : Prop :=
  row.path < later.path ∧ (row.path <+: later.path ∨ before row.node.token later.node.token)

/-- How many levels a node makes for those below it. -/
def NodeKind.levels (kind : NodeKind) : Nat := if kind.isCell then 0 else 1

namespace Tree

/-- The nodes that a path of child slots leads past. -/
def trail (tree : Tree) : NodeId → List Nat → List NodeId
  | _, [] => []
  | id, slot :: path =>
    id :: (tree.child? id slot).elim [] fun child => tree.trail child path

/-- How many nodes that are no cells a path leads past. -/
def level (tree : Tree) (root : NodeId) (path : List Nat) : Nat :=
  (tree.trail root path).countP fun id => (tree.kind? id).any (!·.isCell)

variable {tree : Tree} {id child : NodeId} {node : Node} {slot : Nat}

theorem level_cons (found : tree.node? id = some node) (named : tree.child? id slot = some child)
    (path : List Nat) :
    tree.level id (slot :: path) = node.kind.levels + tree.level child path := by
  have kindAt : tree.kind? id = some node.kind := kind?_eq_some.mpr ⟨node, found, rfl⟩
  cases isCell : node.kind.isCell <;>
    simp [level, trail, named, kindAt, NodeKind.levels, isCell, Nat.add_comm]

end Tree

/-! ## The own node of a subtree -/

namespace Site

variable {site : Site} {node : Node}

/-- The parts of a site are in the slots of its own node. -/
theorem slots_own (own : site.own? = some node) :
    site.parts.map slot <+: node.kind.slots := by
  obtain ⟨form, follow, n⟩ := site
  cases form with
  | plain | operand | noArguments => cases own
  | _ =>
    cases own
    simp [parts, slot, NodeKind.slots, SyntaxTree.slot_eq_some, SyntaxTree.root_statements,
      NodeKind.sentinel]

/-- The tokens of the parts stand in the whole, in the same order. -/
theorem tokens_parts (site : Site) :
    (site.parts.flatMap fun part => part.form.tokens).Sublist site.form.tokens := by
  obtain ⟨form, follow, n⟩ := site
  cases form with
  | definition keyword symbol sign initializer =>
    simpa [parts] using
      List.sublist_append_right [keyword.1, symbol.1, sign.1] initializer.tokens
  | _ => simp [parts]

/-- A node of a program that was lexed has a line unless it is a cell. -/
theorem isSome_caption (own : site.own? = some node) (genuine : site.form.Genuine) :
    node.caption.isSome = !node.kind.isCell := by
  obtain ⟨form, follow, n⟩ := site
  cases form with
  | plain | operand | noArguments => cases own
  | number digits =>
    cases own
    rw [Node.caption, (genuine digits.1 List.mem_cons_self).number_eq digits.2]
    rfl
  | _ =>
    cases own
    rfl

/-- The first line of a site is that of its own node, and the others are those of its parts. -/
theorem lines_own (own : site.own? = some node) (genuine : site.form.Genuine) (depth : Nat) :
    site.form.lines depth = (node.rows depth).map OutlineRow.line ++
      site.parts.flatMap fun part => part.form.lines (depth + node.kind.levels) := by
  obtain ⟨form, follow, n⟩ := site
  cases form with
  | plain | operand | noArguments => cases own
  | pipe left operator right =>
    have isOperator := (SyntaxTree.genuine_pipe.mp genuine).2.1
    have lexeme : operator.1.lexeme = "|>" :=
      String.toList_injective (isOperator.toList_lexeme (by decide))
    cases own
    simp [parts, SyntaxTree.lines, Node.rows, Node.caption, NodeKind.levels, NodeKind.isCell,
      lexeme]
  | number digits =>
    have value := (genuine digits.1 List.mem_cons_self).number_eq digits.2
    cases own
    simp [parts, SyntaxTree.lines, Node.rows, Node.caption, value]
  | _ =>
    cases own
    simp [parts, SyntaxTree.lines, Node.rows, Node.caption, NodeKind.levels, NodeKind.isCell,
      NodeKind.sentinel]

/-- A site without an own node has no nodes at all, or is its only part. -/
theorem parts_of_own?_eq_none (own : site.own? = none) :
    site.nodes = [] ∧ site.form.lines = (fun _ => []) ∨
      ∃ part : Site, site.parts = [part] ∧ site.slot = part.slot ∧ site.nodes = part.nodes ∧
        site.form.tokens = part.form.tokens ∧ site.form.lines = part.form.lines := by
  obtain ⟨form, follow, n⟩ := site
  cases form with
  | plain value =>
    exact .inr ⟨⟨value, follow, n⟩, rfl, (SyntaxTree.slot_eq_some (by decide) value n).symm,
      rfl, rfl, rfl⟩
  | operand value =>
    exact .inr ⟨⟨value, follow, n⟩, rfl, (SyntaxTree.slot_eq_some (by decide) value n).symm,
      rfl, rfl, rfl⟩
  | noArguments => exact .inl ⟨rfl, rfl⟩
  | _ => cases own

end Site

/-! ## Rows of subtrees -/

/-- A row is for a node of a subtree on a level, with a path from what stands for the subtree. -/
structure OutlineRow.Fits (row : OutlineRow) (tree : Tree) (site : Site) (depth : Nat) : Prop where
  leads : ∃ root, site.slot = some root ∧ tree.follow? root row.path = some row.node.id ∧
    row.line.depth = depth + tree.level root row.path
  label : row.node.caption = some row.line.label
  token : row.node.token ∈ site.form.tokens

/-- The rows of a subtree on a level. -/
structure Site.HasRows (site : Site) (tree : Tree) (before : Token → Token → Prop) (depth : Nat)
    (rows : List OutlineRow) : Prop where
  lines : rows.map OutlineRow.line = site.form.lines depth
  nodes : (rows.map OutlineRow.node).Perm (site.nodes.filter (!·.kind.isCell))
  each : ∀ row ∈ rows, row.Fits tree site depth
  sorted : rows.Pairwise (OutlineRow.Precedes before)

/-- The rows of the parts of a site, each behind its slot. -/
def Site.rowsBelow (rows : Site → List OutlineRow) (site : Site) : List OutlineRow :=
  site.parts.zipIdx.flatMap fun (part, slot) => (rows part).map (OutlineRow.below slot)

section Below

variable {rows : Site → List OutlineRow} {site : Site}

theorem mem_rowsBelow {row : OutlineRow} :
    row ∈ site.rowsBelow rows ↔ ∃ slot part, site.parts[slot]? = some part ∧
      ∃ inner ∈ rows part, inner.below slot = row := by
  simp only [Site.rowsBelow, List.mem_flatMap, List.mem_map, Prod.exists,
    List.mem_zipIdx_iff_getElem?]
  exact exists_comm

/-- Nothing but the paths changes behind a slot. -/
theorem map_rowsBelow {β : Type} (f : OutlineRow → β)
    (same : ∀ slot row, f (OutlineRow.below slot row) = f row) :
    (site.rowsBelow rows).map f = site.parts.flatMap fun part => (rows part).map f := by
  have parts : site.parts.zipIdx.map Prod.fst = site.parts := List.zipIdx_map_fst 0 site.parts
  rw [Site.rowsBelow, List.map_flatMap, ← parts, List.flatMap_map, parts]
  simp [Function.comp_def, same]

end Below

namespace Tree

variable {tree : Tree} {site : Site} {node : Node} {before : Token → Token → Prop} {depth : Nat}
  {rows : Site → List OutlineRow}

/-- A part of a site is in its slot of the own node. -/
theorem HasSite.child?_own {slot : Nat} {part : Site} (has : tree.HasSite site)
    (own : site.own? = some node) (isPart : site.parts[slot]? = some part) :
    tree.child? node.id slot = part.slot := by
  have inMap : (site.parts.map Site.slot)[slot]? = some part.slot := by
    rw [List.getElem?_map, isPart]
    rfl
  obtain ⟨others, slots⟩ := Site.slots_own own
  have bound := (List.getElem?_eq_some_iff.mp inMap).1
  rw [child?, has.own own, Option.bind_some, ← slots, List.getElem?_append_left bound, inMap]
  rfl

/-- A row of a part is one of the whole behind the slot of the part. -/
theorem HasSite.fits_below {slot : Nat} {part : Site} {row : OutlineRow} (has : tree.HasSite site)
    (own : site.own? = some node) (isPart : site.parts[slot]? = some part)
    (fits : row.Fits tree part (depth + node.kind.levels)) :
    (row.below slot).Fits tree site depth := by
  obtain ⟨child, filled, leads, level⟩ := fits.leads
  have named : tree.child? node.id slot = some child := (has.child?_own own isPart).trans filled
  refine ⟨⟨node.id, (Site.children_own own).1, ?_, ?_⟩, fits.label, ?_⟩
  · exact (congrArg (Option.bind · _) named).trans leads
  · exact level.trans (by rw [OutlineRow.below, level_cons (has.own own) named, Nat.add_assoc])
  · exact site.tokens_parts.subset
      (List.mem_flatMap.mpr ⟨part, List.mem_of_getElem? isPart, fits.token⟩)

/-- The row of the own node of a site fits it. -/
theorem fits_rows (own : site.own? = some node) (genuine : site.form.Genuine) :
    ∀ row ∈ node.rows depth, row.Fits tree site depth := by
  intro row mem
  obtain ⟨label, caption, rfl⟩ := List.mem_map.mp mem
  have caption := Option.mem_toList.mp caption
  refine ⟨⟨node.id, (Site.children_own own).1, rfl, rfl⟩, caption, ?_⟩
  have notCell := Site.isSome_caption own genuine
  rw [caption] at notCell
  rcases Site.token_own own with isToken | ⟨sentinel, -⟩
  · exact isToken
  · rw [of_decide_eq_true sentinel] at notCell
    cases notCell

/-- What stands in one slot stands in order, and before what stands in a later one. -/
theorem sorted_below (pairs : site.form.tokens.Pairwise before)
    (parts : ∀ part ∈ site.parts, part.HasRows tree before (depth + node.kind.levels) (rows part)) :
    (site.rowsBelow rows).Pairwise (OutlineRow.Precedes before) := by
  have across := (List.pairwise_flatMap.mp (pairs.sublist site.tokens_parts)).2
  refine List.pairwise_flatMap.mpr ⟨?_, ?_⟩
  · rintro ⟨part, slot⟩ isPart
    have sorted := (parts part (List.fst_mem_of_mem_zipIdx isPart)).sorted
    refine List.pairwise_map.mpr (sorted.imp ?_)
    rintro row later ⟨less, order⟩
    exact ⟨List.cons_lt_cons_self.mpr less,
      order.imp_left fun leads => List.cons_prefix_cons.mpr ⟨rfl, leads⟩⟩
  · -- The slots of two parts tell their paths apart, and their tokens are in the same order.
    have slots : site.parts.zipIdx.Pairwise fun a b => a.2 < b.2 := by
      refine List.pairwise_map.mp ?_
      rw [List.zipIdx_map_snd]
      exact List.pairwise_lt_range'
    rw [← List.zipIdx_map_fst 0 site.parts] at across
    refine ((List.pairwise_map.mp across).and slots).imp_of_mem ?_
    rintro ⟨part, slot⟩ ⟨other, larger⟩ isPart isOther ⟨tokens, less⟩ row mem later memToo
    obtain ⟨inner, isInner, rfl⟩ := List.mem_map.mp mem
    obtain ⟨innerToo, isInnerToo, rfl⟩ := List.mem_map.mp memToo
    have fits := (parts part (List.fst_mem_of_mem_zipIdx isPart)).each inner isInner
    have fitsToo := (parts other (List.fst_mem_of_mem_zipIdx isOther)).each innerToo isInnerToo
    exact ⟨List.cons_lt_cons_iff.mpr (.inl less), .inr (tokens _ fits.token _ fitsToo.token)⟩

/-- The own node and the parts of a site make its rows. -/
theorem HasSite.rows_own (has : tree.HasSite site) (own : site.own? = some node)
    (genuine : site.form.Genuine) (pairs : site.form.tokens.Pairwise before)
    (parts : ∀ part ∈ site.parts, part.HasRows tree before (depth + node.kind.levels) (rows part)) :
    site.HasRows tree before depth (node.rows depth ++ site.rowsBelow rows) := by
  constructor
  case lines =>
    rw [List.map_append, map_rowsBelow OutlineRow.line fun _ _ => rfl,
      Site.lines_own own genuine]
    exact congrArg _ (List.flatMap_congr fun part isPart => (parts part isPart).lines)
  case nodes =>
    have ownNode : (node.rows depth).map OutlineRow.node =
        site.own?.toList.filter (!·.kind.isCell) := by
      have captioned := Site.isSome_caption own genuine
      rw [own, Node.rows, List.map_map]
      cases caption : node.caption <;> rw [caption] at captioned <;> simp [← captioned]
    have perm := site.nodes_perm.filter (!·.kind.isCell)
    rw [List.filter_append, List.filter_flatMap] at perm
    rw [List.map_append, map_rowsBelow OutlineRow.node fun _ _ => rfl, ownNode]
    refine List.Perm.trans ?_ perm.symm
    exact (List.Perm.flatMap_left _ fun part isPart => (parts part isPart).nodes).append_left _
  case each =>
    refine List.forall_mem_append.mpr ⟨fits_rows own genuine, fun row mem => ?_⟩
    obtain ⟨slot, part, isPart, inner, isInner, rfl⟩ := mem_rowsBelow.mp mem
    exact has.fits_below own isPart
      ((parts part (List.mem_of_getElem? isPart)).each inner isInner)
  case sorted =>
    refine List.pairwise_append.mpr ⟨?_, sorted_below pairs parts, ?_⟩
    · rw [Node.rows]
      cases node.caption <;> simp
    · intro row isOwn later mem
      obtain ⟨label, -, rfl⟩ := List.mem_map.mp isOwn
      obtain ⟨slot, part, -, inner, -, rfl⟩ := mem_rowsBelow.mp mem
      exact ⟨List.nil_lt_cons _ _, .inl List.nil_prefix⟩

/-- Every subtree of a program that was lexed has rows. -/
theorem HasSite.exists_rows (has : tree.HasSite site) (genuine : site.form.Genuine)
    (pairs : site.form.tokens.Pairwise before) (depth : Nat) :
    ∃ rows, site.HasRows tree before depth rows := by
  induction site using Site.induction generalizing depth with
  | step site ih =>
    cases own : site.own? with
    | some node =>
      -- The rows of the parts are one level deeper, unless the node is a cell.
      have inParts : ∀ part ∈ site.parts, ∃ rows,
          part.HasRows tree before (depth + node.kind.levels) rows := by
        intro part isPart
        refine ih part isPart (has.parts isPart) (fun t mem => genuine t ?_) ?_ _
        · exact site.tokens_parts.subset (List.mem_flatMap.mpr ⟨part, isPart, mem⟩)
        · exact (List.pairwise_flatMap.mp (pairs.sublist site.tokens_parts)).1 part isPart
      choose! rows parts using inParts
      exact ⟨_, has.rows_own own genuine pairs parts⟩
    | none =>
      rcases Site.parts_of_own?_eq_none own with
        ⟨nodes, lines⟩ | ⟨part, parts, slot, nodes, tokens, lines⟩
      · refine ⟨[], ?_, ?_, fun _ mem => absurd mem List.not_mem_nil, .nil⟩
        · rw [lines]
          rfl
        · rw [nodes]
          exact .refl _
      · have isPart : part ∈ site.parts := by simp [parts]
        rw [SyntaxTree.Genuine, tokens] at genuine
        rw [tokens] at pairs
        obtain ⟨rows, printed, perm, each, sorted⟩ :=
          ih part isPart (has.parts isPart) genuine pairs depth
        refine ⟨rows, lines ▸ printed, nodes ▸ perm, fun row mem => ?_, sorted⟩
        obtain ⟨leads, label, token⟩ := each row mem
        exact ⟨slot ▸ leads, label, tokens ▸ token⟩

end Tree

/-! ## The outline of a program -/

/-- Two spaces for every level are twice as many spaces. -/
theorem join_replicate_indent (depth : Nat) :
    String.join (List.replicate depth "  ") =
      String.ofList (List.replicate (2 * depth) ' ') := by
  induction depth with
  | zero => rfl
  | succ depth ih =>
    have twoMore : List.replicate (2 * (depth + 1)) ' ' =
        [' ', ' '] ++ List.replicate (2 * depth) ' ' := rfl
    rw [List.replicate_succ, String.join_cons, ih, twoMore, String.ofList_append]

theorem OutlineRow.written_eq (row : OutlineRow) : row.written = row.line.text := by
  rw [written, join_replicate_indent, OutlineLine.text]

/-- The rows of an arena: one for every node that is no cell, in the order in which their paths
from the root come, which is that of the source. -/
structure Tree.Outlined (tree : Tree) (rows : List OutlineRow) : Prop where
  nodes : (rows.map OutlineRow.node).Perm (tree.nodes.toList.filter (!·.kind.isCell))
  path : ∀ row ∈ rows, tree.follow? tree.root row.path = some row.node.id
  preorder : rows.Pairwise fun row later => row.path < later.path
  /-- A row is for a node above that of a later row, or for one further to the left. -/
  source_order : rows.Pairwise fun row later =>
    row.path <+: later.path ∨ row.node.token.span.start < later.node.token.span.start
  depth : ∀ row ∈ rows, row.line.depth = tree.level tree.root row.path
  label : ∀ row ∈ rows, row.node.caption = some row.line.label
  /-- The label is all there is in its line. -/
  plain : ∀ row ∈ rows, PlainLabel row.line.label

/-- The outline of a program that is parsed has a line for every node that is no cell, from the
root on, and it leaves the printer empty, whatever that has printed before. -/
theorem Outline.render_rows (printer : Outline) (lexer : Lexer) (buffer : TokenBuffer)
    (tree : Tree) (lexed : TokenBuffer.ofLexer lexer = .ok buffer)
    (parsed : buffer.parse = .ok tree) :
    ∃ rows : List OutlineRow,
      printer.render tree = .ok (String.join (rows.map OutlineRow.written), empty) ∧
      tree.Outlined rows ∧ rows.length = buffer.tokens.countP (·.kind.isAnchor) := by
  have tiled : Tiled lexer.place lexer.rest buffer.tokens :=
    (TokenBuffer.ofLexer_eq_ok.mp lexed).tiled
  obtain ⟨program, written, root, nodes⟩ := buffer.exists_layout parsed
  have tokens : program.tokens ++ [buffer.last] = buffer.tokens := by
    rw [written, TokenBuffer.tokens]
  have genuine : program.Genuine := by
    rw [SyntaxTree.Genuine, written]
    exact tiled.genuine.1
  have ordered : program.tokens.Pairwise fun t u => t.span.start < u.span.start := by
    have pairs := tiled.ordered
    rw [← tokens] at pairs
    exact (pairs.sublist (List.sublist_append_left _ _)).imp And.left
  obtain ⟨rows, lines, perm, each, sorted⟩ :=
    (Tree.hasSite_of_layout nodes).exists_rows genuine ordered 0
  have rendered := render_layout root nodes printer
  rw [SyntaxTree.root_statements] at root
  have perm : (rows.map OutlineRow.node).Perm (tree.nodes.toList.filter (!·.kind.isCell)) := by
    rw [nodes]
    exact perm
  have placed (row : OutlineRow) (mem : row ∈ rows) :
      tree.follow? tree.root row.path = some row.node.id ∧
        row.line.depth = tree.level tree.root row.path := by
    obtain ⟨start, filled, leads, level⟩ := (each row mem).leads
    rw [root]
    cases (program.slot_statements 0).symm.trans filled
    exact ⟨leads, level.trans (Nat.zero_add _)⟩
  refine ⟨rows, ?_, ?_, ?_⟩
  · have texts : rows.map OutlineRow.written = (program.lines 0).map OutlineLine.text := by
      rw [← lines, List.map_map]
      exact List.map_congr_left fun row _ => row.written_eq
    rw [texts]
    exact rendered
  · constructor
    case nodes => exact perm
    case path => exact fun row mem => (placed row mem).1
    case preorder => exact sorted.imp And.left
    case source_order => exact sorted.imp And.right
    case depth => exact fun row mem => (placed row mem).2
    case label => exact fun row mem => (each row mem).label
    case plain =>
      intro row mem
      refine program.plain_lines 0 genuine row.line ?_
      rw [← lines]
      exact List.mem_map_of_mem mem
  · have anchors := (Tree.anchors_perm nodes buffer.last_kind).length_eq
    rw [tokens, List.length_map, ← perm.length_eq, List.length_map] at anchors
    rw [anchors, List.countP_eq_length_filter]

/-- The tokens of `let a = b |> {(f 1)}`. -/
def TokenBuffer.definePipedCall : TokenBuffer where
  body := [.ofLexeme .letKeyword ['l', 'e', 't'] ⟨0, 1, 1⟩,
    .ofLexeme .identifier ['a'] ⟨4, 1, 5⟩, .ofLexeme .assign ['='] ⟨6, 1, 7⟩,
    .ofLexeme .identifier ['b'] ⟨8, 1, 9⟩, .ofLexeme .pipe ['|', '>'] ⟨10, 1, 11⟩,
    .ofLexeme .leftBrace ['{'] ⟨13, 1, 14⟩, .ofLexeme .leftParen ['('] ⟨14, 1, 15⟩,
    .ofLexeme .identifier ['f'] ⟨15, 1, 16⟩, .ofLexeme .number ['1'] ⟨17, 1, 18⟩,
    .ofLexeme .rightParen [')'] ⟨18, 1, 19⟩, .ofLexeme .rightBrace ['}'] ⟨19, 1, 20⟩]
  last := .endAt ⟨20, 1, 21⟩
  body_kind := by decide
  last_kind := rfl

/-- A printer that is not empty, and stands on some level. -/
theorem Outline.render_definePipedCall :
    TokenBuffer.ofLexer (.ofSource "let a = b |> {(f 1)}") = .ok .definePipedCall ∧
      ∃ tree rows, TokenBuffer.definePipedCall.parse = .ok tree ∧
        render ⟨#[⟨3, "fn"⟩], 2⟩ tree = .ok (String.join (rows.map OutlineRow.written), empty) ∧
        tree.Outlined rows ∧ rows.length = 7 := by
  have lexed : TokenBuffer.ofLexer (.ofSource "let a = b |> {(f 1)}") = .ok .definePipedCall :=
    TokenBuffer.ofLexer_eq_ok.mpr (by decide)
  obtain ⟨rows, rendered, outlined, count⟩ :=
    render_rows ⟨#[⟨3, "fn"⟩], 2⟩ (.ofSource "let a = b |> {(f 1)}") .definePipedCall _ lexed rfl
  exact ⟨lexed, _, rows, rfl, rendered, outlined, count⟩

end PipeScript
