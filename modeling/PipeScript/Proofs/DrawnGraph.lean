import Mathlib.Data.List.Nodup
import Mathlib.Data.List.Perm.Basic
import PipeScript.Proofs.Anchors
import PipeScript.Proofs.Drawing
import PipeScript.Proofs.ShownText
import PipeScript.Proofs.Tiling

/-!
# The graph of a program

The graph of a program is its tree without the cells of argument lists and without sentinels.
What stands for a part of the tree in the graph is `Site.entries`: the arguments of a call stand
for the list of them, and nothing stands for an empty list of statements. The entries of a tree
and the targets of all edges below are its declared nodes, each of them once
(`Site.targets_perm`). So in the graph of a program every node but the root has one edge that
leads to it.

`Digraph.render_parse` says what the text of a graph consists of, for every source that is
parsed.
-/

namespace PipeScript

/-! ## Targets and declarations -/

/-- The node that a line declares. -/
def GraphItem.declared? : GraphItem → Option NodeId
  | node id _ => some id
  | edge _ _ _ => none

/-- The node that a line leads to. -/
def GraphItem.target? : GraphItem → Option NodeId
  | node _ _ => none
  | edge _ target _ => some target

/-- The declared node of a line, or the one that its edge leaves. -/
def GraphItem.source : GraphItem → NodeId
  | node id _ => id
  | edge source _ _ => source

/-- What is declared of a node. -/
def Node.declared (node : Node) : List NodeId := if node.isDrawn then [node.id] else []

namespace Tree

variable {tree : Tree} {node : Node}

/-- Where the lines of a node lead to. -/
def targets (tree : Tree) (node : Node) : List NodeId :=
  if node.isDrawn then (tree.arrows node).map Prod.fst else []

theorem filterMap_declared_drawing (node : Node) :
    (tree.drawing node).filterMap GraphItem.declared? = node.declared := by
  unfold drawing Node.declared
  split
  · have undeclared : ((tree.arrows node).map fun arrow =>
        GraphItem.edge node.id arrow.1 arrow.2).filterMap GraphItem.declared? = [] := by
      simp [List.filterMap_map, GraphItem.declared?]
    exact congrArg (node.id :: ·) undeclared
  · rfl

theorem filterMap_target_drawing (node : Node) :
    (tree.drawing node).filterMap GraphItem.target? = tree.targets node := by
  unfold drawing targets
  split
  · rw [List.filterMap_cons_none rfl, List.filterMap_map]
    exact List.filterMap_eq_map ▸ rfl
  · rfl

theorem targets_function (id body : NodeId) (t : Token) :
    tree.targets ⟨id, t, .function body⟩ = tree.unlessSentinel (some body) := by
  change ((tree.unlessSentinel (some body)).map (·, some "body")).map Prod.fst = _
  rw [List.map_map]
  exact List.map_id _

theorem targets_statementCell (id statement next : NodeId) (t : Token) :
    tree.targets ⟨id, t, .statementCell (some statement) (some next)⟩ =
      statement :: tree.unlessSentinel (some next) := by
  change statement :: ((tree.unlessSentinel (some next)).map (·, some "next")).map Prod.fst = _
  rw [List.map_map]
  exact congrArg (statement :: ·) (List.map_id _)

theorem targets_call {arguments : Option NodeId} {ids : List NodeId}
    (chain : tree.arguments arguments = .ok ids) (id callee : NodeId) (t : Token) :
    tree.targets ⟨id, t, .call callee arguments⟩ = callee :: ids := by
  change callee ::
    (((tree.arguments arguments).toOption.getD []).map (·, some "arg")).map Prod.fst = _
  rw [chain, List.map_map]
  exact congrArg (callee :: ·) (List.map_id _)

theorem isDrawn_of_drawing {item : GraphItem} (mem : item ∈ tree.drawing node) : node.isDrawn := by
  unfold drawing at mem
  split at mem
  · assumption
  · cases mem

theorem source_of_drawing {item : GraphItem} (mem : item ∈ tree.drawing node) :
    item.source = node.id := by
  unfold drawing at mem
  split at mem
  · rcases List.mem_cons.mp mem with rfl | edge
    · rfl
    · obtain ⟨arrow, -, rfl⟩ := List.mem_map.mp edge
      rfl
  · cases mem

end Tree

/-! ## What stands for a tree in its graph -/

namespace Site

open SyntaxTree (noStatements noArguments arguments)

/-- The nodes that stand for a tree among those that are drawn. -/
def entries : Site → List NodeId
  | ⟨noStatements, _, _⟩ => []
  | ⟨noArguments, _, _⟩ => []
  | ⟨arguments first rest, _, n⟩ => (arguments first rest).itemIds n
  | ⟨form, _, n⟩ => [form.root n]

theorem entries_arguments (list : SyntaxTree TokenOf .arguments) (follow : Token) (n : NodeId) :
    entries ⟨list, follow, n⟩ = list.itemIds n := by
  cases list <;> rfl

theorem entries_single {part : Part} (notList : part ≠ .statements)
    (notArguments : part ≠ .arguments) (form : SyntaxTree TokenOf part) (follow : Token)
    (n : NodeId) : entries ⟨form, follow, n⟩ = [form.root n] := by
  cases form <;> first | rfl | contradiction

theorem entries_cell (first : SyntaxTree TokenOf .statement) (rest : SyntaxTree TokenOf .statements)
    (follow : Token) (n : NodeId) : entries ⟨.statements first rest, follow, n⟩ = [n] := rfl

/-- What stands for a list of statements is its first cell, unless that is the sentinel. -/
theorem entries_statements {tree : Tree} {list : SyntaxTree TokenOf .statements} {follow : Token}
    {n : NodeId} (has : tree.HasSite ⟨list, follow, n⟩) :
    entries ⟨list, follow, n⟩ = tree.unlessSentinel (some n) := by
  cases list with
  | noStatements => rw [Digraph.unlessSentinel_some (has.own rfl)]; rfl
  | statements => rw [Digraph.unlessSentinel_some (has.own rfl)]; rfl

/-- The edges of a node lead to what stands for its parts, and a node that is not drawn is
replaced by that. -/
theorem entries_own {tree : Tree} {site : Site} (has : tree.HasSite site) :
    site.entries ++ site.own?.toList.flatMap tree.targets =
      site.own?.toList.flatMap Node.declared ++ site.parts.flatMap entries := by
  obtain ⟨form, follow, n⟩ := site
  cases form with
  | noStatements => rfl
  | statements first rest =>
    have firstEntries := entries_single (by decide) (by decide) first follow (n + 1)
    have restEntries := entries_statements (has.both rfl).2
    simp only [own?, parts, List.flatMap_cons, List.flatMap_nil, firstEntries, restEntries,
      Option.toList_some, Tree.targets_statementCell]
    rfl
  | definition _ _ _ initializer =>
    have initializerEntries := entries_single (by decide) (by decide) initializer follow n
    simp only [own?, parts, List.flatMap_cons, List.flatMap_nil, initializerEntries]
    rfl
  | plain value =>
    have valueEntries := entries_single (by decide) (by decide) value follow n
    simp only [own?, parts, List.flatMap_cons, List.flatMap_nil, valueEntries]
    rfl
  | operand value =>
    have valueEntries := entries_single (by decide) (by decide) value follow n
    simp only [own?, parts, List.flatMap_cons, List.flatMap_nil, valueEntries]
    rfl
  | pipe left _ right =>
    have leftEntries := entries_single (by decide) (by decide) left follow n
    have rightEntries := entries_single (by decide) (by decide) right follow (n + left.size)
    simp only [own?, parts, List.flatMap_cons, List.flatMap_nil, leftEntries, rightEntries]
    rfl
  | number => rfl
  | name => rfl
  | function _ body closing =>
    have bodyEntries := entries_statements (has.only rfl)
    simp only [own?, parts, List.flatMap_cons, List.flatMap_nil, bodyEntries, Option.toList_some,
      Tree.targets_function, SyntaxTree.root_statements]
    rfl
  | call _ callee others _ =>
    have calleeEntries := entries_single (by decide) (by decide) callee follow n
    have othersEntries := entries_arguments others follow (n + callee.size)
    have chain := tree.arguments_of_layout others follow _ (has.both rfl).2
    simp only [own?, parts, List.flatMap_cons, List.flatMap_nil, calleeEntries, othersEntries,
      Option.toList_some, Tree.targets_call chain]
    rfl
  | noArguments => rfl
  | arguments first rest =>
    have firstEntries := entries_single (by decide) (by decide) first follow n
    have restEntries := entries_arguments rest follow (n + first.size)
    simp only [own?, parts, List.flatMap_cons, List.flatMap_nil, firstEntries, restEntries,
      List.append_nil]
    exact List.append_nil ((arguments first rest).itemIds n)

/-- What stands for a tree, and the targets of all edges below, are the declared nodes of the
tree, each of them once. -/
theorem targets_perm {tree : Tree} (site : Site) (has : tree.HasSite site) :
    (site.entries ++ site.nodes.flatMap tree.targets).Perm (site.nodes.flatMap Node.declared) := by
  induction site using Site.induction with
  | step site ih =>
    -- The entries of the parts are left over by the parts, and `entries_own` accounts for them.
    have inParts : (site.parts.flatMap entries ++
        site.parts.flatMap fun part => part.nodes.flatMap tree.targets).Perm
        (site.parts.flatMap fun part => part.nodes.flatMap Node.declared) :=
      (List.flatMap_append_perm _ _ _).trans
        (List.Perm.flatMap_left _ fun part isPart => ih part isPart (has.parts isPart))
    have targets := site.nodes_perm.flatMap_right tree.targets
    have declared := site.nodes_perm.flatMap_right Node.declared
    rw [List.flatMap_append, List.flatMap_assoc] at targets declared
    refine (targets.append_left _).trans (List.Perm.trans ?_ declared.symm)
    rw [← List.append_assoc, entries_own has, List.append_assoc]
    exact inParts.append_left _

end Site

/-! ## The lines of a program -/

namespace Tree

/-- The names of the declared nodes are names of nodes. -/
theorem flatMap_declared (nodes : List Node) :
    nodes.flatMap Node.declared = (nodes.filter Node.isDrawn).map Node.id := by
  induction nodes with
  | nil => rfl
  | cons node nodes ih =>
    rw [List.flatMap_cons, ih, List.filter_cons, Node.declared]
    split <;> rfl

section Program

variable {tree : Tree} {program : SyntaxTree TokenOf .statements} {last : Token}
  {order : List Node}

theorem filterMap_declared (order : List Node) :
    (order.flatMap tree.drawing).filterMap GraphItem.declared? = order.flatMap Node.declared := by
  rw [List.filterMap_flatMap]
  exact List.flatMap_congr fun node _ => filterMap_declared_drawing node

theorem filterMap_target (order : List Node) :
    (order.flatMap tree.drawing).filterMap GraphItem.target? = order.flatMap tree.targets := by
  rw [List.filterMap_flatMap]
  exact List.flatMap_congr fun node _ => filterMap_target_drawing node

/-- In whatever order nodes are drawn, no two have one name. -/
theorem pairwise_ids (nodes : tree.nodes.toList = program.layout last 0)
    (perm : order.Perm tree.nodes.toList) : order.Pairwise fun a b => a.id ≠ b.id := by
  have ids : (order.map Node.id).Nodup := by
    rw [(perm.map Node.id).nodup_iff, ids_of_layout nodes]
    exact List.nodup_range
  exact List.pairwise_map.mp ids

theorem nodup_declared (nodes : tree.nodes.toList = program.layout last 0)
    (perm : order.Perm tree.nodes.toList) : (order.flatMap Node.declared).Nodup := by
  rw [flatMap_declared]
  have ids : (order.map Node.id).Nodup := List.pairwise_map.mpr (pairwise_ids nodes perm)
  exact ids.sublist (List.filter_sublist.map Node.id)

/-- What stands for a program and the targets of its edges are its declared nodes. -/
theorem targets_perm_of_layout (nodes : tree.nodes.toList = program.layout last 0)
    (perm : order.Perm tree.nodes.toList) :
    (Site.entries ⟨program, last, 0⟩ ++ order.flatMap tree.targets).Perm
      (order.flatMap Node.declared) := by
  have whole := Site.targets_perm ⟨program, last, 0⟩ (hasSite_of_layout nodes)
  rw [Site.nodes, ← nodes] at whole
  exact ((perm.flatMap_right tree.targets).append_left _).trans
    (whole.trans (perm.flatMap_right Node.declared).symm)

theorem nodup_drawing {node : Node} (targets : (tree.targets node).Nodup) :
    (tree.drawing node).Nodup := by
  unfold drawing
  unfold Tree.targets at targets
  split
  · rename_i drawn
    rw [if_pos drawn] at targets
    refine List.nodup_cons.mpr ⟨by simp, ?_⟩
    refine (List.Nodup.of_map _ targets).map fun a b same => ?_
    obtain ⟨-, target, label⟩ := GraphItem.edge.inj same
    exact Prod.ext target label
  · exact List.nodup_nil

/-- No line is drawn twice. -/
theorem nodup_items (nodes : tree.nodes.toList = program.layout last 0)
    (perm : order.Perm tree.nodes.toList) : (order.flatMap tree.drawing).Nodup := by
  have targets : (order.flatMap tree.targets).Nodup := by
    have whole := (targets_perm_of_layout nodes perm).nodup_iff.mpr (nodup_declared nodes perm)
    exact whole.of_append_right
  refine List.nodup_flatMap.mpr ⟨?_, ?_⟩
  · intro node mem
    exact nodup_drawing ((List.nodup_flatMap.mp targets).1 node mem)
  · refine (pairwise_ids nodes perm).imp fun {a b} different item inA inB => ?_
    exact different ((source_of_drawing inA).symm.trans (source_of_drawing inB))

/-- No edge stands before the declaration of the node that it leaves. -/
theorem pairwise_items (nodes : tree.nodes.toList = program.layout last 0)
    (perm : order.Perm tree.nodes.toList) :
    (order.flatMap tree.drawing).Pairwise fun first second =>
      ∀ source target label other, first = .edge source target label →
        second ≠ .node source other := by
  refine List.pairwise_flatMap.mpr ⟨?_, ?_⟩
  · intro node _
    unfold drawing
    split
    · refine List.pairwise_cons.mpr ⟨fun _ _ => by simp, ?_⟩
      rw [List.pairwise_map]
      exact List.pairwise_of_forall fun _ _ _ _ _ _ _ => nofun
    · exact List.Pairwise.nil
  · refine (pairwise_ids nodes perm).imp fun {a b} different first inA second inB => ?_
    rintro source target label other rfl rfl
    have leaves : source = a.id := source_of_drawing inA
    have declares : source = b.id := source_of_drawing inB
    exact different (leaves.symm.trans declares)

/-- A node is declared before the edges that leave it. -/
theorem declared_before (nodes : tree.nodes.toList = program.layout last 0)
    (perm : order.Perm tree.nodes.toList) {i : Nat} {source target : NodeId}
    {label : Option String}
    (found : (order.flatMap tree.drawing)[i]? = some (.edge source target label)) :
    ∃ j text, j < i ∧ (order.flatMap tree.drawing)[j]? = some (.node source text) := by
  obtain ⟨node, inOrder, inNode⟩ := List.mem_flatMap.mp (List.mem_of_getElem? found)
  have leaves : source = node.id := source_of_drawing inNode
  have declares : GraphItem.node source node.token.display ∈ order.flatMap tree.drawing := by
    refine List.mem_flatMap.mpr ⟨node, inOrder, ?_⟩
    rw [drawing, if_pos (isDrawn_of_drawing inNode), leaves]
    exact List.mem_cons_self
  obtain ⟨j, declared⟩ := List.getElem?_of_mem declares
  refine ⟨j, _, ?_, declared⟩
  rcases Nat.lt_trichotomy j i with before | rfl | behind
  · exact before
  · rw [found] at declared
    cases declared
  · obtain ⟨iBound, iEq⟩ := List.getElem?_eq_some_iff.mp found
    obtain ⟨jBound, jEq⟩ := List.getElem?_eq_some_iff.mp declared
    have apart := List.pairwise_iff_getElem.mp (pairwise_items nodes perm) i j iBound jBound behind
    exact absurd jEq (apart source target label _ iEq)

/-- One edge leads to every declared node but the root. -/
theorem count_targets (nodes : tree.nodes.toList = program.layout last 0)
    (perm : order.Perm tree.nodes.toList) {id : NodeId}
    (declared : id ∈ order.flatMap Node.declared) :
    (order.flatMap tree.targets).count id = if id = program.root 0 then 0 else 1 := by
  have whole := (targets_perm_of_layout nodes perm).count_eq id
  rw [List.count_append,
    List.count_eq_one_of_mem (nodup_declared nodes perm) declared] at whole
  cases program with
  | noStatements =>
    have nothing := (perm.flatMap_right Node.declared).mem_iff.mp declared
    rw [nodes] at nothing
    cases nothing
  | statements first rest =>
    rw [Site.entries_cell] at whole
    rw [SyntaxTree.root]
    split
    · rename_i isRoot
      rw [isRoot] at whole ⊢
      simpa using whole
    · rename_i other
      simpa [Ne.symm other] using whole

/-- So a program that is not empty has one edge less than declared nodes. -/
theorem length_targets (nodes : tree.nodes.toList = program.layout last 0)
    (perm : order.Perm tree.nodes.toList) (nonempty : program.tokens ≠ []) :
    (order.flatMap tree.targets).length + 1 = (order.flatMap Node.declared).length := by
  have whole := (targets_perm_of_layout nodes perm).length_eq
  cases program with
  | noStatements => exact absurd rfl nonempty
  | statements first rest =>
    rw [Site.entries_cell, List.length_append] at whole
    exact (Nat.add_comm _ _).trans whole

/-- And an empty one has neither. -/
theorem drawing_eq_nil (nodes : tree.nodes.toList = program.layout last 0)
    (perm : order.Perm tree.nodes.toList) (nothing : program.tokens = []) :
    order.flatMap tree.drawing = [] := by
  cases program with
  | noStatements =>
    rw [nodes] at perm
    rw [List.perm_singleton.mp perm]
    rfl
  | statements first =>
    obtain ⟨t, ts, eq, -⟩ := first.starts
    simp [eq] at nothing

end Program

end Tree

/-! ## Labels -/

/-- A text in which a label escapes nothing. -/
def Unescaped (text : String) : Prop := ∀ c ∈ text.toList, labelEscape c = [c]

instance : DecidablePred Unescaped := fun text =>
  List.decidableBAll (fun c => labelEscape c = [c]) text.toList

/-- Nothing of what a token of a source is shown with is escaped. -/
theorem labelEscape_of_isShown {c : Char} (shown : IsShown c) : labelEscape c = [c] := by
  refine if_neg ?_
  rintro (rfl | rfl)
  · exact absurd shown (by decide)
  · exact absurd shown (by decide)

theorem Unescaped.labelText_eq {text : String} (unescaped : Unescaped text) :
    labelText text = text := by
  have same : text.toList.flatMap labelEscape = text.toList :=
    (List.flatMap_congr unescaped).trans (List.flatMap_singleton' _)
  rw [labelText, same, String.ofList_toList]

/-- A token shows itself without anything that a label would escape. -/
theorem Token.unescaped_display {t : Token}
    (spelled : t.kind = .endOfInput ∨ t.kind.Spells t.lexeme.toList)
    (valued : t.value = .ofLexeme t.kind t.lexeme.toList) : Unescaped t.display :=
  (madeOf_display spelled valued).mono fun _ => labelEscape_of_isShown

/-! ## Lines as they are written -/

namespace GraphItem

/-- A line that has nothing to escape, as it is written: behind a tab there is the name of the
declared node, or an arrow between the names of two nodes, and then the label between quotes. -/
def written : GraphItem → String
  | node id label => "\tid_" ++ toString id ++ " [label = \"" ++ label ++ "\"]\n"
  | edge source target none => "\tid_" ++ toString source ++ " -> id_" ++ toString target ++ "\n"
  | edge source target (some label) =>
    "\tid_" ++ toString source ++ " -> id_" ++ toString target ++ " [label = \"" ++ label ++ "\"]\n"

/-- A graph that has nothing to escape, as it is written: the lines between those that say how a
graph is shown, and a closing brace. -/
def document (items : List GraphItem) : String :=
  "digraph G \x7b\n" ++
  "\tgraph [fontname = \"monospace\" ordering = out];\n" ++
  "\tnode [fontname = \"monospace\"];\n" ++
  "\tedge [fontname = \"monospace\"];\n" ++
  "\n" ++ String.join (items.map written) ++ "\x7d\n"

theorem text_eq_written {item : GraphItem}
    (unescaped : ∀ id label, item = .node id label → labelText label = label) :
    item.text = item.written := by
  rcases item with ⟨id, label⟩ | ⟨source, target, _ | label⟩
  · rw [text, unescaped id label rfl, nodeName, ← String.append_assoc]
    rfl
  · simp only [text, written, nodeName, String.append_assoc]
    rfl
  · simp only [text, written, nodeName, String.append_assoc]
    rfl

end GraphItem

/-! ## Programs -/

namespace Tree

/-- A line that declares a node is labelled with its token. -/
theorem label_of_drawing {tree : Tree} {node : Node} {id : NodeId} {label : String}
    (mem : .node id label ∈ tree.drawing node) : label = node.token.display := by
  unfold drawing at mem
  split at mem
  · rcases List.mem_cons.mp mem with same | edge
    · exact (GraphItem.node.inj same).2
    · obtain ⟨arrow, -, eq⟩ := List.mem_map.mp edge
      cases eq
  · cases mem

/-- Two nodes, the first of them anchored before the second. -/
def AnchoredBefore (tree : Tree) (a b : NodeId) : Prop :=
  ∃ u v, tree.node? a = some u ∧ tree.node? b = some v ∧ u.token.span.start < v.token.span.start

/-- The lines of a graph are the declarations and the edges of a tree, and by them the graph is
a tree again. -/
structure DrawnAs (tree : Tree) (items : List GraphItem) : Prop where
  /-- There are the lines of all nodes and no others, those of one node together. -/
  lines : ∃ order : List Node, order.Perm tree.nodes.toList ∧ items = order.flatMap tree.drawing
  once : items.Nodup
  declared_once : (items.filterMap GraphItem.declared?).Nodup
  /-- Nothing is escaped in a label. -/
  labels : ∀ node ∈ tree.nodes, labelText node.token.display = node.token.display
  /-- A call has edges to its arguments from left to right. -/
  arguments : ∀ node ∈ tree.nodes, ∀ callee slot, node.kind = .call callee slot →
    ∃ ids, tree.arguments slot = .ok ids ∧ ids.Pairwise tree.AnchoredBefore
  declared_before : ∀ (i : Nat) source target label,
    items[i]? = some (.edge source target label) →
      ∃ j text, j < i ∧ items[j]? = some (.node source text)
  target_declared : ∀ target ∈ items.filterMap GraphItem.target?,
    target ∈ items.filterMap GraphItem.declared?
  /-- One edge leads to a node, but none to the root. -/
  entered : ∀ id ∈ items.filterMap GraphItem.declared?,
    (items.filterMap GraphItem.target?).count id = if id = tree.root then 0 else 1

/-- Calls have their arguments from left to right, if the tokens of a program are so. -/
theorem arguments_ordered {tree : Tree} {program : SyntaxTree TokenOf .statements} {last : Token}
    (nodes : tree.nodes.toList = program.layout last 0)
    (ordered : (program.tokens ++ [last]).Pairwise fun t u => t.span.start < u.span.start)
    {node : Node} (mem : node ∈ tree.nodes) {callee : NodeId} {slot : Option NodeId}
    (kind : node.kind = .call callee slot) :
    ∃ ids, tree.arguments slot = .ok ids ∧ ids.Pairwise tree.AnchoredBefore := by
  have inProgram : node ∈ Site.nodes ⟨program, last, 0⟩ := by
    rw [Site.nodes, ← nodes]
    exact Array.mem_toList_iff.mpr mem
  obtain ⟨site, within, own⟩ := Site.exists_own _ inProgram
  have has := (hasSite_of_layout nodes).within within
  have sorted := ordered.sublist within.tokens_sublist
  obtain ⟨form, follow, n⟩ := site
  cases form with
  | call opening callee' others closing =>
    cases own
    cases kind
    have hasOthers := (has.both rfl).2
    have chain := tree.arguments_of_layout others follow _ hasOthers
    have isPart : Site.mk others follow (n + callee'.size) ∈
        Site.parts ⟨.call opening callee' others closing, follow, n⟩ :=
      List.mem_pair.mpr (Or.inr rfl)
    have others_sorted :=
      sorted.sublist ((List.sublist_append_left _ _).trans (Site.tokens_sublist isPart))
    exact ⟨_, chain, (pairwise_itemIds others follow _ hasOthers others_sorted).1⟩
  | plain | operand | noArguments => cases own
  | _ =>
    cases own
    cases kind

end Tree

/-- The text of the graph of a program that is parsed is the document of the lines of its tree. -/
theorem Digraph.render_parse (graph : Digraph) (lexer : Lexer) (buffer : TokenBuffer) (tree : Tree)
    (lexed : TokenBuffer.ofLexer lexer = .ok buffer) (parsed : buffer.parse = .ok tree) :
    ∃ items, graph.render tree = .ok (GraphItem.document items, empty) ∧
      tree.DrawnAs items ∧ (buffer.body = [] → items = []) ∧
      (buffer.body ≠ [] → (items.filterMap GraphItem.target?).length + 1 =
        (items.filterMap GraphItem.declared?).length) := by
  have tiled : Tiled lexer.place lexer.rest buffer.tokens :=
    (TokenBuffer.ofLexer_eq_ok.mp lexed).tiled
  obtain ⟨program, written, root, nodes⟩ := buffer.exists_layout parsed
  have tokens : program.tokens ++ [buffer.last] = buffer.tokens := by
    rw [written, TokenBuffer.tokens]
  obtain ⟨order, perm, rendered⟩ := render_layout root nodes graph
  have labels : ∀ node ∈ tree.nodes, labelText node.token.display = node.token.display := by
    intro node mem
    have inProgram : node ∈ Site.nodes ⟨program, buffer.last, 0⟩ := by
      rw [Site.nodes, ← nodes]
      exact Array.mem_toList_iff.mpr mem
    have isToken := Site.token_mem inProgram
    rw [tokens] at isToken
    obtain ⟨spelled, valued⟩ := tiled.spells _ isToken
    exact (Token.unescaped_display (spelled.imp_left And.left) valued).labelText_eq
  have texts : (order.flatMap tree.drawing).map GraphItem.text =
      (order.flatMap tree.drawing).map GraphItem.written := by
    refine List.map_congr_left fun item mem => GraphItem.text_eq_written ?_
    rintro id label rfl
    obtain ⟨node, inOrder, inNode⟩ := List.mem_flatMap.mp mem
    rw [Tree.label_of_drawing inNode]
    exact labels node (Array.mem_toList_iff.mp (perm.mem_iff.mp inOrder))
  rw [texts] at rendered
  refine ⟨_, rendered, ?_, ?_, ?_⟩
  · constructor
    case lines => exact ⟨order, perm, rfl⟩
    case once => exact Tree.nodup_items nodes perm
    case declared_once =>
      rw [Tree.filterMap_declared]
      exact Tree.nodup_declared nodes perm
    case labels => exact labels
    case arguments =>
      intro node mem callee slot kind
      refine Tree.arguments_ordered nodes ?_ mem kind
      rw [tokens]
      exact tiled.ordered.imp And.left
    case declared_before =>
      intro i source target label found
      exact Tree.declared_before nodes perm found
    case target_declared =>
      intro target mem
      rw [Tree.filterMap_target] at mem
      rw [Tree.filterMap_declared]
      exact (Tree.targets_perm_of_layout nodes perm).subset (List.mem_append_right _ mem)
    case entered =>
      intro id declared
      rw [Tree.filterMap_declared] at declared
      rw [Tree.filterMap_target, root]
      exact Tree.count_targets nodes perm declared
  · intro nothing
    exact Tree.drawing_eq_nil nodes perm (written.trans nothing)
  · intro nonempty
    rw [Tree.filterMap_target, Tree.filterMap_declared]
    exact Tree.length_targets nodes perm (written ▸ nonempty)

/-- The tokens of `{x} (f y)`. -/
def TokenBuffer.functionThenCall : TokenBuffer where
  body := [.ofLexeme .leftBrace ['{'] ⟨0, 1, 1⟩, .ofLexeme .identifier ['x'] ⟨1, 1, 2⟩,
    .ofLexeme .rightBrace ['}'] ⟨2, 1, 3⟩, .ofLexeme .leftParen ['('] ⟨4, 1, 5⟩,
    .ofLexeme .identifier ['f'] ⟨5, 1, 6⟩, .ofLexeme .identifier ['y'] ⟨7, 1, 8⟩,
    .ofLexeme .rightParen [')'] ⟨8, 1, 9⟩]
  last := .endAt ⟨9, 1, 10⟩
  body_kind := by decide
  last_kind := rfl

theorem Digraph.render_functionThenCall :
    TokenBuffer.ofLexer (.ofSource "{x} (f y)") = .ok .functionThenCall ∧
      ∃ tree items, TokenBuffer.functionThenCall.parse = .ok tree ∧
        empty.render tree = .ok (GraphItem.document items, empty) ∧
        tree.DrawnAs items ∧ (items.filterMap GraphItem.target?).length + 1 =
          (items.filterMap GraphItem.declared?).length := by
  have lexed : TokenBuffer.ofLexer (.ofSource "{x} (f y)") = .ok .functionThenCall :=
    TokenBuffer.ofLexer_eq_ok.mpr (by decide)
  obtain ⟨items, rendered, drawn, -, edges⟩ :=
    render_parse empty (.ofSource "{x} (f y)") .functionThenCall _ lexed rfl
  exact ⟨lexed, _, items, rfl, rendered, drawn, edges (List.cons_ne_nil _ _)⟩

end PipeScript
