import PipeScript.Tree.Walk

/-!
Trees as a directed graph, in the graph description language of layout tools.

Every node but the cells of argument lists and the sentinels is declared, with
its token as its label. An edge leads to each child and says what the child is:
the operands of an operator have no label, the others are the initializer `=`,
the callee `fn`, an argument `arg`, a function's body `body`, a statement `stmt`
and the next cell `next`. A call has an edge to each of its arguments itself.

A node is declared first, then come its edges, and then what is below its
children. A statement list is drawn in one go, cell by cell.
-/

namespace PipeScript

/-! ## Graphs as text -/

/-- One line of a graph. -/
inductive GraphItem
  | node (id : NodeId) (label : String)
  | edge (source target : NodeId) (label : Option String)
deriving DecidableEq

/-- A character inside the quotes of a label: a backslash and a quote have a
backslash before them. -/
def labelEscape (c : Char) : List Char :=
  if c = '\\' ∨ c = '"' then ['\\', c] else [c]

/-- A label between its quotes. -/
def labelText (label : String) : String := String.ofList (label.toList.flatMap labelEscape)

/-- How a node is called in a graph. -/
def nodeName (id : NodeId) : String := "id_" ++ toString id

/-- The text of one line. -/
def GraphItem.text : GraphItem → String
  | node id label => "\t" ++ nodeName id ++ " [label = \"" ++ labelText label ++ "\"]\n"
  | edge source target none => "\t" ++ nodeName source ++ " -> " ++ nodeName target ++ "\n"
  | edge source target (some label) =>
    "\t" ++ nodeName source ++ " -> " ++ nodeName target ++ " [label = \"" ++ label ++ "\"]\n"

/-- The lines before the items of a graph. -/
def graphHeader : String :=
  "digraph G \x7b\n" ++
  "\tgraph [fontname = \"monospace\" ordering = out];\n" ++
  "\tnode [fontname = \"monospace\"];\n" ++
  "\tedge [fontname = \"monospace\"];\n" ++
  "\n"

/-- The line behind the items of a graph. -/
def graphFooter : String := "\x7d\n"

/-! ## Statement chains -/

namespace Tree

/-- The node in a slot, unless it is a sentinel. -/
def filled? (tree : Tree) (slot : Option NodeId) : Option Node :=
  (tree.get? slot).filter fun node => !node.isSentinel

/-- What a cell holds for a reader of its chain: its statement, and the next
node of the chain that is not a sentinel. The chain ends at a node that is no
statement cell or has no statement. -/
def chainLink? (tree : Tree) (cell : Node) : Option (NodeId × Option Node) :=
  match cell.kind with
  | .statementCell (some statement) next => some (statement, tree.filled? next)
  | _ => none

end Tree

/-! ## Drawing -/

/-- The lines of a graph that have been drawn. -/
structure Digraph where
  items : Array GraphItem
deriving DecidableEq

namespace Digraph

/-- A graph without nodes. -/
def empty : Digraph := ⟨#[]⟩

/-- Declares a node. -/
def declare (graph : Digraph) (node : Node) : Digraph :=
  ⟨graph.items.push (.node node.id node.token.display)⟩

/-- Draws an edge. -/
def edge (graph : Digraph) (source target : NodeId) (label : Option String) : Digraph :=
  ⟨graph.items.push (.edge source target label)⟩

/-- Draws edges with the same label to some nodes. -/
def edges (graph : Digraph) (source : NodeId) (targets : List NodeId) (label : Option String) :
    Digraph :=
  targets.foldl (fun graph target => graph.edge source target label) graph

/-- The text of the graph. -/
def text (graph : Digraph) : String :=
  graph.items.foldl (fun text item => text ++ item.text) graphHeader ++ graphFooter

/-- Draws a cell that holds a link, up to what is below its statement. -/
def drawCell (graph : Digraph) (cell : Node) (statement : NodeId) (next : Option Node) : Digraph :=
  let graph := (graph.declare cell).edge cell.id statement (some "stmt")
  match next with
  | some next => graph.edge cell.id next.id (some "next")
  | none => graph

/-- Draws the cells of a statement list with what is below their statements. A
list of more than `limit` cells does not end. -/
def drawChain (tree : Tree) (visit : Option NodeId → Visit Digraph) : Nat → Node → Visit Digraph
  | 0, _, _ => .error .endless
  | limit + 1, cell, graph =>
    match tree.chainLink? cell with
    | none => .ok graph
    | some (statement, next) =>
      match visit (some statement) (graph.drawCell cell statement next), next with
      | .error fault, _ => .error fault
      | .ok graph, none => .ok graph
      | .ok graph, some next => drawChain tree visit limit next graph

/-- Draws a node and what is below it. The body of a function has to be there. -/
def visitor (tree : Tree) (visit : Option NodeId → Visit Digraph) : Visitor Digraph where
  onConstant node graph := .ok (graph.declare node)
  onReference node graph := .ok (graph.declare node)
  onBinary node left right graph :=
    visitAll visit [some left, some right]
      (((graph.declare node).edge node.id left none).edge node.id right none)
  onFunction node body graph :=
    match tree.node? body with
    | none => .error (.missing body)
    | some found =>
      let graph := graph.declare node
      visit (some body) (if found.isSentinel then graph else graph.edge node.id body (some "body"))
  onCall node callee arguments graph := do
    let arguments ← tree.arguments arguments
    visitAll visit (some callee :: arguments.map some)
      (((graph.declare node).edge node.id callee (some "fn")).edges node.id arguments (some "arg"))
  onDefinition node initializer graph :=
    visit (some initializer) ((graph.declare node).edge node.id initializer (some "="))
  onStatementCell node _ _ graph := drawChain tree visit (tree.size + 1) node graph

/-- The graph of a tree as text, and the drawing behind it. Nothing that was
drawn before is shown. -/
def render (graph : Digraph) (tree : Tree) : Except Fault (String × Digraph) := do
  let drawn ← tree.walk (visitor tree) (some tree.root) { graph with items := #[] }
  return (drawn.text, { drawn with items := #[] })

end Digraph

end PipeScript
