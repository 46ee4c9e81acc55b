import PipeScript.Tree.Walk

/-!
Trees as an indented outline.

There is a line for every node that is not a cell of a list, one level deeper
than the line of the node it is a child of. Statements and arguments of one list
stand on the same level, and the arguments of a call behind its callee.

An `Outline` is a printer with what it has printed so far. `render` starts it
afresh, whatever it holds, and leaves it empty.
-/

namespace PipeScript

/-- A line of an outline. -/
structure OutlineLine where
  depth : Nat
  label : String
deriving DecidableEq

/-- A line as text: two spaces for every level, and a line feed. -/
def OutlineLine.text (line : OutlineLine) : String :=
  String.ofList (List.replicate (2 * line.depth) ' ') ++ line.label ++ "\n"

/-- The lines that have been printed, and the level of the next one. -/
structure Outline where
  lines : Array OutlineLine
  depth : Nat
deriving DecidableEq

namespace Outline

/-- A printer that has printed nothing. -/
def empty : Outline := ⟨#[], 0⟩

/-- Prints a line. -/
def line (printer : Outline) (label : String) : Outline :=
  { printer with lines := printer.lines.push ⟨printer.depth, label⟩ }

/-- The text of the lines. -/
def text (printer : Outline) : String :=
  printer.lines.foldl (fun text line => text ++ line.text) ""

/-- Visits some slots one level deeper. -/
def nested (visit : Option NodeId → Visit Outline) (slots : List (Option NodeId)) : Visit Outline :=
  fun printer => do
    let printer ← visitAll visit slots { printer with depth := printer.depth + 1 }
    return { printer with depth := printer.depth - 1 }

/-- Prints a node and what is below it. -/
def visitor (tree : Tree) (visit : Option NodeId → Visit Outline) : Visitor Outline where
  onConstant node printer :=
    .ok (printer.line ("num " ++ (node.token.number?.getD .zero).text))
  onReference node printer := .ok (printer.line ("ref " ++ node.token.lexeme))
  onBinary node left right printer :=
    nested visit [some left, some right] (printer.line node.token.lexeme)
  onFunction _ body printer := nested visit [some body] (printer.line "fn")
  onCall _ callee arguments printer := do
    let arguments ← tree.arguments arguments
    nested visit (some callee :: arguments.map some) (printer.line "call")
  onDefinition node initializer printer :=
    nested visit [some initializer] (printer.line ("let " ++ node.token.lexeme))
  onStatementCell node _ _ printer := do
    visitAll visit ((← tree.statements node.id).map some) printer

/-- The outline of a tree, and the printer behind it. Nothing that the printer
held before is printed. -/
def render (printer : Outline) (tree : Tree) : Except Fault (String × Outline) := do
  let printed ← tree.walk (visitor tree) (some tree.root) { printer with lines := #[], depth := 0 }
  return (printed.text, { printed with lines := #[] })

end Outline

end PipeScript
