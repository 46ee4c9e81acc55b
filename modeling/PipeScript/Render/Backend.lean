import PipeScript.Render.Digraph
import PipeScript.Render.Outline

/-!
The output formats, by name.
-/

namespace PipeScript

/-- An output format for trees. -/
inductive Backend
  | digraph
  | outline
deriving DecidableEq

/-- A printer of some format, with what it has printed so far. -/
inductive Renderer
  | digraph (graph : Digraph)
  | outline (printer : Outline)
deriving DecidableEq

namespace Backend

/-- All formats, in the order they are listed in. -/
def all : List Backend := [digraph, outline]

/-- What a user calls a format. -/
def name : Backend → String
  | digraph => "dot"
  | outline => "tree"

/-- What a format looks like. -/
def description : Backend → String
  | digraph => "Graphviz digraph, one node per tree node"
  | outline => "Indented outline of the tree"

/-- The format of a name. -/
def ofName? (name : String) : Option Backend := all.find? fun backend => backend.name = name

/-- A new printer of a format. -/
def create : Backend → Renderer
  | digraph => .digraph .empty
  | outline => .outline .empty

end Backend

namespace Renderer

/-- The text of a tree, and the printer behind it, which is ready for the next. -/
def render (renderer : Renderer) (tree : Tree) : Except Fault (String × Renderer) :=
  match renderer with
  | digraph graph => (graph.render tree).map fun (text, graph) => (text, .digraph graph)
  | outline printer => (printer.render tree).map fun (text, printer) => (text, .outline printer)

end Renderer

/-- The text of a tree in some format. -/
def Backend.render (backend : Backend) (tree : Tree) : Except Fault String :=
  (backend.create.render tree).map Prod.fst

end PipeScript
