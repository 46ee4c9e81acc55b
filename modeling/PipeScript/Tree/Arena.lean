import PipeScript.Token.Basic

/-!
Trees in an arena.

A node is named by its place in creation order, and its children by theirs, so
a tree is an array of nodes with a root. Statement lists and argument lists are
chains of cells. A statement list ends in a cell with both slots empty, its
sentinel; an argument list ends in a cell without a next one.

An arena grows by two edits: `alloc` adds a node, `link` fills in a cell of a
statement list. The kinds and names in an edit are not checked against anything,
so an arena may hold nodes that name missing ones, or cells in the place of
expressions.
-/

namespace PipeScript

/-! ## Nodes -/

/-- The name of a node: its place in creation order. -/
abbrev NodeId := Nat

/-- What a node is, with its child slots. -/
inductive NodeKind
  /-- A number, as in `42`. -/
  | constant
  /-- A name, as in `x`. -/
  | reference
  /-- An operator between two operands, as in `a |> b`. -/
  | binary (left right : NodeId)
  /-- A function with its body, as in `{ x }`. -/
  | function (body : NodeId)
  /-- A call, as in `(f x y)`; without arguments it has no argument list. -/
  | call (callee : NodeId) (arguments : Option NodeId)
  /-- One argument of a call and the rest of the list. -/
  | argumentCell (argument : NodeId) (next : Option NodeId)
  /-- A definition, as in `let x = 1`. -/
  | definition (initializer : NodeId)
  /-- One statement and the next cell. -/
  | statementCell (statement next : Option NodeId)
deriving DecidableEq

namespace NodeKind

/-- A cell of a statement list without statement and successor. -/
def sentinel : NodeKind := statementCell none none

/-- The child slots, in source order. -/
def slots : NodeKind → List (Option NodeId)
  | constant | reference => []
  | binary left right => [some left, some right]
  | function body => [some body]
  | call callee arguments => [some callee, arguments]
  | argumentCell argument next => [some argument, next]
  | definition initializer => [some initializer]
  | statementCell statement next => [statement, next]

end NodeKind

/-- A node with the token that anchors it in the source: the literal or name,
the operator, the defined symbol, or the opening bracket. -/
structure Node where
  id : NodeId
  token : Token
  kind : NodeKind
deriving DecidableEq

/-- Whether a node ends a statement list. -/
def Node.isSentinel (node : Node) : Bool := node.kind = .sentinel

/-! ## Arenas -/

/-- Nodes in creation order. -/
structure Arena where
  nodes : Array Node
deriving DecidableEq

/-- One change of an arena. -/
inductive Edit
  | alloc (token : Token) (kind : NodeKind)
  | link (cell statement next : NodeId)
deriving DecidableEq

namespace Arena

/-- An arena without nodes. -/
def empty : Arena := ⟨#[]⟩

/-- How many nodes there are, which is the name of the next one. -/
def size (arena : Arena) : Nat := arena.nodes.size

/-- Adds a node. -/
def alloc (arena : Arena) (token : Token) (kind : NodeKind) : Arena :=
  ⟨arena.nodes.push ⟨arena.size, token, kind⟩⟩

/-- Makes a node the cell of a statement and its successor. Where there is no
such node nothing changes. -/
def link (arena : Arena) (cell statement next : NodeId) : Arena :=
  let kind := NodeKind.statementCell (some statement) (some next)
  ⟨arena.nodes.modify cell fun node => { node with kind }⟩

/-- Makes one edit. -/
def edit (arena : Arena) : Edit → Arena
  | .alloc token kind => arena.alloc token kind
  | .link cell statement next => arena.link cell statement next

/-- Whether an edit names a node to change that is there. -/
def admits (arena : Arena) : Edit → Bool
  | .alloc .. => true
  | .link cell .. => cell < arena.size

/-- Makes one edit, unless it would change a node that is not there. -/
def edit? (arena : Arena) (change : Edit) : Option Arena :=
  if arena.admits change then some (arena.edit change) else none

/-- Makes some edits in turn. -/
def replay (edits : List Edit) : Arena := edits.foldl edit empty

end Arena

/-! ## Trees -/

/-- An arena with the node that a walk starts from. -/
structure Tree extends Arena where
  root : NodeId
deriving DecidableEq

namespace Tree

/-- The node of a name. -/
def node? (tree : Tree) (id : NodeId) : Option Node := tree.nodes[id]?

/-- The node in a slot: none if the slot is empty or names no node. -/
def get? (tree : Tree) (slot : Option NodeId) : Option Node := slot.bind tree.node?

end Tree

end PipeScript
