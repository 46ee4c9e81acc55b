import PipeScript.Tree.Arena

/-!
The arena that a parser has built so far, as the edits that build it.

A parser never looks at a node again, only at its name. So a draft keeps the
edits, and counts the nodes to know the name of the next one. The tree is the
replay of the edits.
-/

namespace PipeScript

/-- Edits in order, and how many nodes they add. -/
structure Draft where
  edits : Array Edit
  size : Nat
deriving DecidableEq

namespace Draft

/-- No edits. -/
def empty : Draft := ⟨#[], 0⟩

/-- Adds a node and gives its name. -/
def alloc (draft : Draft) (token : Token) (kind : NodeKind) : NodeId × Draft :=
  (draft.size, ⟨draft.edits.push (.alloc token kind), draft.size + 1⟩)

/-- Fills in a cell of a statement list. -/
def link (draft : Draft) (cell statement next : NodeId) : Draft :=
  { draft with edits := draft.edits.push (.link cell statement next) }

/-- The arena that the edits build. -/
def arena (draft : Draft) : Arena := Arena.replay draft.edits.toList

end Draft

end PipeScript
