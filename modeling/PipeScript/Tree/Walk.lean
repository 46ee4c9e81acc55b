import PipeScript.Tree.Chain

/-!
Walking a tree.

A `Visitor` says what to do at a node: first what is done at every node, then
what is done at a node of its kind. `dispatch` does both for the node in a slot,
and nothing for an empty slot or a name that is not in the tree. It does not
descend.

A walk that descends is written with the visit of a slot as a parameter, which
it uses for the children, in the order and the places it chooses. `walk` closes
that circle. A path through a tree visits no node twice, so a walk that goes
deeper than there are nodes is endless.
-/

namespace PipeScript

/-- The outcome of an action on a state, which a fault may cut short. -/
abbrev Visit (σ : Type) := σ → Except Fault σ

/-- What to do at the nodes of a tree. What is left out does nothing. -/
structure Visitor (σ : Type) where
  onNode : Node → Visit σ := fun _ => .ok
  onConstant : Node → Visit σ := fun _ => .ok
  onReference : Node → Visit σ := fun _ => .ok
  onBinary : Node → NodeId → NodeId → Visit σ := fun _ _ _ => .ok
  onFunction : Node → NodeId → Visit σ := fun _ _ => .ok
  onCall : Node → NodeId → Option NodeId → Visit σ := fun _ _ _ => .ok
  onArgumentCell : Node → NodeId → Option NodeId → Visit σ := fun _ _ _ => .ok
  onDefinition : Node → NodeId → Visit σ := fun _ _ => .ok
  onStatementCell : Node → Option NodeId → Option NodeId → Visit σ := fun _ _ _ => .ok

namespace Visitor

/-- What to do at a node of its kind. -/
def onKind {σ : Type} (visitor : Visitor σ) (node : Node) : Visit σ :=
  match node.kind with
  | .constant => visitor.onConstant node
  | .reference => visitor.onReference node
  | .binary left right => visitor.onBinary node left right
  | .function body => visitor.onFunction node body
  | .call callee arguments => visitor.onCall node callee arguments
  | .argumentCell argument next => visitor.onArgumentCell node argument next
  | .definition initializer => visitor.onDefinition node initializer
  | .statementCell statement next => visitor.onStatementCell node statement next

end Visitor

namespace Tree

/-- Visits the node in a slot. -/
def dispatch {σ : Type} (tree : Tree) (visitor : Visitor σ) (slot : Option NodeId) : Visit σ :=
  match tree.get? slot with
  | none => .ok
  | some node => fun state => visitor.onNode node state >>= visitor.onKind node

/-- Visits the node in a slot with a visitor that visits further slots, down to
a given depth. -/
def walkTo {σ : Type} (tree : Tree) (visitor : (Option NodeId → Visit σ) → Visitor σ) :
    Nat → Option NodeId → Visit σ
  | 0, _ => fun _ => .error .endless
  | depth + 1, slot => tree.dispatch (visitor (tree.walkTo visitor depth)) slot

/-- Visits the node in a slot with a visitor that visits further slots. -/
def walk {σ : Type} (tree : Tree) (visitor : (Option NodeId → Visit σ) → Visitor σ) :
    Option NodeId → Visit σ :=
  tree.walkTo visitor (tree.size + 1)

end Tree

/-- Visits some slots in turn. -/
def visitAll {σ : Type} (visit : Option NodeId → Visit σ) (slots : List (Option NodeId)) :
    Visit σ :=
  fun state => slots.foldlM (fun state slot => visit slot state) state

end PipeScript
