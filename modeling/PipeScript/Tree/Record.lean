import PipeScript.Tree.Walk

/-!
Walks that record what they meet.

`record` visits every slot below a node, and notes each node twice: when it is
dispatched, and when the visitor of its kind comes to it. An `Order` says
whether that is before or after the children, and in which direction they are
taken.
-/

namespace PipeScript

/-- What a recording notes of a node. -/
inductive Event
  /-- The node was dispatched. -/
  | dispatched (node : Node)
  /-- The visitor of the node's kind came to it. -/
  | met (node : Node)
deriving DecidableEq

/-- Where a recording walk takes the children of a node. -/
inductive Order
  /-- Nowhere: it does not descend. -/
  | shallow
  /-- Behind the node, first to last. -/
  | nodeFirst
  /-- Before the node, first to last. -/
  | nodeLast
  /-- Behind the node, last to first. -/
  | backwards
deriving DecidableEq

namespace Visitor

/-- Does the same at the nodes of every kind. -/
def uniform {σ : Type} (action : Node → Visit σ) : Visitor σ where
  onConstant node := action node
  onReference node := action node
  onBinary node _ _ := action node
  onFunction node _ := action node
  onCall node _ _ := action node
  onArgumentCell node _ _ := action node
  onDefinition node _ := action node
  onStatementCell node _ _ := action node

/-- Notes a node, and visits its children where the order wants them. -/
def recorder (order : Order) (visit : Option NodeId → Visit (Array Event)) :
    Visitor (Array Event) :=
  { uniform fun node events =>
      let slots := node.kind.slots
      match order with
      | .shallow => .ok (events.push (.met node))
      | .nodeFirst => visitAll visit slots (events.push (.met node))
      | .nodeLast => (visitAll visit slots events).map (·.push (.met node))
      | .backwards => visitAll visit slots.reverse (events.push (.met node))
    with onNode := fun node events => .ok (events.push (.dispatched node)) }

end Visitor

/-- What a recording walk from a slot notes. -/
def Tree.record (tree : Tree) (order : Order) (slot : Option NodeId) : Except Fault (Array Event) :=
  tree.walk (.recorder order) slot #[]

end PipeScript
