import PipeScript.Tree.Arena

/-!
Reading chains of cells.

`nextStatement` and `nextArgument` read one item at a cursor and move it on.
At the end, and at a node that is no cell of the right sort, they give nothing
and stay. A statement cell without a statement gives nothing either, but the
cursor moves on to its successor.

`statements` and `arguments` read on up to the first time that nothing is
given. In an arena a chain can lead back into itself; such a chain never ends,
which is a `Fault`.
-/

namespace PipeScript

/-- What can stop a walk over a tree. -/
inductive Fault
  /-- A node that has to be there is not. -/
  | missing (id : NodeId)
  /-- The walk has gone on for longer than any path without repetition. -/
  | endless
deriving DecidableEq

/-- Where a reader of a chain stands. -/
abbrev Cursor := Option NodeId

namespace Tree

/-! ## Single steps -/

/-- The statement at a cursor, and the cursor behind it. -/
def nextStatement (tree : Tree) (cursor : Cursor) : Option NodeId × Cursor :=
  match (tree.get? cursor).map Node.kind with
  | some (.statementCell statement next) => (statement, next)
  | _ => (none, cursor)

/-- The argument at a cursor, and the cursor behind it. -/
def nextArgument (tree : Tree) (cursor : Cursor) : Option NodeId × Cursor :=
  match (tree.get? cursor).map Node.kind with
  | some (.argumentCell argument next) => (some argument, next)
  | _ => (none, cursor)

/-! ## Whole chains -/

/-- What a given number of steps give, whether something or nothing. -/
def steps (step : Cursor → Option NodeId × Cursor) : Nat → Cursor → List (Option NodeId)
  | 0, _ => []
  | n + 1, cursor => (step cursor).1 :: steps step n (step cursor).2

/-- The items that steps give before the first nothing, behind some items, the
latest first. A chain that gives more than `limit` of them does not end. -/
def collect (step : Cursor → Option NodeId × Cursor) (found : List NodeId) :
    Nat → Cursor → Except Fault (List NodeId)
  | 0, _ => .error .endless
  | limit + 1, cursor =>
    match step cursor with
    | (none, _) => .ok found.reverse
    | (some id, cursor) => collect step (id :: found) limit cursor

/-- The statements of the list that starts at a cell. -/
def statements (tree : Tree) (list : NodeId) : Except Fault (List NodeId) :=
  collect tree.nextStatement [] (tree.size + 1) (some list)

/-- The arguments of the list in a slot. -/
def arguments (tree : Tree) (list : Option NodeId) : Except Fault (List NodeId) :=
  collect tree.nextArgument [] (tree.size + 1) list

end Tree

end PipeScript
