import PipeScript.Log
import PipeScript.Parse.Run

/-!
A parser of procedures, which logs what it does.

`Descent` is the parser of a program as one procedure for each part of the
grammar, which call each other and loop over statements, operands and arguments.
A cursor stands at a token of a list, and a procedure may look at that token,
move the cursor behind it, add nodes, fill in cells, and write to a log.

All that could go wrong is a part of the result. A computation may not end,
which is `none`; it may look for a token outside the list or fill in a cell that
is not there, which stops it; and a cursor at the last token stays there, which
leaves a mark (`State.clamped`). Besides, a state keeps the tokens that the
cursor has moved over, and every point at which a procedure was called or a loop
was tested (`State.visits`).

Calls are given a depth down to which they may be nested, and `procedures` is by
recursion on it. The procedures themselves know nothing of it. `depthFor` is a
depth that is enough; that nothing goes wrong then, and that the procedures do
what the parser does, is in `PipeScript.Proofs.Totality`.
-/

namespace PipeScript

namespace Descent

/-- The procedures, and the tests of their loops. -/
inductive Procedure
  | statementList
  | nextStatement
  | statement
  | expression
  | nextOperand
  | call
  | argumentList
  | nextArgument
  | primary
deriving DecidableEq

/-- A call of a procedure or a test of a loop, with the cursor at some token. -/
structure Visit where
  procedure : Procedure
  position : Nat
deriving DecidableEq

/-- Why a computation stops before its end. -/
inductive Stop
  /-- The token at the cursor does not fit. -/
  | refused (error : ParseError)
  /-- There is no token at the cursor. -/
  | outOfRange (position : Nat)
  /-- There is no cell to fill in. -/
  | missingCell (cell : NodeId)
deriving DecidableEq

/-- Where the cursor stands, what has been built, and what has happened. -/
structure State where
  position : Nat
  draft : Draft
  advances : Array Advance
  /-- Whether the cursor was ever moved at the last token. -/
  clamped : Bool
  /-- The latest visit comes first. -/
  visits : List Visit
  log : Array LogRecord
deriving DecidableEq

namespace State

/-- The cursor is at the first token, and nothing has happened. -/
def start : State := ⟨0, .empty, #[], false, [], #[]⟩

def enter (s : State) (procedure : Procedure) : State :=
  { s with visits := ⟨procedure, s.position⟩ :: s.visits }

/-- Moves the cursor to the next of a number of tokens, unless it is at the last one. -/
def move (s : State) (length : Nat) : State :=
  if s.position + 1 < length then
    { s with position := s.position + 1 }
  else
    { s with clamped := true }

/-- Keeps a token that the cursor has moved over, and the one behind it. -/
def record (s : State) (eaten next : Token) : State :=
  { s with advances := s.advances.push ⟨eaten, next⟩ }

def emit (s : State) (record : LogRecord) : State :=
  { s with log := s.log.push record }

def alloc (s : State) (t : Token) (kind : NodeKind) : State :=
  { s with draft := (s.draft.alloc t kind).2 }

def link (s : State) (cell statement next : NodeId) : State :=
  { s with draft := s.draft.link cell statement next }

end State

end Descent

/-- A computation on a state that may stop, or not end at all. -/
abbrev Descent := ExceptT Descent.Stop (StateT Descent.State Option)

namespace Descent

/-! ## Looking and moving -/

/-- Marks a visit. -/
def enter (procedure : Procedure) : Descent Unit := modify (·.enter procedure)

/-- Writes to the log. -/
def emit (record : LogRecord) : Descent Unit := modify (·.emit record)

/-- Adds a node and gives its name. -/
def alloc (t : Token) (kind : NodeKind) : Descent NodeId :=
  modifyGet fun s => (s.draft.size, s.alloc t kind)

/-- Fills in a cell of a statement list. -/
def link (cell statement next : NodeId) : Descent Unit := do
  let s ← get
  if s.draft.arena.admits (.link cell statement next) then
    set (s.link cell statement next)
  else
    throw (.missingCell cell)

section Tokens

variable (tokens : List Token)

/-- The token at the cursor. -/
def current : Descent Token := do
  let s ← get
  match tokens[s.position]? with
  | some t => pure t
  | none => throw (.outOfRange s.position)

/-- Whether the token at the cursor is of some kind. -/
def check (kind : Kind) : Descent Bool := do
  let t ← current tokens
  pure (decide (t.kind = kind))

def startsExpression : Descent Bool := do
  let t ← current tokens
  pure t.kind.startsExpression

/-- Whether the token at the cursor ends a list of statements. -/
def endsList : Descent Bool := do
  if ← check tokens .endOfInput then pure true else check tokens .rightBrace

/-- Moves the cursor behind a token, unless it is the last one. -/
def advance : Descent Token := do
  let eaten ← current tokens
  modify (·.move tokens.length)
  let next ← current tokens
  modify (·.record eaten next)
  emit (.ate eaten next)
  pure eaten

/-- Stops at the token at the cursor. -/
def unexpected {α : Type} (production : Production) (expected : String) : Descent α := do
  let t ← current tokens
  emit (.failed production t)
  throw (.refused (.unexpected production t expected))

/-- Moves the cursor behind a token of some kind. -/
def expect (kind : Kind) (production : Production) : Descent Token := do
  if ← check tokens kind then
    advance tokens
  else
    unexpected tokens production kind.describe

/-- Adds an empty cell of a statement list. -/
def emptyCell : Descent NodeId := do
  let t ← current tokens
  alloc t .sentinel

end Tokens

/-- Adds the cells of an argument list, from the last one to the first. The arguments are given
the latest first, each with the token it starts with. -/
def linkArguments (next : Option NodeId) : List (Token × NodeId) → Descent (Option NodeId)
  | [] => pure next
  | (first, argument) :: before => do
    let cell ← alloc first (.argumentCell argument next)
    linkArguments (some cell) before

/-- A computation that does not end. -/
def never {α : Type} : Descent α := ExceptT.mk fun _ => none

/-! ## The procedures -/

/-- The procedures that are called in a circle. A loop is a procedure that calls itself for the
next round. -/
structure Procedures where
  statementList : Descent NodeId
  /-- The loop of `statementList`, with the cell that is still empty. -/
  statementsFrom : NodeId → Descent Unit
  /-- Operands with operators between them. -/
  expression : Descent NodeId
  /-- The loop of `expression`, with what has been read. -/
  operandsFrom : NodeId → Descent NodeId
  call : Descent NodeId
  /-- The loop of an argument list, with the arguments behind the first one that have been read,
  the latest first. -/
  argumentsFrom : List (Token × NodeId) → Descent (List (Token × NodeId))

namespace Procedures

/-- None of the procedures ends. -/
def stuck : Procedures where
  statementList := never
  statementsFrom _ := never
  expression := never
  operandsFrom _ := never
  call := never
  argumentsFrom _ := never

variable (tokens : List Token) (p : Procedures)

def statement : Descent NodeId := do
  enter .statement
  if ← check tokens .letKeyword then
    let _ ← advance tokens
    let symbol ← expect tokens .identifier .statement
    let _ ← expect tokens .assign .statement
    let initializer ← p.expression
    alloc symbol (.definition initializer)
  else
    p.expression

/-- A number, a name or a function. -/
def primary : Descent NodeId := do
  enter .primary
  let t ← current tokens
  match t.kind with
  | .number =>
    let _ ← advance tokens
    alloc t .constant
  | .identifier =>
    let _ ← advance tokens
    alloc t .reference
  | .leftBrace =>
    let _ ← advance tokens
    let body ← p.statementList
    let _ ← expect tokens .rightBrace .function
    alloc t (.function body)
  | _ => unexpected tokens .primary "expression"

def argumentList : Descent NodeId := do
  enter .argumentList
  let first ← current tokens
  let argument ← p.expression
  let others ← p.argumentsFrom []
  let next ← linkArguments none others
  alloc first (.argumentCell argument next)

/-- The argument list of a call, if there is one. -/
def callArguments : Descent (Option NodeId) := do
  if ← startsExpression tokens then
    let first ← p.argumentList tokens
    pure (some first)
  else
    pure none

/-- The procedures, if all that they call are those of `p`. -/
def next : Procedures where
  statementList := do
    enter .statementList
    let head ← emptyCell tokens
    p.statementsFrom head
    pure head
  statementsFrom cell := do
    enter .nextStatement
    if ← endsList tokens then
      pure ()
    else
      let statement ← p.statement tokens
      let next ← emptyCell tokens
      link cell statement next
      p.statementsFrom next
  expression := do
    enter .expression
    let left ← p.call
    p.operandsFrom left
  operandsFrom left := do
    enter .nextOperand
    if ← check tokens .pipe then
      let operator ← advance tokens
      let right ← p.call
      let left ← alloc operator (.binary left right)
      p.operandsFrom left
    else
      pure left
  call := do
    enter .call
    if ← check tokens .leftParen then
      let paren ← advance tokens
      let callee ← p.expression
      let arguments ← p.callArguments tokens
      let _ ← expect tokens .rightParen .call
      alloc paren (.call callee arguments)
    else
      p.primary tokens
  argumentsFrom before := do
    enter .nextArgument
    if ← startsExpression tokens then
      let first ← current tokens
      let argument ← p.expression
      p.argumentsFrom ((first, argument) :: before)
    else
      pure before

end Procedures

/-- The procedures, with calls inside of calls down to some depth. What calls deeper does not
end. -/
def procedures (tokens : List Token) : Nat → Procedures
  | 0 => .stuck
  | depth + 1 => (procedures tokens depth).next tokens

/-- Statements up to the end of the input. -/
def program (tokens : List Token) (depth : Nat) : Descent NodeId := do
  emit (.parsing tokens.length)
  let root ← (procedures tokens depth).statementList
  if ← check tokens .endOfInput then
    let s ← get
    emit (.parsed s.draft.size)
    pure root
  else
    unexpected tokens .program Kind.endOfInput.describe

/-! ## Runs -/

/-- What a computation comes to from a state. -/
def run {α : Type} (m : Descent α) (s : State) : Option (Except Stop α × State) :=
  StateT.run (ExceptT.run m) s

/-- A depth that is enough for a buffer: with the cursor at one token, no procedure is called
twice. -/
def depthFor (buffer : TokenBuffer) : Nat := 9 * buffer.size

/-- What is logged while a buffer is parsed. -/
def log (buffer : TokenBuffer) : List LogRecord :=
  match run (program buffer.tokens (depthFor buffer)) .start with
  | some (_, s) => s.log.toList
  | none => []

end Descent

end PipeScript
