import PipeScript.Diagnostic
import PipeScript.Parse.Context
import PipeScript.Parse.Draft

/-!
One step of a parser: what one token does.

A token first ends what it cannot continue: behind an operand, any token but
an operator ends the expression, which completes a statement, a definition, the
head of a call or an argument. Then the token is taken in, or refused.

A cell of a statement list is added before its statement is read, at the token
that follows, and linked when the statement and the next cell are there. Every
other node is added behind its children; the cells of an argument list follow
the last argument, from the last cell to the first.
-/

namespace PipeScript

/-- What a token comes to: the parser goes on, has read a program with the given
root, or refuses the token. -/
inductive Verdict
  | proceed (control : Control)
  | accept (root : NodeId)
  | reject (error : ParseError)
deriving DecidableEq

namespace Parse

/-! ## Completing constructs -/

/-- An operand is complete: with it is the operator before it, if there is one. -/
def completeOperand (value : NodeId) (pending : Option Pending) (outer : Context) (draft : Draft) :
    Verdict × Draft :=
  match pending with
  | none => (.proceed (.operator value outer), draft)
  | some ⟨left, operator⟩ =>
    let (value, draft) := draft.alloc operator (.binary left value)
    (.proceed (.operator value outer), draft)

/-- An expression in a statement list is complete: with it is its statement,
which is added to the list, and a cell for the next one is opened at the token
that follows. -/
def completeStatement (value : NodeId) (purpose : Purpose) (list : OpenList) (follow : Token)
    (draft : Draft) : OpenList × Draft :=
  let (statement, draft) :=
    match purpose with
    | .statement => (value, draft)
    | .initializer symbol => draft.alloc symbol (.definition value)
  let (next, draft) := draft.alloc follow .sentinel
  (⟨list.head, next⟩, draft.link list.cell statement next)

/-- Adds the cells of an argument list, from the last one to the first. The
arguments are given the latest first, each with the token it starts with. -/
def allocArguments (draft : Draft) (next : Option NodeId) :
    List (Token × NodeId) → Option NodeId × Draft
  | [] => (next, draft)
  | (first, argument) :: before =>
    let (cell, draft) := draft.alloc first (.argumentCell argument next)
    allocArguments draft (some cell) before

/-! ## Taking a token in -/

/-- An operand has to start here. -/
def takeOperand (t : Token) (pending : Option Pending) (outer : Context) (draft : Draft) :
    Verdict × Draft :=
  match t.kind with
  | .number =>
    let (value, draft) := draft.alloc t .constant
    completeOperand value pending outer draft
  | .identifier =>
    let (value, draft) := draft.alloc t .reference
    completeOperand value pending outer draft
  | .leftBrace => (.proceed (.opened (.function t pending outer)), draft)
  | .leftParen => (.proceed (.operand none (.callee t pending outer)), draft)
  | _ => (.reject (.unexpected .primary t "expression"), draft)

/-- A statement starts here, or the list ends. -/
def takeStatement (t : Token) (block : Block) (list : OpenList) (draft : Draft) : Verdict × Draft :=
  match t.kind, block with
  | .letKeyword, _ => (.proceed (.symbol block list), draft)
  | .endOfInput, .program => (.accept list.head, draft)
  | .rightBrace, .program =>
    (.reject (.unexpected .program t Kind.endOfInput.describe), draft)
  | .endOfInput, .function _ _ _ =>
    (.reject (.unexpected .function t Kind.rightBrace.describe), draft)
  | .rightBrace, .function brace pending outer =>
    let (value, draft) := draft.alloc brace (.function list.head)
    completeOperand value pending outer draft
  | _, _ => takeOperand t none (block.context list .statement) draft

/-- An argument starts here, or the call ends. -/
def takeArgument (t paren : Token) (callee : NodeId) (before : List (Token × NodeId))
    (pending : Option Pending) (outer : Context) (draft : Draft) : Verdict × Draft :=
  if t.kind.startsExpression then
    takeOperand t none (.argument t paren callee before pending outer) draft
  else
    let (arguments, draft) := allocArguments draft none before
    if t.kind = .rightParen then
      let (value, draft) := draft.alloc paren (.call callee arguments)
      completeOperand value pending outer draft
    else
      (.reject (.unexpected .call t Kind.rightParen.describe), draft)

/-- An expression ends before this token. -/
def takeBehind (t : Token) (value : NodeId) (outer : Context) (draft : Draft) : Verdict × Draft :=
  match outer with
  | .program list purpose =>
    let (list, draft) := completeStatement value purpose list t draft
    takeStatement t .program list draft
  | .function brace list purpose pending outer =>
    let (list, draft) := completeStatement value purpose list t draft
    takeStatement t (.function brace pending outer) list draft
  | .callee paren pending outer => takeArgument t paren value [] pending outer draft
  | .argument first paren callee before pending outer =>
    takeArgument t paren callee ((first, value) :: before) pending outer draft

/-- What a token does. -/
def step (t : Token) (control : Control) (draft : Draft) : Verdict × Draft :=
  match control with
  | .opened block =>
    let (head, draft) := draft.alloc t .sentinel
    takeStatement t block ⟨head, head⟩ draft
  | .symbol block list =>
    if t.kind = .identifier then
      (.proceed (.assign t block list), draft)
    else
      (.reject (.unexpected .statement t Kind.identifier.describe), draft)
  | .assign name block list =>
    if t.kind = .assign then
      (.proceed (.operand none (block.context list (.initializer name))), draft)
    else
      (.reject (.unexpected .statement t Kind.assign.describe), draft)
  | .operand pending outer => takeOperand t pending outer draft
  | .operator value outer =>
    if t.kind = .pipe then
      (.proceed (.operand (some ⟨value, t⟩) outer), draft)
    else
      takeBehind t value outer draft

end Parse

end PipeScript
