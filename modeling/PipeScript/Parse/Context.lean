import PipeScript.Tree.Arena

/-!
Where a parser stands.

The grammar is

* program: statement list, end of input;
* statement list: any number of statements;
* statement: `let`, identifier, `=`, expression; or an expression;
* expression: operands with `|>` between them;
* operand: number; identifier; `{`, statement list, `}`; or `(`, expression,
  any number of expressions, `)`.

What lies around the place a parser has reached is a `Context`, from the inside
out: the expression it is in, the construct that expression belongs to, the
expression that construct is an operand of, and so on up to the program. The
types admit exactly the contexts that the grammar does. A `Control` adds what
the next token has to be.
-/

namespace PipeScript

/-- A statement list that is being read: its first cell, and its last one, which
is still empty. -/
structure OpenList where
  head : NodeId
  cell : NodeId
deriving DecidableEq

/-- What an expression in a statement list is for. -/
inductive Purpose
  /-- It is a statement. -/
  | statement
  /-- It is what a symbol is defined as. -/
  | initializer (symbol : Token)
deriving DecidableEq

/-- The left side of an operator whose right operand is being read. -/
structure Pending where
  left : NodeId
  operator : Token
deriving DecidableEq

/-- What an expression that is being read stands in. Around a function or a call
this is the expression that it is an operand of, and the operator before it. -/
inductive Context
  /-- The statement list of the program. -/
  | program (list : OpenList) (purpose : Purpose)
  /-- The statement list of a function. -/
  | function (brace : Token) (list : OpenList) (purpose : Purpose)
      (pending : Option Pending) (outer : Context)
  /-- The head of a call. -/
  | callee (paren : Token) (pending : Option Pending) (outer : Context)
  /-- The arguments of a call: the token the argument starts with, and the
  arguments before it, the latest first. -/
  | argument (first : Token) (paren : Token) (callee : NodeId) (before : List (Token × NodeId))
      (pending : Option Pending) (outer : Context)
deriving DecidableEq

/-- What a statement list stands in. -/
inductive Block
  | program
  | function (brace : Token) (pending : Option Pending) (outer : Context)
deriving DecidableEq

/-- The context of an expression in the statement list of a block. -/
def Block.context (block : Block) (list : OpenList) (purpose : Purpose) : Context :=
  match block with
  | program => .program list purpose
  | function brace pending outer => .function brace list purpose pending outer

/-- What a parser is at between two tokens. -/
inductive Control
  /-- A block was opened; its statement list starts here. -/
  | opened (block : Block)
  /-- Behind `let`: a symbol comes. -/
  | symbol (block : Block) (list : OpenList)
  /-- Behind the symbol of a definition: `=` comes. -/
  | assign (name : Token) (block : Block) (list : OpenList)
  /-- An operand comes. -/
  | operand (pending : Option Pending) (outer : Context)
  /-- Behind an operand: an operator goes on with the expression, and any other
  token ends it. -/
  | operator (value : NodeId) (outer : Context)
deriving DecidableEq

end PipeScript
