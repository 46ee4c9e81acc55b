import PipeScript.Diagnostic
import PipeScript.Dump.Basic
import PipeScript.Token.Buffer
import PipeScript.Tree.Arena

/-!
The shapes of tokens, trees and errors in dumps.
-/

namespace PipeScript

open Dump (word part record tuple list optional nat)

/-! ## Tokens -/

/-- What dumps call a kind. -/
def Kind.label : Kind → String
  | endOfInput => "Eof"
  | identifier => "Identifier"
  | number => "Number"
  | letKeyword => "Let"
  | pipe => "Pipe"
  | arrow => "Arrow"
  | equality => "Equality"
  | assign => "Assign"
  | leftBrace => "LBrace"
  | rightBrace => "RBrace"
  | leftParen => "LParen"
  | rightParen => "RParen"

/-- The value of a token. -/
def Literal.dump : Literal → Dump
  | none => word "None"
  | text value => tuple "Str" [word (Text.quoted value)]
  | number value => tuple "Number" [word value.dump]

/-- The place of a lexeme. -/
def Span.dump (s : Span) : Dump :=
  record "Span" [part "start" (nat s.start), part "len" (nat s.len), part "line" (nat s.line),
    part "column" (nat s.column)]

/-- A token with all it holds. -/
def Token.dump (t : Token) : Dump :=
  record "Token" [part "kind" (word t.kind.label), part "span" t.span.dump,
    part "lexeme" (word (Text.quoted t.lexeme)), part "value" t.value.dump]

/-- The tokens of a source, the end of the input included. -/
def TokenBuffer.dump (buffer : TokenBuffer) : Dump :=
  record "TokenBuffer" [part "tokens" (list (buffer.tokens.map Token.dump))]

/-! ## Trees -/

/-- The name of a node. -/
def NodeId.dump (id : NodeId) : Dump := tuple "NodeId" [nat id]

/-- A child slot that may be empty. -/
def NodeId.dumpSlot (slot : Option NodeId) : Dump := optional (slot.map NodeId.dump)

/-- What a node is, with its child slots. -/
def NodeKind.dump : NodeKind → Dump
  | constant => word "Constant"
  | reference => word "Reference"
  | binary left right =>
    record "BinaryOp" [part "left" (NodeId.dump left), part "right" (NodeId.dump right)]
  | function body => record "FunctionDefinition" [part "body" (NodeId.dump body)]
  | call callee arguments =>
    record "FunctionCall" [part "callee" (NodeId.dump callee),
      part "args" (NodeId.dumpSlot arguments)]
  | argumentCell argument next =>
    record "ExpressionList" [part "expr" (NodeId.dump argument),
      part "next" (NodeId.dumpSlot next)]
  | definition initializer =>
    record "VariableDefinition" [part "initializer" (NodeId.dump initializer)]
  | statementCell statement next =>
    record "StatementList" [part "statement" (NodeId.dumpSlot statement),
      part "next" (NodeId.dumpSlot next)]

/-- A node with the token that anchors it. -/
def Node.dump (node : Node) : Dump :=
  record "Node" [part "id" (NodeId.dump node.id), part "token" node.token.dump,
    part "kind" node.kind.dump]

/-- All nodes of a tree in creation order, and its root. -/
def Tree.dump (tree : Tree) : Dump :=
  record "Ast" [part "nodes" (list (tree.nodes.toList.map Node.dump)),
    part "root" (NodeId.dump tree.root)]

/-! ## Errors -/

/-- A stray character and its line. -/
def LexError.dump (e : LexError) : Dump :=
  record "LexError" [part "character" (word (Text.quotedChar e.character)),
    part "line" (nat e.line)]

/-- What dumps call a part of the grammar. -/
def Production.label : Production → String
  | program => "Program"
  | statement => "Statement"
  | call => "Call"
  | primary => "Primary"
  | function => "Function"

/-- A token that does not fit, with what would. -/
def ParseError.dump (e : ParseError) : Dump :=
  record "ParseError" [part "production" (word e.production.label), part "line" (nat e.line),
    part "found" (word (Text.quoted e.found)),
    part "expected" (optional (e.expected.map fun what => word (Text.quoted what)))]

/-- What kept a file from being read or written. -/
def FileError.dump : FileError → Dump
  | system code kind message =>
    record "Os" [part "code" (nat code), part "kind" (word kind),
      part "message" (word (Text.quoted message))]
  | notText =>
    record "Error" [part "kind" (word "InvalidData"),
      part "message" (word (Text.quoted notText.message))]

/-- The cause, behind the name of the stage. -/
def FrontendError.dump : FrontendError → Dump
  | lex error => tuple "Lex" [error.dump]
  | parse error => tuple "Parse" [error.dump]
  | file error => record "Io" [part "source" error.dump]

end PipeScript
