import PipeScript.Text.Quoted
import PipeScript.Token.Basic

/-!
What can go wrong between a source text and its tree, and the one-line messages
that say so.

A `LexError` is a character that starts no token, a `ParseError` a token that
no program could have at its place, a `FileError` a source that could not be
read. `FrontendError` joins the three.
-/

namespace PipeScript

/-! ## Characters -/

/-- A character outside every token rule, and the line it stands on. -/
structure LexError where
  character : Char
  line : Nat
deriving DecidableEq

/-- The message shows the character the way dumps do, so it stays on one line. -/
def LexError.message (e : LexError) : String :=
  "unexpected character " ++ Text.quotedChar e.character ++ " at line " ++ toString e.line

/-! ## Tokens -/

/-- The part of the grammar that a token did not fit. -/
inductive Production
  | program
  | statement
  | call
  | primary
  | function
deriving DecidableEq

/-- What messages call a part of the grammar. -/
def Production.name : Production → String
  | program => "program"
  | statement => "statement"
  | call => "call"
  | primary => "primary"
  | function => "function"

/-- The first token that did not fit: where it stands, how it reads, and what
would have fitted. -/
structure ParseError where
  production : Production
  line : Nat
  found : String
  expected : Option String
deriving DecidableEq

namespace ParseError

/-- The error that a token raises. -/
def unexpected (production : Production) (t : Token) (expected : String) : ParseError where
  production := production
  line := t.line
  found := t.display
  expected := some expected

/-- The message quotes the token as it reads. -/
def message (e : ParseError) : String :=
  e.production.name ++ " at line " ++ toString e.line ++ ": got unexpected " ++ e.found ++
    match e.expected with
    | some expected => " (expected " ++ expected ++ ")"
    | none => ""

end ParseError

/-! ## Files -/

/-- Why a file could not be read or written: the operating system refused, or
its bytes are no text. -/
inductive FileError
  | system (code : Nat) (kind : String) (message : String)
  | notText
deriving DecidableEq

namespace FileError

/-- There is no file of that name. -/
def notFound : FileError := system 2 "NotFound" "No such file or directory"

/-- The name is that of a directory. -/
def isDirectory : FileError := system 21 "IsADirectory" "Is a directory"

/-- The name leads through a file as if it were a directory. -/
def notDirectory : FileError := system 20 "NotADirectory" "Not a directory"

/-- The path, or a name in it, has more bytes than paths or names can have. -/
def nameTooLong : FileError := system 36 "InvalidFilename" "File name too long"

/-- There is no room for the bytes of the file. -/
def noSpace : FileError := system 28 "StorageFull" "No space left on device"

/-- What messages say of a file. -/
def message : FileError → String
  | system code _ message => message ++ " (os error " ++ toString code ++ ")"
  | notText => "stream did not contain valid UTF-8"

end FileError

/-! ## The front end -/

/-- What keeps a source from becoming a tree. -/
inductive FrontendError
  | lex (error : LexError)
  | parse (error : ParseError)
  | file (error : FileError)
deriving DecidableEq

/-- The message of the cause, behind the name of the stage. -/
def FrontendError.message : FrontendError → String
  | lex error => "Lexer error: " ++ error.message
  | parse error => "Syntax error: " ++ error.message
  | file error => "IO error: " ++ error.message

end PipeScript
