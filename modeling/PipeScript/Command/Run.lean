import PipeScript.Command.Host
import PipeScript.Command.Line
import PipeScript.Dump.Program
import PipeScript.Frontend
import PipeScript.Render.Backend

/-!
Running commands.

A command reads its source, and then prints what it has to say or writes it to a
file. It stops at the first failure. An unknown format is a failure before the
source is read.
-/

namespace PipeScript

/-- Why a command fails. -/
inductive Failure
  /-- A source whose tokens were asked for has a stray character. -/
  | lex (error : LexError)
  /-- A source could not be read, or is no program. -/
  | frontend (error : FrontendError)
  | unknownFormat (name : String)
  /-- The output could not be written. -/
  | output (error : FileError)
  /-- The tree could not be rendered. -/
  | fault (fault : Fault)
deriving DecidableEq

/-- How a failure is shown. -/
def Failure.dump : Failure → Dump
  | lex error => error.dump
  | frontend error => error.dump
  | unknownFormat name => .word (Text.quoted ("unknown format: " ++ name))
  | output error => error.dump
  | fault (.missing id) => .tuple "Missing" [NodeId.dump id]
  | fault .endless => .word "Endless"

namespace Command

/-- A line number, in a column of four characters at least. -/
def lineColumn (line : Nat) : String :=
  let digits := toString line
  String.ofList (List.replicate (4 - digits.length) ' ') ++ digits

/-- The line of a token, behind the line of the source that it stands on. -/
def tokenLine (t : Token) : String := lineColumn t.line ++ "  " ++ t.display ++ "\n"

/-- The line of a format. -/
def formatLine (backend : Backend) : String :=
  let padding := String.ofList (List.replicate (8 - backend.name.length) ' ')
  "  " ++ backend.name ++ padding ++ " - " ++ backend.description ++ "\n"

/-- What stands above the formats. -/
def formatsHeading : String := "Supported formats:\n"

section

variable {m : Type → Type} [Monad m]

/-- The text of a source file. -/
def readSource (host : Host m) (path : String) : ExceptT Failure m String := do
  match ← host.read path with
  | .error error => throw (.frontend (.file error))
  | .ok bytes =>
    match String.fromUTF8? bytes with
    | some source => return source
    | none => throw (.frontend (.file .notText))

/-- The tree of a source file. -/
def readTree (host : Host m) (path : String) : ExceptT Failure m Tree := do
  match parseSource (← readSource host path) with
  | .ok tree => return tree
  | .error error => throw (.frontend error)

/-- Prints a text, or writes it to a file where one is named. -/
def deliver (host : Host m) (text : String) : Option String → ExceptT Failure m Unit
  | none => host.print text
  | some path => do
    match ← host.write path text.toUTF8 with
    | .ok () => return ()
    | .error error => throw (.output error)

/-- Does what a command asks for. -/
def run (host : Host m) : Command → ExceptT Failure m Unit
  | tokens input => do
    match TokenBuffer.ofSource (← readSource host input) with
    | .ok buffer => buffer.tokens.forM fun t => host.print (tokenLine t)
    | .error error => throw (.lex error)
  | parse input => do
    let tree ← readTree host input
    host.print (tree.dump.pretty ++ "\n")
  | render input format output => do
    match Backend.ofName? format with
    | none => throw (.unknownFormat format)
    | some backend =>
      match backend.render (← readTree host input) with
      | .ok text => deliver host text output
      | .error fault => throw (.fault fault)
  | formats => do
    host.print formatsHeading
    Backend.all.forM fun backend => host.print (formatLine backend)

end

end Command

/-! ## Reports -/

/-- What is left of a run: the exit code, and the last line of the complaints if
the run failed. -/
structure Report where
  exit : Nat
  complaint : Option String
deriving DecidableEq

namespace Report

/-- The name and version that `--version` prints. -/
def versionLine : String := "elby 0.1.0\n"

/-- A reminder of the commands and options. -/
def usage : String :=
  "Usage: elby [-v]... <COMMAND>\n" ++
  "\n" ++
  "Commands:\n" ++
  "  tokens <INPUT>   Print the tokens of a source file\n" ++
  "  parse <INPUT>    Parse a source file and dump the tree\n" ++
  "  render <INPUT>   Render the tree: -f, --format <FORMAT>; -o, --output <OUTPUT>\n" ++
  "  formats          List supported output formats\n"

/-- The report of a command's outcome. -/
def ofOutcome : Except Failure Unit → Report
  | .ok () => ⟨0, none⟩
  | .error failure => ⟨1, some ("Error: " ++ failure.dump.compact)⟩

end Report

/-- Does what a command line asks for. -/
def Invocation.run {m : Type → Type} [Monad m] (host : Host m) : Invocation → m Report
  | command asked _ => do return .ofOutcome (← (asked.run host).run)
  | help => do
    host.print Report.usage
    return ⟨0, none⟩
  | version => do
    host.print Report.versionLine
    return ⟨0, none⟩
  | misuse => return ⟨2, some Report.usage⟩

end PipeScript
