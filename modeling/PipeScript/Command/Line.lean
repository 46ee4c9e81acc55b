/-!
The command line.

There are four commands: `tokens` and `parse` take a source file, `render` takes
a source file and may be told a format and an output file, `formats` takes
nothing. Every command may be asked to be verbose, as often as one likes, before
or behind its name.

Arguments are read from left to right, and the first one that decides the
outcome does so: a request for help or for the version, or an argument that
cannot be used. An option that takes a value has it in the next argument or
attached to itself (`-f x`, `-fx`, `-f=x`, `--format x`, `--format=x`), may be
given once, and does not take what looks like an option itself. Behind `--`
every argument is an input.
-/

namespace PipeScript

/-! ## Commands -/

/-- What a user can ask for. -/
inductive Command
  | tokens (input : String)
  | parse (input : String)
  | render (input format : String) (output : Option String)
  | formats
deriving DecidableEq

/-- What a command line comes to. -/
inductive Invocation
  | command (command : Command) (verbosity : Nat)
  | help
  | version
  /-- The arguments make no command. -/
  | misuse
deriving DecidableEq

namespace CommandLine

/-- The names of the commands. -/
inductive Name
  | tokens
  | parse
  | render
  | formats
deriving DecidableEq

/-- The command that an argument names. -/
def Name.ofArgument? : String → Option Name
  | "tokens" => some .tokens
  | "parse" => some .parse
  | "render" => some .render
  | "formats" => some .formats
  | _ => none

/-- The options that take a value. -/
inductive ValueOption
  | format
  | output
deriving DecidableEq

/-- The option of a letter, where a command is known by then that takes it. -/
def ValueOption.ofLetter? (scope : Option Name) (letter : Char) : Option ValueOption :=
  match scope, letter with
  | some .render, 'f' => some .format
  | some .render, 'o' => some .output
  | _, _ => none

/-- The option of a long name, where a command is known by then that takes it. -/
def ValueOption.ofLong? (scope : Option Name) (name : String) : Option ValueOption :=
  match scope, name with
  | some .render, "format" => some .format
  | some .render, "output" => some .output
  | _, _ => none

/-! ## What has been read -/

/-- The values that have been given so far. -/
structure Settings where
  verbosity : Nat
  input : Option String
  format : Option String
  output : Option String
deriving DecidableEq

namespace Settings

/-- Nothing has been given. -/
def empty : Settings := ⟨0, none, none, none⟩

/-- Verbose once more. -/
def louder (s : Settings) : Settings := { s with verbosity := s.verbosity + 1 }

/-- Gives an option its value, unless it has one. -/
def set? (s : Settings) (option : ValueOption) (value : String) : Option Settings :=
  match option, s.format, s.output with
  | .format, none, _ => some { s with format := some value }
  | .output, _, none => some { s with output := some value }
  | _, _, _ => none

/-- Takes an input, unless there is one or the command takes none. -/
def addInput? (s : Settings) (name : Name) (input : String) : Option Settings :=
  if name = .formats then none
  else if s.input.isSome then none
  else some { s with input := some input }

/-- The command that has been given when all arguments are read. An outline is
rendered where no format is named. -/
def finish (s : Settings) (scope : Option Name) : Invocation :=
  match scope, s.input with
  | some .tokens, some input => .command (.tokens input) s.verbosity
  | some .parse, some input => .command (.parse input) s.verbosity
  | some .render, some input =>
    .command (.render input (s.format.getD "tree") s.output) s.verbosity
  | some .formats, _ => .command .formats s.verbosity
  | _, _ => .misuse

end Settings

/-! ## Options -/

/-- What an argument with options comes to. -/
inductive Effect
  /-- Reading goes on. -/
  | settle (settings : Settings)
  /-- The next argument is the value of an option. -/
  | await (option : ValueOption) (settings : Settings)
  /-- The outcome is decided. -/
  | conclude (outcome : Invocation)

/-- The effect of a value for an option. -/
def Effect.ofValue (s : Settings) (option : ValueOption) (value : String) : Effect :=
  match s.set? option value with
  | some s => .settle s
  | none => .conclude .misuse

/-- Reads the letters behind a single dash. What follows the letter of an option
with a value is that value, an equals sign in front left out. -/
def readLetters (scope : Option Name) (s : Settings) : List Char → Effect
  | [] => .settle s
  | 'v' :: rest => readLetters scope s.louder rest
  | 'h' :: _ => .conclude .help
  | letter :: rest =>
    if letter = 'V' ∧ scope = none then
      .conclude .version
    else
      match ValueOption.ofLetter? scope letter, rest with
      | none, _ => .conclude .misuse
      | some option, [] => .await option s
      | some option, '=' :: value => .ofValue s option (String.ofList value)
      | some option, value => .ofValue s option (String.ofList value)

/-- Reads the name behind two dashes, with its value if one is attached. -/
def readLong (scope : Option Name) (s : Settings) (name : String) (value : Option String) :
    Effect :=
  match ValueOption.ofLong? scope name, value with
  | some option, some value => .ofValue s option value
  | some option, none => .await option s
  | none, some _ => .conclude .misuse
  | none, none =>
    if name = "verbose" then .settle s.louder
    else if name = "help" then .conclude .help
    else if name = "version" ∧ scope = none then .conclude .version
    else .conclude .misuse

/-- The value behind the first equals sign of a long option, if there is one. -/
def attachedValue? (text : List Char) : Option String :=
  match text.dropWhile (· ≠ '=') with
  | [] => none
  | _ :: value => some (String.ofList value)

/-- The effect of an argument, if it looks like options. A single dash does not. -/
def readOptions? (scope : Option Name) (s : Settings) (argument : String) : Option Effect :=
  match argument.toList with
  | '-' :: '-' :: text =>
    some (readLong scope s (String.ofList (text.takeWhile (· ≠ '='))) (attachedValue? text))
  | '-' :: letter :: rest => some (readLetters scope s (letter :: rest))
  | _ => none

/-- Whether an argument cannot be the value of an option before it. -/
def looksLikeOption (argument : String) : Bool :=
  match argument.toList with
  | '-' :: _ :: _ => true
  | _ => false

/-! ## Arguments -/

/-- Reads arguments that are inputs, whatever they look like. -/
def readInputs (scope : Option Name) (s : Settings) : List String → Invocation
  | [] => s.finish scope
  | input :: rest =>
    match scope.bind fun name => s.addInput? name input with
    | some s => readInputs scope s rest
    | none => .misuse

/-- Reads what help is asked about: nothing, or one command. -/
def readTopic : List String → Invocation
  | [] => .help
  | [topic] => if topic = "help" ∨ (Name.ofArgument? topic).isSome then .help else .misuse
  | _ => .misuse

/-- Reads arguments, with the command if one has been named, and the option that
awaits its value if there is one. -/
def read (scope : Option Name) (s : Settings) (awaiting : Option ValueOption) :
    List String → Invocation
  | [] => if awaiting.isSome then .misuse else s.finish scope
  | argument :: rest =>
    match awaiting with
    | some option =>
      if looksLikeOption argument then
        .misuse
      else
        match s.set? option argument with
        | some s => read scope s none rest
        | none => .misuse
    | none =>
      if argument = "--" then
        readInputs scope s rest
      else
        match readOptions? scope s argument with
        | some (.settle s) => read scope s none rest
        | some (.await option s) => read scope s (some option) rest
        | some (.conclude outcome) => outcome
        | none =>
          match scope with
          | some name =>
            match s.addInput? name argument with
            | some s => read scope s none rest
            | none => .misuse
          | none =>
            match Name.ofArgument? argument with
            | some name => read (some name) s none rest
            | none => if argument = "help" then readTopic rest else .misuse

end CommandLine

/-- What a command line comes to. -/
def Invocation.ofArguments (arguments : List String) : Invocation :=
  CommandLine.read none .empty none arguments

end PipeScript
