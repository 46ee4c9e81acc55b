import PipeScript.Command.Run
import PipeScript.Proofs.Faithfulness
import PipeScript.Proofs.Hosts

/-!
# What commands leave behind

A command fails for one of a few reasons (`Command.FailsWith`), or has a text (`Command.Gives`) that
it prints or writes to a file. All that could keep it from having one comes before the first
character is printed, and the output file is written last. So on a lawful host a run that fails
prints nothing and leaves all files as they were, and one that goes well prints its text, or leaves
it in the output file alone (`Invocation.run_atomic`).
-/

namespace PipeScript

variable {σ : Type} {host : Host (StateM σ)} {view : View σ} {s s' : σ}

/-! ## Actions on a host -/

section Actions

variable {α β : Type} {action : ExceptT Failure (StateM σ) α}
  {next : α → ExceptT Failure (StateM σ) β}

theorem run_bind_of_ok {value : α} (ran : action.run.run s = (.ok value, s')) :
    (action >>= next).run.run s = (next value).run.run s' := by
  rw [ExceptT.run_bind, StateT.run_bind, ran]
  rfl

theorem run_bind_of_error {failure : Failure} (ran : action.run.run s = (.error failure, s')) :
    (action >>= next).run.run s = (.error failure, s') := by
  rw [ExceptT.run_bind, StateT.run_bind, ran]
  rfl

/-- An action of the host is followed by what goes by its result. -/
theorem run_bind_lift {act : StateM σ α} {value : α} (ran : act.run s = (value, s')) :
    ((liftM act : ExceptT Failure (StateM σ) α) >>= next).run.run s = (next value).run.run s' := by
  have lifted : (liftM act : ExceptT Failure (StateM σ) α).run.run s = (.ok value, s') := by
    change (Except.ok (act.run s).1, (act.run s).2) = _
    rw [ran]
  exact run_bind_of_ok lifted

end Actions

/-- Reading a path gives a text, and leaves the host in some state. -/
def Host.Reads (host : Host (StateM σ)) (s : σ) (path source : String) (s' : σ) : Prop :=
  ∃ bytes, (host.read path).run s = (.ok bytes, s') ∧ String.fromUTF8? bytes = some source

theorem Host.Lawful.same_of_read (lawful : host.Lawful view) {path : String}
    {answer : Except FileError ByteArray} (read : (host.read path).run s = (answer, s')) :
    view.Same s s' := by
  have same := lawful.read path s
  rwa [read] at same

theorem Host.Lawful.same_of_reads (lawful : host.Lawful view) {path source : String}
    (reads : host.Reads s path source s') : view.Same s s' := by
  obtain ⟨bytes, read, -⟩ := reads
  exact lawful.same_of_read read

namespace Command

variable {path source text : String}

/-! ## Steps of a command -/

theorem readSource_of_reads (reads : host.Reads s path source s') :
    (readSource host path).run.run s = (.ok source, s') := by
  obtain ⟨bytes, read, isText⟩ := reads
  rw [readSource, run_bind_lift read]
  simp only [isText]
  rfl

theorem readSource_of_error {error : FileError}
    (read : (host.read path).run s = (.error error, s')) :
    (readSource host path).run.run s = (.error (.frontend (.file error)), s') := by
  rw [readSource, run_bind_lift read]
  rfl

theorem readSource_of_notText {bytes : ByteArray} (read : (host.read path).run s = (.ok bytes, s'))
    (notText : String.fromUTF8? bytes = none) :
    (readSource host path).run.run s = (.error (.frontend (.file .notText)), s') := by
  rw [readSource, run_bind_lift read]
  simp only [notText]
  rfl

theorem readTree_of_reads {tree : Tree} (reads : host.Reads s path source s')
    (parsed : parseSource source = .ok tree) :
    (readTree host path).run.run s = (.ok tree, s') := by
  rw [readTree, run_bind_of_ok (readSource_of_reads reads), parsed]
  rfl

theorem readTree_of_refused {error : FrontendError} (reads : host.Reads s path source s')
    (refused : parseSource source = .error error) :
    (readTree host path).run.run s = (.error (.frontend error), s') := by
  rw [readTree, run_bind_of_ok (readSource_of_reads reads), refused]
  rfl

theorem readTree_of_error {failure : Failure}
    (failed : (readSource host path).run.run s = (.error failure, s')) :
    (readTree host path).run.run s = (.error failure, s') := by
  rw [readTree, run_bind_of_error failed]

theorem deliver_of_write (written : (host.write path text.toUTF8).run s = (.ok (), s')) :
    (deliver host text (some path)).run.run s = (.ok (), s') := by
  rw [deliver, run_bind_lift written]
  rfl

theorem deliver_of_error {error : FileError}
    (refused : (host.write path text.toUTF8).run s = (.error error, s')) :
    (deliver host text (some path)).run.run s = (.error (.output error), s') := by
  rw [deliver, run_bind_lift refused]
  rfl

/-- An action goes well, prints a text and changes no file. -/
def PrintsOnly (view : View σ) (action : ExceptT Failure (StateM σ) Unit) (s : σ) (text : String) :
    Prop :=
  ∃ s', action.run.run s = (.ok (), s') ∧ view.Prints s text s'

theorem printsOnly_print (lawful : host.Lawful view) (text : String) (s : σ) :
    PrintsOnly view (liftM (host.print text)) s text :=
  ⟨_, rfl, lawful.print text s⟩

theorem PrintsOnly.bind {action next : ExceptT Failure (StateM σ) Unit} {behind : String}
    (first : PrintsOnly view action s text) (second : ∀ s', PrintsOnly view next s' behind) :
    PrintsOnly view (action >>= fun _ => next) s (text ++ behind) := by
  obtain ⟨s', ran, prints⟩ := first
  obtain ⟨s'', ranToo, printsToo⟩ := second s'
  exact ⟨s'', (run_bind_of_ok ran).trans ranToo, prints.trans printsToo⟩

/-- Lines are printed one behind the other. -/
theorem printsOnly_lines {α : Type} (lawful : host.Lawful view) (line : α → String) (items : List α)
    (s : σ) :
    PrintsOnly view (items.forM fun item => liftM (host.print (line item))) s
      (String.join (items.map line)) := by
  induction items generalizing s with
  | nil =>
    rw [List.map_nil, String.join_nil]
    exact ⟨s, rfl, .refl s⟩
  | cons item items ih =>
    rw [List.map_cons, String.join_cons]
    exact (printsOnly_print lawful (line item) s).bind ih

/-! ## What comes of a command -/

/-- The command gets to read a source file. One that renders does if it knows the format. -/
inductive Opens : Command → String → Prop
  | tokens {input : String} : Opens (.tokens input) input
  | parse {input : String} : Opens (.parse input) input
  | render {input format : String} {output : Option String} {backend : Backend} :
    Backend.ofName? format = some backend → Opens (.render input format output) input

/-- The file that a command writes its text to, if it does not print it. -/
def output? : Command → Option String
  | render _ _ output => output
  | _ => none

/-- The same command, but printing its text. -/
def withoutOutput : Command → Command
  | render input format _ => render input format none
  | command => command

/-- A command has a text, on a host in some state, and has left it in another one by then. -/
inductive Gives (host : Host (StateM σ)) (s : σ) : Command → String → σ → Prop
  | tokens {input source : String} {buffer : TokenBuffer} {s' : σ} :
    host.Reads s input source s' → TokenBuffer.ofSource source = .ok buffer →
    Gives host s (.tokens input) (String.join (buffer.tokens.map tokenLine)) s'
  | parse {input source : String} {tree : Tree} {s' : σ} :
    host.Reads s input source s' → parseSource source = .ok tree →
    Gives host s (.parse input) (tree.dump.pretty ++ "\n") s'
  | render {input format source text : String} {output : Option String} {backend : Backend}
      {tree : Tree} {s' : σ} :
    Backend.ofName? format = some backend → host.Reads s input source s' →
    parseSource source = .ok tree → backend.render tree = .ok text →
    Gives host s (.render input format output) text s'
  | formats : Gives host s .formats (formatsHeading ++ String.join (Backend.all.map formatLine)) s

/-- A command fails, on a host in some state. -/
inductive FailsWith (host : Host (StateM σ)) (s : σ) : Command → Failure → Prop
  | unknownFormat {input format : String} {output : Option String} :
    Backend.ofName? format = none →
    FailsWith host s (.render input format output) (.unknownFormat format)
  | unreadable {command : Command} {input : String} {error : FileError} {s' : σ} :
    command.Opens input → (host.read input).run s = (.error error, s') →
    FailsWith host s command (.frontend (.file error))
  | notText {command : Command} {input : String} {bytes : ByteArray} {s' : σ} :
    command.Opens input → (host.read input).run s = (.ok bytes, s') →
    String.fromUTF8? bytes = none → FailsWith host s command (.frontend (.file .notText))
  | stray {input source : String} {error : LexError} {s' : σ} :
    host.Reads s input source s' → TokenBuffer.ofSource source = .error error →
    FailsWith host s (.tokens input) (.lex error)
  | refused {command : Command} {input source : String} {error : FrontendError} {s' : σ} :
    command.Opens input → command ≠ .tokens input → host.Reads s input source s' →
    parseSource source = .error error → FailsWith host s command (.frontend error)
  /-- The text is complete, but the output file cannot be written. -/
  | unwritable {command : Command} {text path : String} {error : FileError} {s' s'' : σ} :
    command.Gives host s text s' → command.output? = some path →
    (host.write path text.toUTF8).run s' = (.error error, s'') →
    FailsWith host s command (.output error)

/-- A command that does not get to read its source fails in the same way as the read. -/
theorem run_of_source_error {command : Command} {input : String} {failure : Failure}
    (opens : command.Opens input)
    (failed : (readSource host input).run.run s = (.error failure, s')) :
    (command.run host).run.run s = (.error failure, s') := by
  cases opens with
  | tokens => rw [run, run_bind_of_error failed]
  | parse => rw [run, run_bind_of_error (readTree_of_error failed)]
  | render known =>
    rw [run, known]
    exact run_bind_of_error (readTree_of_error failed)

/-- Until a command has its text, it has changed nothing. -/
theorem Gives.same (lawful : host.Lawful view) {command : Command}
    (gives : command.Gives host s text s') : view.Same s s' := by
  cases gives with
  | tokens reads | parse reads | render _ reads => exact lawful.same_of_reads reads
  | formats => exact .refl s

/-- A text that is for a file is written to it. -/
theorem run_of_gives {command : Command} (gives : command.Gives host s text s')
    (named : command.output? = some path) :
    (command.run host).run.run s = (deliver host text (some path)).run.run s' := by
  cases gives with
  | tokens | parse | formats => cases named
  | render known reads parsed rendered =>
    cases named
    rw [run, known]
    refine (run_bind_of_ok (readTree_of_reads reads parsed)).trans ?_
    rw [rendered]

/-- Any other text is printed. -/
theorem printsOnly_of_gives (lawful : host.Lawful view) {command : Command}
    (gives : command.Gives host s text s') (printing : command.output? = none) :
    PrintsOnly view (command.run host) s text := by
  have printed {action : ExceptT Failure (StateM σ) Unit} (only : PrintsOnly view action s' text)
      (ran : (command.run host).run.run s = action.run.run s') :
      PrintsOnly view (command.run host) s text := by
    obtain ⟨after, done, prints⟩ := only
    exact ⟨after, ran.trans done, (gives.same lawful).prints prints⟩
  cases gives with
  | tokens reads lexed =>
    refine printed (printsOnly_lines lawful tokenLine _ s') ?_
    rw [run, run_bind_of_ok (readSource_of_reads reads), lexed]
  | parse reads parsed =>
    refine printed (printsOnly_print lawful _ s') ?_
    rw [run, run_bind_of_ok (readTree_of_reads reads parsed)]
  | render known reads parsed rendered =>
    cases printing
    refine printed (printsOnly_print lawful text s') ?_
    rw [run, known]
    refine (run_bind_of_ok (readTree_of_reads reads parsed)).trans ?_
    rw [rendered]
    rfl
  | formats => exact (printsOnly_print lawful _ s).bind (printsOnly_lines lawful formatLine _)

/-- A command that fails changes nothing. -/
theorem run_of_failsWith (lawful : host.Lawful view) {command : Command} {failure : Failure}
    (fails : command.FailsWith host s failure) :
    ∃ after, (command.run host).run.run s = (.error failure, after) ∧ view.Same s after := by
  cases fails with
  | unknownFormat unknown =>
    refine ⟨s, ?_, .refl s⟩
    rw [run, unknown]
    rfl
  | unreadable opens read =>
    exact ⟨_, run_of_source_error opens (readSource_of_error read), lawful.same_of_read read⟩
  | notText opens read isNot =>
    exact ⟨_, run_of_source_error opens (readSource_of_notText read isNot),
      lawful.same_of_read read⟩
  | stray reads stray =>
    refine ⟨_, ?_, lawful.same_of_reads reads⟩
    rw [run, run_bind_of_ok (readSource_of_reads reads), stray]
    rfl
  | refused opens notTokens reads refused =>
    refine ⟨_, ?_, lawful.same_of_reads reads⟩
    have failed := readTree_of_refused reads refused
    cases opens with
    | tokens => contradiction
    | parse => rw [run, run_bind_of_error failed]
    | render known =>
      rw [run, known]
      exact run_bind_of_error failed
  | unwritable gives named refused =>
    refine ⟨_, ?_, (gives.same lawful).trans (lawful.write_error _ _ _ _ _ refused)⟩
    rw [run_of_gives gives named, deliver_of_error refused]

/-- A source that is read and parsed gives a text in every format. -/
theorem exists_gives_render {input format : String} (output : Option String) {backend : Backend}
    {tree : Tree} (known : Backend.ofName? format = some backend)
    (reads : host.Reads s input source s') (parsed : parseSource source = .ok tree) :
    ∃ text, (render input format output).Gives host s text s' := by
  obtain ⟨buffer, -, parsedToo⟩ := parseSource_eq_ok.mp parsed
  obtain ⟨text, rendered⟩ := Backend.exists_render parsedToo backend
  exact ⟨text, .render known reads parsed rendered⟩

/-- A command fails or has a text. -/
theorem fails_or_gives (host : Host (StateM σ)) (s : σ) (command : Command) :
    (∃ failure, command.FailsWith host s failure) ∨ ∃ text s', command.Gives host s text s' := by
  have source {input : String} (opens : command.Opens input) :
      (∃ failure, command.FailsWith host s failure) ∨
        ∃ source s', host.Reads s input source s' := by
    rcases read : (host.read input).run s with ⟨error | bytes, s'⟩
    · exact Or.inl ⟨_, .unreadable opens read⟩
    · cases isText : String.fromUTF8? bytes with
      | none => exact Or.inl ⟨_, .notText opens read isText⟩
      | some source => exact Or.inr ⟨source, s', bytes, read, isText⟩
  cases command with
  | tokens input =>
    refine (source .tokens).elim Or.inl ?_
    rintro ⟨source, s', reads⟩
    cases lexed : TokenBuffer.ofSource source with
    | error error => exact Or.inl ⟨_, .stray reads lexed⟩
    | ok buffer => exact Or.inr ⟨_, _, .tokens reads lexed⟩
  | parse input =>
    refine (source .parse).elim Or.inl ?_
    rintro ⟨source, s', reads⟩
    cases parsed : parseSource source with
    | error error => exact Or.inl ⟨_, .refused .parse nofun reads parsed⟩
    | ok tree => exact Or.inr ⟨_, _, .parse reads parsed⟩
  | render input format output =>
    cases known : Backend.ofName? format with
    | none => exact Or.inl ⟨_, .unknownFormat known⟩
    | some backend =>
      refine (source (.render known)).elim Or.inl ?_
      rintro ⟨source, s', reads⟩
      cases parsed : parseSource source with
      | error error => exact Or.inl ⟨_, .refused (.render known) nofun reads parsed⟩
      | ok tree =>
        obtain ⟨text, gives⟩ := exists_gives_render output known reads parsed
        exact Or.inr ⟨text, s', gives⟩
  | formats => exact Or.inr ⟨_, _, .formats⟩

/-- A command that is told to print its text has the same text. -/
theorem Gives.withoutOutput {command : Command} (gives : command.Gives host s text s') :
    command.withoutOutput.Gives host s text s' ∧ command.withoutOutput.output? = none := by
  cases gives with
  | tokens reads lexed => exact ⟨.tokens reads lexed, rfl⟩
  | parse reads parsed => exact ⟨.parse reads parsed, rfl⟩
  | render known reads parsed rendered => exact ⟨.render known reads parsed rendered, rfl⟩
  | formats => exact ⟨.formats, rfl⟩

end Command

/-! ## Whole runs -/

/-- The program goes well, prints a text and changes no file. -/
def Invocation.Prints (invocation : Invocation) (host : Host (StateM σ)) (view : View σ) (s : σ)
    (text : String) : Prop :=
  ∃ after, (invocation.run host).run s = (⟨0, none⟩, after) ∧ view.Prints s text after

/-- What a run of a command leaves behind: all or nothing. -/
structure Command.RunsAtomically (host : Host (StateM σ)) (view : View σ) (command : Command)
    (verbosity : Nat) (s : σ) (report : Report) (after : σ) : Prop where
  failed_iff : report.exit ≠ 0 ↔ ∃ failure, command.FailsWith host s failure
  /-- Nothing is printed and no file is changed by a run that fails. -/
  failed : report.exit ≠ 0 → view.Same s after
  complaint : ∀ failure, command.FailsWith host s failure →
    report.complaint = some ("Error: " ++ failure.dump.compact)
  printed : report.exit = 0 → command.output? = none →
    ∃ text s', command.Gives host s text s' ∧ view.Prints s text after
  /-- Nothing is printed where there is an output file. It holds what the same command prints that
  names none, and every other file is as before, be it the source file or not. -/
  written : ∀ path, report.exit = 0 → command.output? = some path →
    view.printed after = view.printed s ∧
    ∃ text, (Invocation.command command.withoutOutput verbosity).Prints host view s text ∧
      (∀ file, view.file? path = some file → view.bytes? after file = some text.toUTF8) ∧
      ∀ other, view.file? path ≠ some other → view.bytes? after other = view.bytes? s other

namespace Invocation

variable {command : Command}

theorem run_command {outcome : Except Failure Unit}
    (ran : (command.run host).run.run s = (outcome, s')) (verbosity : Nat) :
    ((Invocation.command command verbosity).run host).run s = (.ofOutcome outcome, s') := by
  rw [run, StateT.run_bind, ran]
  rfl

theorem prints_of_gives (lawful : host.Lawful view) {text : String}
    (gives : command.Gives host s text s') (printing : command.output? = none) (verbosity : Nat) :
    (Invocation.command command verbosity).Prints host view s text := by
  obtain ⟨after, ran, prints⟩ := Command.printsOnly_of_gives lawful gives printing
  exact ⟨after, run_command ran verbosity, prints⟩

end Invocation

namespace Command.RunsAtomically

variable {command : Command} {after : σ} (lawful : host.Lawful view)

include lawful

theorem of_failsWith {failure : Failure} (fails : command.FailsWith host s failure)
    (ran : (command.run host).run.run s = (.error failure, after)) (same : view.Same s after)
    (verbosity : Nat) :
    command.RunsAtomically host view verbosity s (.ofOutcome (.error failure)) after where
  failed_iff := ⟨fun _ => ⟨failure, fails⟩, fun _ => nofun⟩
  failed _ := same
  complaint other failsToo := by
    obtain ⟨_, ranToo, -⟩ := run_of_failsWith lawful failsToo
    cases ran.symm.trans ranToo
    rfl
  printed := nofun
  written := nofun

variable (ran : (command.run host).run.run s = (.ok (), after))

include ran

/-- A run that goes well has not failed. -/
theorem not_failsWith {failure : Failure} : ¬ command.FailsWith host s failure := by
  intro fails
  obtain ⟨_, ranToo, -⟩ := run_of_failsWith lawful fails
  cases ran.symm.trans ranToo

/-- So it is only what it has printed and written that is left to be told. -/
theorem of_ok (verbosity : Nat)
    (printed : command.output? = none →
      ∃ text s', command.Gives host s text s' ∧ view.Prints s text after)
    (written : ∀ path, command.output? = some path →
      ∃ text s', command.Gives host s text s' ∧ view.Writes s path text.toUTF8 after) :
    command.RunsAtomically host view verbosity s (.ofOutcome (.ok ())) after where
  failed_iff := ⟨fun failed => absurd rfl failed,
    fun ⟨_, fails⟩ => absurd fails (not_failsWith lawful ran)⟩
  failed failed := absurd rfl failed
  complaint _ fails := absurd fails (not_failsWith lawful ran)
  printed _ printing := printed printing
  written path _ named := by
    obtain ⟨text, s', gives, writes⟩ := written path named
    obtain ⟨givesToo, printing⟩ := gives.withoutOutput
    exact ⟨writes.printed_eq, text, Invocation.prints_of_gives lawful givesToo printing verbosity,
      writes.held, writes.others⟩

end Command.RunsAtomically

/-- On a lawful host a command does all that it is asked for, or it prints and writes nothing. -/
theorem Invocation.run_atomic (host : Host (StateM σ)) (view : View σ) (lawful : host.Lawful view)
    (s : σ) (command : Command) (verbosity : Nat) :
    ∃ report after,
      ((Invocation.command command verbosity).run host).run s = (report, after) ∧
      command.RunsAtomically host view verbosity s report after := by
  rcases command.fails_or_gives host s with ⟨failure, fails⟩ | ⟨text, s', gives⟩
  · obtain ⟨after, ran, same⟩ := Command.run_of_failsWith lawful fails
    exact ⟨_, after, run_command ran verbosity, .of_failsWith lawful fails ran same verbosity⟩
  · cases named : command.output? with
    | none =>
      obtain ⟨after, ran, prints⟩ := Command.printsOnly_of_gives lawful gives named
      refine ⟨_, after, run_command ran verbosity, .of_ok lawful ran verbosity ?_ ?_⟩
      · exact fun _ => ⟨text, s', gives, prints⟩
      · exact fun path other => nomatch named.symm.trans other
    | some path =>
      -- The text is complete, and only the write can still fail.
      rcases wrote : (host.write path text.toUTF8).run s' with ⟨error | ⟨⟨⟩⟩, after⟩
      · have fails := Command.FailsWith.unwritable gives named wrote
        obtain ⟨after, ran, same⟩ := Command.run_of_failsWith lawful fails
        exact ⟨_, after, run_command ran verbosity, .of_failsWith lawful fails ran same verbosity⟩
      · have ran := (Command.run_of_gives gives named).trans (Command.deliver_of_write wrote)
        have writes := (gives.same lawful).writes (lawful.write_ok _ _ _ _ wrote)
        refine ⟨_, after, run_command ran verbosity, .of_ok lawful ran verbosity ?_ ?_⟩
        · exact fun other => nomatch named.symm.trans other
        · rintro _ other
          cases named.symm.trans other
          exact ⟨text, s', gives, writes⟩

/-- A source of one name, which is drawn over itself, and a file that is no text. -/
def Store.letterAndNoText : Store := ⟨[("a", "a".toUTF8), ("b", ⟨#[0xff]⟩)], ""⟩

theorem Invocation.run_renderOverSource :
    Store.host.Lawful Store.view ∧
      (∃ report after,
        ((Invocation.command (.render "a" "tree" (some "a")) 0).run Store.host).run
          Store.letterAndNoText = (report, after) ∧
        report.exit = 0 ∧ after.file? "a" = some "ref a\n".toUTF8 ∧
        Command.RunsAtomically Store.host Store.view (.render "a" "tree" (some "a")) 0
          Store.letterAndNoText report after) ∧
      ∃ report after,
        ((Invocation.command (.tokens "b") 0).run Store.host).run
          Store.letterAndNoText = (report, after) ∧
        report.exit = 1 ∧
        Command.RunsAtomically Store.host Store.view (.tokens "b") 0
          Store.letterAndNoText report after := by
  have lawful := Store.lawful_host
  obtain ⟨report, after, ran, drawn⟩ := run_atomic Store.host Store.view lawful
    Store.letterAndNoText (.render "a" "tree" (some "a")) 0
  obtain ⟨other, behind, failed, refused⟩ := run_atomic Store.host Store.view lawful
    Store.letterAndNoText (.tokens "b") 0
  have gives : Command.Gives Store.host Store.letterAndNoText (.render "a" "tree" (some "a"))
      "ref a\n" Store.letterAndNoText :=
    .render rfl ⟨_, rfl, by decide⟩ parseSource_ofLetter_a rfl
  have wrote : (Store.host.write "a" "ref a\n".toUTF8).run Store.letterAndNoText =
      (.ok (), Store.letterAndNoText.put "a" "ref a\n".toUTF8) := rfl
  have done := (Command.run_of_gives gives rfl).trans (Command.deliver_of_write wrote)
  cases ran.symm.trans (run_command done 0)
  have fails : Command.FailsWith Store.host Store.letterAndNoText (.tokens "b")
      (.frontend (.file .notText)) :=
    .notText .tokens rfl (by decide)
  obtain ⟨_, stopped, -⟩ := Command.run_of_failsWith lawful fails
  cases failed.symm.trans (run_command stopped 0)
  exact ⟨lawful, ⟨_, _, ran, rfl, Store.file?_put _ _ _, drawn⟩, _, _, failed, rfl, refused⟩

end PipeScript
