import PipeScript.Proofs.Concatenation
import PipeScript.Proofs.Draining
import PipeScript.Proofs.Totality

/-!
# The log of a source

A parser eats the tokens in the order in which they stand, and each of them once: what it has
eaten up to a token is every token before that one, each with the next one in view
(`Parse.Reads.runFrom_append_along`). So a run over a buffer eats all tokens but the end of the
input, or all tokens before the one that it refuses.

The records themselves are written one by one. A lexer that fills a buffer writes what a scan
collects (`Lexer.fill_eq`), and the procedures of the parser write a record with each token that the
cursor has moved over, and one at the end (`Descent.log_of_parse_ok`, `Descent.log_of_parse_error`).

`LogRecord.Traces` says which logs a source has, with the texts written out, from what its lexer
gives and from how the parse of its buffer ends.
-/

namespace PipeScript

/-! ## What a lexer writes -/

namespace Lexer

/-- A lexer gives the same whenever it is asked. -/
theorem Yields.unique {lexer : Lexer} {ts us : List Token} {final other : Except LexError Token}
    (yields : lexer.Yields ts final) (again : lexer.Yields us other) :
    ts = us ∧ final = other := by
  induction yields generalizing us with
  | done answer last =>
    cases again with
    | done answerToo _ => exact ⟨rfl, answer.symm.trans answerToo⟩
    | more answerToo kind _ =>
      cases answer.symm.trans answerToo
      exact absurd (of_decide_eq_true last) kind
  | more answer kind _ ih =>
    cases again with
    | done answerToo last =>
      cases answer.symm.trans answerToo
      exact absurd (of_decide_eq_true last) kind
    | more answerToo _ others =>
      cases answer.symm.trans answerToo
      obtain ⟨rfl, rfl⟩ := ih others
      exact ⟨rfl, rfl⟩

/-- What is logged of a scan: its tokens, and how many they are if they are all. -/
def Scan.log (scan : Scan) : List LogRecord :=
  scan.tokens.map .lexed ++
    match scan.stop with
    | .finished _ _ => [.tokenized (scan.tokens.length + 1)]
    | .failed _ => []

section Filling

variable {lexer behind : Lexer} {read : List Token}
  (kinds : ∀ t ∈ read, t.kind ≠ .endOfInput) (log : Array LogRecord)

theorem fillFrom_of_error {e : LexError} (answer : lexer.nextToken = (.error e, behind)) :
    lexer.fillFrom read kinds log = (.error e, log) := by
  have logged : lexer.nextLogged log = (.error e, behind, log) := by rw [nextLogged, answer]
  rw [fillFrom]
  split <;> rename_i found <;> cases logged.symm.trans found
  rfl

theorem fillFrom_of_last {t : Token} (answer : lexer.nextToken = (.ok t, behind))
    (last : t.kind = .endOfInput) :
    lexer.fillFrom read kinds log =
      (.ok ⟨read.reverse, t, by simpa using kinds, last⟩,
        log.push (.tokenized (read.length + 1))) := by
  have logged : lexer.nextLogged log = (.ok t, behind, log) := by
    rw [nextLogged, answer]
    exact congrArg (fun after => (_, _, after)) (if_pos last)
  rw [fillFrom]
  split <;> rename_i found <;> cases logged.symm.trans found
  rw [dif_pos last]
  simp [TokenBuffer.size]

theorem fillFrom_of_more {t : Token} (answer : lexer.nextToken = (.ok t, behind))
    (more : t.kind ≠ .endOfInput) :
    lexer.fillFrom read kinds log =
      behind.fillFrom (t :: read) (List.forall_mem_cons.mpr ⟨more, kinds⟩)
        (log.push (.lexed t)) := by
  have logged : lexer.nextLogged log = (.ok t, behind, log.push (.lexed t)) := by
    rw [nextLogged, answer]
    exact congrArg (fun after => (_, _, after)) (if_neg more)
  rw [fillFrom]
  split <;> rename_i found <;> cases logged.symm.trans found
  rw [dif_neg more]

end Filling

/-- Filling a buffer is a scan, if what has been read so far is what has been logged. -/
theorem fillFrom_eq (lexer : Lexer) (read : List Token)
    (kinds : ∀ t ∈ read, t.kind ≠ .endOfInput) :
    lexer.fillFrom read kinds (read.reverse.map LogRecord.lexed).toArray =
      (TokenBuffer.ofScan (lexer.scanFrom read kinds),
        (lexer.scanFrom read kinds).log.toArray) := by
  induction lexer, read, kinds using scanFrom.induct with
  | case1 lexer read kinds e behind answer =>
    rw [fillFrom_of_error kinds _ answer, scanFrom_of_error kinds answer, Scan.log, List.append_nil]
    rfl
  | case2 lexer read kinds t behind answer last =>
    rw [fillFrom_of_last kinds _ answer last, scanFrom_of_last kinds answer last, Scan.log,
      List.push_toArray, List.length_reverse]
    rfl
  | case3 lexer read kinds t behind answer more ih =>
    rw [fillFrom_of_more kinds _ answer more, scanFrom_of_more kinds answer more, ← ih,
      List.push_toArray, List.reverse_cons, List.map_append]
    rfl

theorem fill_eq (lexer : Lexer) :
    lexer.fill = (TokenBuffer.ofLexer lexer, lexer.scan.log.toArray) :=
  lexer.fillFrom_eq [] (by simp)

/-- A lexer that fills a buffer writes the tokens of the buffer, and how many they are. -/
theorem fill_of_ok {lexer : Lexer} {buffer : TokenBuffer}
    (filled : TokenBuffer.ofLexer lexer = .ok buffer) :
    lexer.fill = (.ok buffer,
      (buffer.body.map LogRecord.lexed ++ [LogRecord.tokenized buffer.size]).toArray) := by
  rw [fill_eq, filled]
  rw [TokenBuffer.ofLexer, TokenBuffer.ofScan] at filled
  split at filled
  · rename_i stop
    cases filled
    rw [Scan.log, stop]
    rfl
  · cases filled

/-- A lexer that comes to a stray character writes the tokens before it. -/
theorem fill_of_error {lexer : Lexer} {e : LexError}
    (failed : TokenBuffer.ofLexer lexer = .error e) :
    ∃ ts, lexer.Yields ts (.error e) ∧
      lexer.fill = (.error e, (ts.map LogRecord.lexed).toArray) := by
  rw [fill_eq, failed]
  rw [TokenBuffer.ofLexer, TokenBuffer.ofScan] at failed
  split at failed
  · cases failed
  · rename_i stop
    cases failed
    have yields := lexer.yields_scan
    rw [stop] at yields
    refine ⟨lexer.scan.tokens, yields, ?_⟩
    rw [Scan.log, stop, List.append_nil]

end Lexer

/-! ## What a run eats -/

/-- The tokens of a list, each with the next one. The last one is not eaten. -/
def Advance.along (ts : List Token) : List Advance := List.zipWith Advance.mk ts ts.tail

theorem Advance.map_eaten_along (ts : List Token) :
    (along ts).map eaten = ts.dropLast := by
  induction ts with
  | nil => rfl
  | cons t ts ih =>
    cases ts with
    | nil => rfl
    | cons u us => exact congrArg (t :: ·) ih

namespace Parse

variable {t : Token} {ts : List Token} {c c' : Control} {d d' : Draft}

/-- A run over tokens that are read eats them one by one, each with the next one in view. -/
theorem Reads.runFrom_append_along (read : Reads ts c d c' d') (advances : Array Advance)
    (t : Token) (rest : List Token) :
    runFrom c d advances (ts ++ t :: rest) =
      runFrom c' d' (advances ++ (Advance.along (ts ++ [t])).toArray) (t :: rest) := by
  induction read generalizing advances with
  | refl => simp [Advance.along]
  | @step u ts c c' c'' d d' d'' taken _ ih =>
    have next : (ts ++ t :: rest).headD u = (ts ++ [t]).headD u := by cases ts <;> rfl
    have first : Advance.along (u :: ts ++ [t]) =
        ⟨u, (ts ++ [t]).headD u⟩ :: Advance.along (ts ++ [t]) := by cases ts <;> rfl
    rw [List.cons_append, runFrom, taken]
    refine (ih _).trans ?_
    rw [next, first]
    congr 1
    simp

end Parse

namespace TokenBuffer

open Parse

variable {buffer : TokenBuffer}

/-- A parse that gives a tree has eaten all tokens but the end of the input. -/
theorem run_of_parse_ok {tree : Tree} (parsed : buffer.parse = .ok tree) :
    ∃ d, run buffer.tokens = ⟨.accepted tree.root, d, (Advance.along buffer.tokens).toArray⟩ ∧
      d.size = tree.size := by
  obtain ⟨program, written, root, nodes⟩ := exists_layout parsed
  obtain ⟨c, d, d', read, taken, holds⟩ := program.reads_layout buffer.last_kind
  have tokens : buffer.tokens = program.tokens ++ [buffer.last] := by
    rw [written, TokenBuffer.tokens]
  refine ⟨d', ?_, ?_⟩
  · rw [run, tokens, read.runFrom_append_along, runFrom, taken, root, program.root_statements]
    simp
  · rw [holds.size_eq, ← nodes]
    rfl

/-- A parse that fails has eaten all tokens before the one that the error is about. -/
theorem run_of_parse_error {e : ParseError} (failed : buffer.parse = .error e) :
    ∃ p t d, buffer.tokens[p]? = some t ∧ buffer.BreaksAt p ∧
      e = diagnose (buffer.tokens.take p) t ∧
      run buffer.tokens =
        ⟨.rejected e, d, (Advance.along (buffer.tokens.take (p + 1))).toArray⟩ := by
  obtain ⟨before, t, after, c, d, d', split, read, refused⟩ := exists_refused failed
  refine ⟨before.length, t, d', getElem?_of_split split, breaksAt_of_reads split read refused,
    ?_, ?_⟩
  · rw [take_of_split split]
    exact read.eq_diagnose refused
  · rw [run, take_succ_of_split split, split, read.runFrom_append_along, runFrom, refused]
    simp

end TokenBuffer

/-! ## What the procedures write -/

namespace Descent

variable {buffer : TokenBuffer}

theorem log_of_run {result : Except Stop NodeId} {s : State}
    (done : run (program buffer.tokens (depthFor buffer)) .start = some (result, s)) :
    log buffer = s.log.toList := by
  rw [log, done]

/-- The procedures write that they start, each token that the parser eats, and how many nodes its
tree has. -/
theorem log_of_parse_ok {tree : Tree} (parsed : buffer.parse = .ok tree) :
    log buffer =
      State.logThrough buffer.tokens (Advance.along buffer.tokens) ++ [.parsed tree.size] := by
  obtain ⟨d, run, size⟩ := TokenBuffer.run_of_parse_ok parsed
  -- The procedures come to the end of the same run, so they cannot have refused a token.
  obtain ⟨_, -, ⟨root, done, s, t, rest, rfl, stands, accepted⟩ |
    ⟨_, _, t, rest, -, -, rejected⟩⟩ := ends_program (Nat.le_refl (9 * buffer.size))
  · injection run.symm.trans accepted with _ draft eaten
    rw [log_of_run done, State.log_emit, Array.toList_push, stands.logged, ← eaten, ← draft, size]
  · cases congrArg Run.outcome (run.symm.trans rejected)

/-- If there is no tree, the last that they write is the token that the parser refuses. -/
theorem log_of_parse_error {e : ParseError} (failed : buffer.parse = .error e) {p : Nat}
    (breaks : buffer.BreaksAt p) :
    ∃ production t expected, e = .unexpected production t expected ∧
      log buffer =
        State.logThrough buffer.tokens (Advance.along (buffer.tokens.take (p + 1))) ++
          [.failed production t] := by
  obtain ⟨q, u, d, -, breaksToo, -, run⟩ := TokenBuffer.run_of_parse_error failed
  cases breaksToo.unique breaks
  obtain ⟨s, -, ⟨root, -, s, t, rest, -, -, accepted⟩ |
    ⟨production, expected, t, rest, stopped, stands, rejected⟩⟩ :=
      ends_program (Nat.le_refl (9 * buffer.size))
  · cases congrArg Run.outcome (run.symm.trans accepted)
  · injection run.symm.trans rejected with outcome _ eaten
    refine ⟨production, t, expected, Outcome.rejected.inj outcome, ?_⟩
    rw [log_of_run stopped, State.log_emit, Array.toList_push, stands.logged, ← eaten]

end Descent

/-! ## Logs -/

namespace LogRecord

/-- What is written of a token that was read. -/
def lineOfRead (t : Token) : LogLevel × String :=
  (.trace,
    "lexed " ++ t.display ++ " at " ++ toString t.span.line ++ ":" ++ toString t.span.column)

/-- What is written of tokens that were eaten, each with the next one in view. Of the last one
there is nothing. -/
def linesOfEaten (ts : List Token) : List (LogLevel × String) :=
  List.zipWith (fun t next => (.trace, "ate " ++ t.display ++ ", got " ++ next.display)) ts ts.tail

/-- What is written once a source has been read to its end: its tokens, how many they are, and
what the parser has eaten of them. -/
def linesThrough (buffer : TokenBuffer) (seen : List Token) : List (LogLevel × String) :=
  buffer.body.map lineOfRead ++
    [(.debug, "tokenized " ++ toString buffer.tokens.length ++ " tokens"),
      (.debug, "parsing " ++ toString buffer.tokens.length ++ " tokens")] ++ linesOfEaten seen

/-- The words for the parts of the grammar. -/
def productionWords : List (Production × String) :=
  [(.program, "program"), (.statement, "statement"), (.call, "call"), (.primary, "primary"),
    (.function, "function")]

/-- The logs of a source. -/
inductive Traces (source : String) : List (LogLevel × String) → Prop
  /-- Where a character is no part of a token, there are the tokens before it and nothing else. -/
  | stray {ts : List Token} {e : LexError} : TokenBuffer.ofSource source = .error e →
    parseSource source = .error (.lex e) → (Lexer.ofSource source).Yields ts (.error e) →
    Traces source (ts.map lineOfRead)
  /-- A program is eaten up to the end of the input, and the nodes of its tree are counted. -/
  | program {buffer : TokenBuffer} {tree : Tree} : TokenBuffer.ofSource source = .ok buffer →
    buffer.parse = .ok tree → parseSource source = .ok tree →
    (Parse.run buffer.tokens).advances.toList.map Advance.eaten = buffer.body →
    Traces source (linesThrough buffer buffer.tokens ++
      [(.debug, "parsed " ++ toString tree.size ++ " nodes")])
  /-- What is no program is eaten up to the token that breaks it, and the error is the last word. -/
  | refused {buffer : TokenBuffer} {e : ParseError} {p : Nat} {t : Token} {word : String} :
    TokenBuffer.ofSource source = .ok buffer → buffer.parse = .error e →
    parseSource source = .error (.parse e) → buffer.tokens[p]? = some t → buffer.BreaksAt p →
    e.line = t.line → e.found = t.display →
    (Parse.run buffer.tokens).advances.toList.map Advance.eaten = buffer.tokens.take p →
    (e.production, word) ∈ productionWords →
    Traces source (linesThrough buffer (buffer.tokens.take (p + 1)) ++
      [(.debug, word ++ " failed at line " ++ toString e.line ++ " on " ++ e.found)])

/-- There is one word for a part of the grammar. -/
theorem mem_productionWords {production : Production} {word : String} :
    (production, word) ∈ productionWords ↔ word = production.name := by
  cases production <;> simp [productionWords, Production.name]

theorem map_line_lexed (ts : List Token) : (ts.map lexed).map line = ts.map lineOfRead :=
  List.map_map

theorem map_line_logThrough (tokens eaten : List Token) :
    (Descent.State.logThrough tokens (Advance.along eaten)).map line =
      (.debug, "parsing " ++ toString tokens.length ++ " tokens") :: linesOfEaten eaten := by
  rw [Descent.State.logThrough, Advance.along, List.map_zipWith, List.map_cons, List.map_zipWith]
  rfl

/-- The log of a source whose tokens were read consists of both stages. -/
theorem ofSource_of_ok {source : String} {buffer : TokenBuffer}
    (filled : TokenBuffer.ofSource source = .ok buffer) {eaten : List Token} {last : LogRecord}
    (parse : Descent.log buffer =
      Descent.State.logThrough buffer.tokens (Advance.along eaten) ++ [last]) :
    (ofSource source).map line = linesThrough buffer eaten ++ [last.line] := by
  have written : ofSource source =
      (buffer.body.map lexed ++ [tokenized buffer.size]) ++ Descent.log buffer := by
    rw [ofSource, Lexer.fill_of_ok filled]
  rw [written, parse, linesThrough, ← buffer.length_tokens]
  simp only [List.map_append, map_line_lexed, map_line_logThrough, List.append_assoc]
  rfl

/-- The log of a source with a stray character has the tokens before it. -/
theorem ofSource_of_error {source : String} {e : LexError}
    (failed : TokenBuffer.ofSource source = .error e) :
    ∃ ts, (Lexer.ofSource source).Yields ts (.error e) ∧
      (ofSource source).map line = ts.map lineOfRead := by
  obtain ⟨ts, yields, filled⟩ := Lexer.fill_of_error failed
  refine ⟨ts, yields, ?_⟩
  rw [ofSource, filled]
  exact map_line_lexed ts

/-- A log is determined by the source. -/
theorem Traces.eq {source : String} {log : List (LogLevel × String)} (traces : Traces source log) :
    log = (ofSource source).map line := by
  cases traces with
  | stray failed _ yields =>
    obtain ⟨ts, yieldsToo, written⟩ := ofSource_of_error failed
    rw [written, (yields.unique yieldsToo).1]
  | program filled parsed _ _ =>
    rw [ofSource_of_ok filled (Descent.log_of_parse_ok parsed)]
    rfl
  | refused filled refused _ _ breaks _ _ _ named =>
    obtain ⟨production, t, expected, rfl, written⟩ := Descent.log_of_parse_error refused breaks
    rw [ofSource_of_ok filled written, mem_productionWords.mp named]
    rfl

/-- The log of a source is a trace of it, and there is no other. -/
theorem traces_iff (source : String) (log : List (LogLevel × String)) :
    Traces source log ↔ log = (ofSource source).map line := by
  refine ⟨Traces.eq, ?_⟩
  rintro rfl
  cases lexed : TokenBuffer.ofSource source with
  | error e =>
    obtain ⟨ts, yields, -⟩ := ofSource_of_error lexed
    have traces := Traces.stray lexed (parseSource_of_lex_error lexed) yields
    exact traces.eq ▸ traces
  | ok buffer =>
    cases parse : buffer.parse with
    | ok tree =>
      obtain ⟨d, run, -⟩ := TokenBuffer.run_of_parse_ok parse
      have traces := Traces.program lexed parse (parseSource_eq_ok.mpr ⟨buffer, lexed, parse⟩) <| by
        rw [run, List.toList_toArray, Advance.map_eaten_along, TokenBuffer.tokens,
          List.dropLast_concat]
      exact traces.eq ▸ traces
    | error e =>
      obtain ⟨p, t, d, atToken, breaks, said, run⟩ := TokenBuffer.run_of_parse_error parse
      have eaten : (Parse.run buffer.tokens).advances.toList.map Advance.eaten =
          buffer.tokens.take p := by
        rw [run, List.toList_toArray, Advance.map_eaten_along, List.take_add_one, atToken]
        exact List.dropLast_concat
      have traces := Traces.refused lexed parse
        (parseSource_eq_parse_error.mpr ⟨buffer, lexed, parse⟩) atToken breaks
        (congrArg ParseError.line said) (congrArg ParseError.found said) eaten
        (mem_productionWords.mpr rfl)
      exact traces.eq ▸ traces

end LogRecord

end PipeScript
