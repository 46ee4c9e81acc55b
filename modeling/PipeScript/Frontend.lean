import PipeScript.Parse.Descent
import PipeScript.Parse.Run

/-!
From a source text to its tree, and the log of the way there.

Reading the tokens comes first, to the end of the source. So the first stray
character is reported even where a token before it fits no program.

The log is written as things happen: a lexer logs each token that it gives, a
buffer how many tokens it holds once it is full, and the procedures of the
parser what they eat, refuse and complete.
-/

namespace PipeScript

/-- The tree of a source, or what keeps the source from having one. -/
def parseSource (source : String) : Except FrontendError Tree := do
  let buffer ← (TokenBuffer.ofSource source).mapError .lex
  buffer.parse.mapError .parse

/-! ## Reading tokens with a log -/

namespace Lexer

/-- Reads one token behind a log. Every token is logged but the end of the
input, and no stray character is. -/
def nextLogged (lexer : Lexer) (log : Array LogRecord) :
    Except LexError Token × Lexer × Array LogRecord :=
  match lexer.nextToken with
  | (.ok t, behind) =>
    (.ok t, behind, if t.kind = .endOfInput then log else log.push (.lexed t))
  | (.error error, behind) => (.error error, behind, log)

theorem nextLogged_eq (lexer : Lexer) (log : Array LogRecord) :
    (lexer.nextLogged log).1 = lexer.nextToken.1 ∧
      (lexer.nextLogged log).2.1 = lexer.nextToken.2 := by
  unfold nextLogged
  split <;> rename_i answer <;> rw [answer] <;> exact ⟨rfl, rfl⟩

/-- Fills a buffer behind some tokens, the latest first. A buffer that is full
is logged. -/
def fillFrom (lexer : Lexer) (read : List Token) (read_kind : ∀ t ∈ read, t.kind ≠ .endOfInput)
    (log : Array LogRecord) : Except LexError TokenBuffer × Array LogRecord :=
  match answer : lexer.nextLogged log with
  | (.error error, _, after) => (.error error, after)
  | (.ok t, behind, after) =>
    if last : t.kind = .endOfInput then
      let buffer : TokenBuffer := ⟨read.reverse, t, by simpa using read_kind, last⟩
      (.ok buffer, after.push (.tokenized buffer.size))
    else
      behind.fillFrom (t :: read) (by simpa using ⟨last, read_kind⟩) after
termination_by lexer.rest.length
decreasing_by
  obtain ⟨given, left⟩ := lexer.nextLogged_eq log
  rw [answer] at given left
  have progress := lexer.nextToken_progress (by
    intro u found
    cases given.trans found
    exact last)
  rwa [← left] at progress

/-- Fills a buffer with the tokens that a lexer has left. -/
def fill (lexer : Lexer) : Except LexError TokenBuffer × Array LogRecord :=
  lexer.fillFrom [] (List.forall_mem_nil _) #[]

end Lexer

/-! ## Logs of sources -/

/-- The log of parsing a source. -/
def LogRecord.ofSource (source : String) : List LogRecord :=
  match (Lexer.ofSource source).fill with
  | (.error _, log) => log.toList
  | (.ok buffer, log) => log.toList ++ Descent.log buffer

end PipeScript
