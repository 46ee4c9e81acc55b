import PipeScript.Token.Lexer

/-!
Token buffers: all tokens of a source, closed by the end of the input.

The type says what a parser relies on: the last token is the end of the input,
and no other is. `ofLexer` collects what a lexer has left, and gives the first
error instead if there is one.
-/

namespace PipeScript

/-- The tokens of a source. Exactly the last one is the end of the input. -/
structure TokenBuffer where
  body : List Token
  last : Token
  body_kind : ∀ t ∈ body, t.kind ≠ .endOfInput
  last_kind : last.kind = .endOfInput
deriving DecidableEq

namespace TokenBuffer

/-- All tokens, the end of the input included. -/
def tokens (buffer : TokenBuffer) : List Token := buffer.body ++ [buffer.last]

/-- How many tokens there are, the end of the input included. -/
def size (buffer : TokenBuffer) : Nat := buffer.body.length + 1

@[simp] theorem length_tokens (buffer : TokenBuffer) : buffer.tokens.length = buffer.size := by
  simp [tokens, size]

/-- The buffer that a scan has filled, or the error that ended it. -/
def ofScan (scan : Lexer.Scan) : Except LexError TokenBuffer :=
  match scan.stop with
  | .finished last last_kind => .ok ⟨scan.tokens, last, scan.tokens_kind, last_kind⟩
  | .failed error => .error error

/-- Collects the tokens that a lexer has left. -/
def ofLexer (lexer : Lexer) : Except LexError TokenBuffer := ofScan lexer.scan

/-- The tokens of a source, or its first lexical error. -/
def ofSource (source : String) : Except LexError TokenBuffer := ofLexer (.ofSource source)

end TokenBuffer

end PipeScript
