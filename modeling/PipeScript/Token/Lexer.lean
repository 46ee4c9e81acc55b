import PipeScript.Diagnostic

/-!
Reading tokens off a source text.

A `Lexer` holds what is left of the text and the place it has reached. Each
read skips blanks and takes what stands at the head of the rest (`Munch`): a run
of digits, a word, an operator or bracket, or a stray character, which is
consumed and reported. So every read before the end moves forward
(`nextToken_progress`), and reading can go on behind an error.

`nextToken` reads on for ever, giving the end of the input again and again.
`next?` is the same until it has given the end or an error, and nothing from
then on. `scan` reads up to whichever of the two comes first.
-/

namespace PipeScript

/-! ## Characters -/

/-- The characters between tokens. -/
def isBlank (c : Char) : Bool := c = ' ' ∨ c = '\t' ∨ c = '\r' ∨ c = '\n'

/-- The ASCII digits. -/
def isDigit (c : Char) : Bool := '0' ≤ c ∧ c ≤ '9'

/-- Words start with an ASCII letter or an underscore. -/
def isWordStart (c : Char) : Bool := ('a' ≤ c ∧ c ≤ 'z') ∨ ('A' ≤ c ∧ c ≤ 'Z') ∨ c = '_'

/-- Words go on with digits, too. -/
def isWordPart (c : Char) : Bool := isWordStart c || isDigit c

/-- The number that a run of digits spells. -/
def digitsValue (digits : List Char) : Nat :=
  digits.foldl (fun n c => 10 * n + (c.toNat - '0'.toNat)) 0

/-! ## The head of a text -/

/-- The kind of operator or bracket that a character opens, with the character
behind it in view. Two-character operators come first. -/
def operator? (c : Char) (next : Option Char) : Option Kind :=
  match c, next with
  | '|', some '>' => some .pipe
  | '-', some '>' => some .arrow
  | '=', some '=' => some .equality
  | '=', _ => some .assign
  | '{', _ => some .leftBrace
  | '}', _ => some .rightBrace
  | '(', _ => some .leftParen
  | ')', _ => some .rightParen
  | _, _ => none

/-- What stands at the head of a text that does not start with a blank. -/
inductive Munch
  | nothing
  | lexeme (kind : Kind) (chars : List Char)
  | stray (c : Char)

/-- The longest lexeme at the head of a text. -/
def munch : List Char → Munch
  | [] => .nothing
  | c :: rest =>
    if isDigit c then
      .lexeme .number (c :: rest.takeWhile isDigit)
    else if isWordStart c then
      let word := c :: rest.takeWhile isWordPart
      .lexeme (Kind.ofWord word) word
    else
      match operator? c rest.head? with
      | some kind => .lexeme kind kind.spelling
      | none => .stray c

/-- Operators and brackets are written somehow. -/
theorem operator?_spelling {c : Char} {next : Option Char} {kind : Kind}
    (h : operator? c next = some kind) : kind ≠ .endOfInput ∧ kind.spelling ≠ [] := by
  unfold operator? at h
  split at h <;> cases h <;> decide

/-- A word is not the end of the input. -/
theorem Kind.ofWord_ne_endOfInput (word : List Char) : Kind.ofWord word ≠ .endOfInput := by
  unfold Kind.ofWord
  split <;> decide

/-- A lexeme is never the end of the input, and never empty. -/
theorem munch_lexeme {text chars : List Char} {kind : Kind} (h : munch text = .lexeme kind chars) :
    kind ≠ .endOfInput ∧ chars ≠ [] ∧ text ≠ [] := by
  cases text with
  | nil => simp [munch] at h
  | cons c rest =>
    simp only [munch] at h
    split at h
    · cases h
      exact ⟨by decide, by simp, by simp⟩
    · split at h
      · cases h
        exact ⟨Kind.ofWord_ne_endOfInput _, by simp, by simp⟩
      · split at h
        · rename_i found
          cases h
          have := operator?_spelling found
          exact ⟨this.1, this.2, by simp⟩
        · cases h

/-- The end of the input is read only where nothing is left. -/
theorem munch_eq_nothing {text : List Char} : munch text = .nothing ↔ text = [] := by
  cases text with
  | nil => simp [munch]
  | cons c rest =>
    simp only [munch]
    split
    · simp
    · split
      · simp
      · split <;> simp

/-- The value of a lexeme: of a number its nearest floating point value, of an
identifier its text. -/
def Literal.ofLexeme (kind : Kind) (chars : List Char) : Literal :=
  match kind with
  | .number => .number (Binary64.ofNat (digitsValue chars))
  | .identifier => .text (String.ofList chars)
  | _ => .none

namespace Token

/-- The token of a lexeme at a place. -/
def ofLexeme (kind : Kind) (chars : List Char) (place : Position) : Token where
  kind := kind
  span := .ofPosition place (byteLength chars)
  lexeme := String.ofList chars
  value := .ofLexeme kind chars

/-- The token behind the last lexeme. -/
def endAt (place : Position) : Token := ofLexeme .endOfInput [] place

end Token

/-! ## The lexer -/

/-- A source text in the course of being read. -/
structure Lexer where
  /-- What is left to read. -/
  rest : List Char
  /-- Where that starts. -/
  place : Position
  /-- Whether `next?` has given the end or an error. -/
  stopped : Bool

namespace Lexer

/-- A lexer at the start of a text. -/
def ofSource (source : String) : Lexer := ⟨source.toList, .origin, false⟩

/-- The lexer behind some characters at the head of its rest. -/
def skip (lexer : Lexer) (chars : List Char) : Lexer :=
  { lexer with rest := lexer.rest.drop chars.length, place := lexer.place.advance chars }

/-- The lexer behind the blanks at the head of its rest. -/
def skipBlanks (lexer : Lexer) : Lexer := lexer.skip (lexer.rest.takeWhile isBlank)

/-- Reads one token, or the error of a stray character. -/
def nextToken (lexer : Lexer) : Except LexError Token × Lexer :=
  let lexer := lexer.skipBlanks
  match munch lexer.rest with
  | .nothing => (.ok (.endAt lexer.place), lexer)
  | .lexeme kind chars => (.ok (.ofLexeme kind chars lexer.place), lexer.skip chars)
  | .stray c => (.error ⟨c, lexer.place.line⟩, lexer.skip [c])

/-- Whether an answer ends an iteration: an error does, and the end of the input. -/
def isLast : Except LexError Token → Bool
  | .ok t => t.kind = .endOfInput
  | .error _ => true

/-- Reads the next item of an iteration. -/
def next? (lexer : Lexer) : Option (Except LexError Token) × Lexer :=
  if lexer.stopped then
    (none, lexer)
  else
    let (answer, lexer) := lexer.nextToken
    (some answer, { lexer with stopped := isLast answer })

/-! ## Progress -/

@[simp] theorem rest_skip (lexer : Lexer) (chars : List Char) :
    (lexer.skip chars).rest = lexer.rest.drop chars.length := rfl

theorem rest_skipBlanks (lexer : Lexer) :
    lexer.skipBlanks.rest = lexer.rest.dropWhile isBlank :=
  (congrArg (List.drop _) List.takeWhile_append_dropWhile.symm).trans List.drop_left

theorem length_rest_skipBlanks_le (lexer : Lexer) :
    lexer.skipBlanks.rest.length ≤ lexer.rest.length := by
  simp [skipBlanks]

/-- A read that does not give the end of the input leaves less to read. -/
theorem nextToken_progress (lexer : Lexer)
    (h : ∀ t, lexer.nextToken.1 = .ok t → t.kind ≠ .endOfInput) :
    lexer.nextToken.2.rest.length < lexer.rest.length := by
  have blanks := lexer.length_rest_skipBlanks_le
  unfold nextToken at h ⊢
  dsimp only at h ⊢
  split
  · rename_i nothing
    simp [nothing, Token.endAt, Token.ofLexeme] at h
  · rename_i kind chars lexeme
    obtain ⟨_, chars_ne, rest_ne⟩ := munch_lexeme lexeme
    have := List.length_pos_iff.2 chars_ne
    have := List.length_pos_iff.2 rest_ne
    simp only [rest_skip, List.length_drop]
    omega
  · rename_i c stray
    have : lexer.skipBlanks.rest ≠ [] := by
      intro empty
      simp [munch_eq_nothing.2 empty] at stray
    have := List.length_pos_iff.2 this
    simp only [rest_skip, List.length_drop, List.length_singleton]
    omega

/-! ## Reading on to the end -/

/-- What ends a scan. -/
inductive Stop
  | finished (last : Token) (last_kind : last.kind = .endOfInput)
  | failed (error : LexError)

/-- Some tokens before the end of the input, what came behind them, and the
lexer behind that. -/
structure Scan where
  tokens : List Token
  tokens_kind : ∀ t ∈ tokens, t.kind ≠ .endOfInput
  stop : Stop
  lexer : Lexer

/-- Reads on behind some tokens, the latest first. -/
def scanFrom (lexer : Lexer) (read : List Token) (read_kind : ∀ t ∈ read, t.kind ≠ .endOfInput) :
    Scan :=
  match answer : lexer.nextToken with
  | (.error error, behind) =>
    ⟨read.reverse, by simpa using read_kind, .failed error, behind⟩
  | (.ok t, behind) =>
    if last : t.kind = .endOfInput then
      ⟨read.reverse, by simpa using read_kind, .finished t last, behind⟩
    else
      scanFrom behind (t :: read) (by simpa using ⟨last, read_kind⟩)
termination_by lexer.rest.length
decreasing_by
  have progress := lexer.nextToken_progress (by
    intro u found
    rw [answer] at found
    cases found
    exact last)
  simpa [answer] using progress

section Steps

variable {lexer behind : Lexer} {read : List Token}
  (read_kind : ∀ t ∈ read, t.kind ≠ .endOfInput)

theorem scanFrom_of_error {error : LexError} (answer : lexer.nextToken = (.error error, behind)) :
    lexer.scanFrom read read_kind =
      ⟨read.reverse, by simpa using read_kind, .failed error, behind⟩ := by
  rw [scanFrom]
  split <;> rename_i found <;> cases answer.symm.trans found
  rfl

theorem scanFrom_of_last {t : Token} (answer : lexer.nextToken = (.ok t, behind))
    (last : t.kind = .endOfInput) :
    lexer.scanFrom read read_kind =
      ⟨read.reverse, by simpa using read_kind, .finished t last, behind⟩ := by
  rw [scanFrom]
  split <;> rename_i found <;> cases answer.symm.trans found
  rw [dif_pos last]

theorem scanFrom_of_more {t : Token} (answer : lexer.nextToken = (.ok t, behind))
    (more : t.kind ≠ .endOfInput) :
    lexer.scanFrom read read_kind =
      behind.scanFrom (t :: read) (List.forall_mem_cons.mpr ⟨more, read_kind⟩) := by
  rw [scanFrom]
  split <;> rename_i found <;> cases answer.symm.trans found
  rw [dif_neg more]

end Steps

/-- Reads all tokens up to the end of the input or the first error. -/
def scan (lexer : Lexer) : Scan := lexer.scanFrom [] (by simp)

/-- What ends a scan, as the answer of a single read. -/
def Stop.answer : Stop → Except LexError Token
  | .finished last _ => .ok last
  | .failed error => .error error

/-- The items that are left in an iteration. -/
def items (lexer : Lexer) : List (Except LexError Token) :=
  if lexer.stopped then
    []
  else
    let scan := lexer.scan
    scan.tokens.map .ok ++ [scan.stop.answer]

end Lexer

end PipeScript
