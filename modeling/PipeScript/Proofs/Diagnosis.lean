import PipeScript.Proofs.Viability

/-!
# What an error says

The error of a parse can be told without a parser. `diagnosis` reads the tokens before the
one that fits no program with a stack of open brackets and looks back by two tokens: behind
`let` a symbol is missing, behind a symbol that is being defined `=`, and behind `=`, `|>` and
`(` an expression. Anywhere else it is the innermost open bracket that counts.

A control of the parser agrees with such a reading if it knows the same open brackets and asks
for the same behind the last token (`Control.brackets`, `Control.asks`). A step keeps this, and
where it refuses its token it says what the diagnosis says (`Parse.step_agrees`). So does a
whole parse (`TokenBuffer.parse_error_diagnosedAt`), and what follows the token changes nothing.
-/

namespace PipeScript

/-! ## Reading with a stack -/

/-- The open brackets behind one more token, the innermost first. -/
def turnBrackets (stack : List Kind) : Kind → List Kind
  | .leftBrace => .leftBrace :: stack
  | .leftParen => .leftParen :: stack
  | .rightBrace | .rightParen => stack.tail
  | _ => stack

/-- The brackets that some tokens leave open, the innermost first. -/
def openBrackets (before : List Kind) : List Kind := before.foldl turnBrackets []

/-- The part of the grammar that is broken off behind some tokens and what it asks for, where
the last two tokens decide it. They are given the latest first. -/
def askedBehind : List Kind → Option (Production × String)
  | .letKeyword :: _ => some (.statement, "symbol")
  | .identifier :: .letKeyword :: _ => some (.statement, "'='")
  | .assign :: _ | .pipe :: _ | .leftParen :: _ => some (.primary, "expression")
  | _ => none

/-- The same where the innermost open bracket decides it, for a token that does not fit. -/
def askedWithin : List Kind → Kind → Production × String
  | .leftParen :: _, _ => (.call, "')'")
  | .leftBrace :: _, k =>
    if k = .endOfInput then (.function, "'\x7d'") else (.primary, "expression")
  | _, k => if k = .rightBrace then (.program, "end of input") else (.primary, "expression")

/-- What the error about a token says, from the kinds before it and its own. -/
def diagnosis (before : List Kind) (k : Kind) : Production × String :=
  (askedBehind before.reverse).getD (askedWithin (openBrackets before) k)

/-- The error about a token, from the tokens before it. -/
def diagnose (before : List Token) (t : Token) : ParseError :=
  let asked := diagnosis (before.map Token.kind) t.kind
  .unexpected asked.1 t asked.2

/-! ## Controls and readings -/

/-- The brackets that are open around an expression. -/
def Context.brackets : Context → List Kind
  | program _ _ => []
  | function _ _ _ _ outer => .leftBrace :: outer.brackets
  | callee _ _ outer | argument _ _ _ _ _ outer => .leftParen :: outer.brackets

/-- The brackets that are open in a block. -/
def Block.brackets : Block → List Kind
  | program => []
  | function _ _ outer => .leftBrace :: outer.brackets

@[simp] theorem Block.brackets_context (block : Block) (list : OpenList) (purpose : Purpose) :
    (block.context list purpose).brackets = block.brackets := by
  cases block <;> rfl

namespace Control

/-- The brackets that are open where a parser stands. -/
def brackets : Control → List Kind
  | opened block | symbol block _ | assign _ block _ => block.brackets
  | operand _ outer | operator _ outer => outer.brackets

/-- What a control asks for whatever the next token is. -/
def asks : Control → Option (Production × String)
  | opened _ | operator _ _ => none
  | symbol _ _ => some (.statement, "symbol")
  | assign _ _ _ => some (.statement, "'='")
  | operand _ _ => some (.primary, "expression")

end Control

/-- A verdict on a token agrees with the reading of the tokens before it, the latest first. -/
def Verdict.Agrees (behind stack : List Kind) (t : Token) : Verdict → Prop
  | proceed control =>
    control.asks = askedBehind (t.kind :: behind) ∧ control.brackets = turnBrackets stack t.kind
  | accept _ => True
  | reject error =>
    let asked := (askedBehind behind).getD (askedWithin stack t.kind)
    error = .unexpected asked.1 t asked.2

namespace Parse

variable {behind : List Kind} {t : Token} {draft : Draft}

/-- A name is being defined only behind `let`. -/
theorem askedBehind_identifier (notSymbol : askedBehind behind ≠ some (.statement, "symbol")) :
    askedBehind (.identifier :: behind) = none := by
  rcases behind with _ | ⟨k, behind⟩
  · rfl
  · cases k <;> first | rfl | exact absurd rfl notSymbol

theorem eq_letKeyword_of_askedBehind (asked : askedBehind behind = some (.statement, "symbol")) :
    ∃ earlier, behind = .letKeyword :: earlier := by
  unfold askedBehind at asked
  split at asked
  · exact ⟨_, rfl⟩
  all_goals simp at asked

theorem completeOperand_agrees {stack : List Kind} (value : NodeId) (pending : Option Pending)
    (outer : Context) (draft : Draft) (free : askedBehind (t.kind :: behind) = none)
    (closed : turnBrackets stack t.kind = outer.brackets) :
    (completeOperand value pending outer draft).1.Agrees behind stack t := by
  cases pending with
  | none => exact ⟨free.symm, closed.symm⟩
  | some left => exact ⟨free.symm, closed.symm⟩

/-- The start of an expression is taken, and all else is refused for want of one. -/
theorem takeOperand_agrees (pending : Option Pending) (outer : Context) (draft : Draft)
    (notSymbol : askedBehind behind ≠ some (.statement, "symbol"))
    (missing : t.kind.startsExpression = false →
      (askedBehind behind).getD (askedWithin outer.brackets t.kind) = (.primary, "expression")) :
    (takeOperand t pending outer draft).1.Agrees behind outer.brackets t := by
  unfold takeOperand
  split
  · rename_i kind
    apply completeOperand_agrees
    · rw [kind]
      rfl
    · rw [kind]
      rfl
  · rename_i kind
    apply completeOperand_agrees
    · rw [kind]
      exact askedBehind_identifier notSymbol
    · rw [kind]
      rfl
  · rename_i kind
    simp only [Verdict.Agrees, kind]
    exact ⟨rfl, rfl⟩
  · rename_i kind
    simp only [Verdict.Agrees, kind]
    exact ⟨rfl, rfl⟩
  · rename_i number identifier brace paren
    have noStart : t.kind.startsExpression = false := by
      rw [Bool.eq_false_iff]
      intro starts
      rcases of_decide_eq_true starts with kind | kind | kind | kind
      · exact number kind
      · exact identifier kind
      · exact brace kind
      · exact paren kind
    simp only [Verdict.Agrees, missing noStart]

/-- In a block, what neither closes it nor ends the program should have been an expression. -/
theorem askedWithin_block (notEnd : t.kind ≠ .endOfInput) (notBrace : t.kind ≠ .rightBrace)
    (block : Block) : askedWithin block.brackets t.kind = (.primary, "expression") := by
  cases block with
  | program => exact if_neg notBrace
  | function brace pending outer => exact if_neg notEnd

theorem takeStatement_agrees (block : Block) (list : OpenList) (draft : Draft)
    (free : askedBehind behind = none) :
    (takeStatement t block list draft).1.Agrees behind block.brackets t := by
  by_cases isLet : t.kind = .letKeyword
  · rw [takeStatement_letKeyword list draft isLet]
    simp only [Verdict.Agrees, isLet]
    exact ⟨rfl, rfl⟩
  by_cases isEnd : t.kind = .endOfInput
  · cases block with
    | program =>
      rw [takeStatement_program_endOfInput list draft isEnd]
      trivial
    | function brace pending outer =>
      rw [takeStatement_function_endOfInput list draft isEnd]
      simp only [Verdict.Agrees, free, isEnd]
      rfl
  by_cases isBrace : t.kind = .rightBrace
  · cases block with
    | program =>
      rw [takeStatement_program_rightBrace list draft isBrace]
      simp only [Verdict.Agrees, free, isBrace]
      rfl
    | function brace pending outer =>
      rw [takeStatement_function_rightBrace list draft isBrace]
      apply completeOperand_agrees
      · rw [isBrace]
        rfl
      · rw [isBrace]
        rfl
  · rw [takeStatement_eq_takeOperand list draft isLet isEnd isBrace,
      ← Block.brackets_context block list .statement]
    apply takeOperand_agrees
    · rw [free]
      exact nofun
    · intro _
      rw [free, Block.brackets_context]
      exact askedWithin_block isEnd isBrace block

theorem takeArgument_agrees (paren : Token) (callee : NodeId) (before : List (Token × NodeId))
    (pending : Option Pending) (outer : Context) (draft : Draft)
    (free : askedBehind behind = none) :
    (takeArgument t paren callee before pending outer draft).1.Agrees behind
      (.leftParen :: outer.brackets) t := by
  unfold takeArgument
  split
  · rename_i starts
    apply takeOperand_agrees none (.argument t paren callee before pending outer)
    · rw [free]
      exact nofun
    · intro noStart
      rw [noStart] at starts
      contradiction
  · dsimp only
    split
    · rename_i isParen
      apply completeOperand_agrees
      · rw [isParen]
        rfl
      · rw [isParen]
        rfl
    · simp only [Verdict.Agrees, free]
      rfl

theorem takeBehind_agrees (value : NodeId) (outer : Context) (draft : Draft)
    (free : askedBehind behind = none) :
    (takeBehind t value outer draft).1.Agrees behind outer.brackets t := by
  cases outer with
  | program list purpose => exact takeStatement_agrees .program _ _ free
  | function brace list purpose pending outer =>
    exact takeStatement_agrees (.function brace pending outer) _ _ free
  | callee paren pending outer => exact takeArgument_agrees paren value [] pending outer draft free
  | argument first paren callee before pending outer =>
    exact takeArgument_agrees paren callee _ pending outer draft free

/-- A step goes on as the reading does, and refuses a token for the reason that it shows. -/
theorem step_agrees (t : Token) (control : Control) (draft : Draft)
    (asks : control.asks = askedBehind behind) :
    (step t control draft).1.Agrees behind control.brackets t := by
  cases control with
  | opened block => exact takeStatement_agrees block _ _ asks.symm
  | symbol block list =>
    rw [step]
    split
    · rename_i kind
      obtain ⟨earlier, rfl⟩ := eq_letKeyword_of_askedBehind asks.symm
      simp only [Verdict.Agrees, kind]
      exact ⟨rfl, rfl⟩
    · simp only [Verdict.Agrees, ← asks]
      rfl
  | assign name block list =>
    rw [step]
    split
    · rename_i kind
      simp only [Verdict.Agrees, kind, Control.brackets, Block.brackets_context]
      exact ⟨rfl, rfl⟩
    · simp only [Verdict.Agrees, ← asks]
      rfl
  | operand pending outer =>
    apply takeOperand_agrees
    · rw [← asks]
      simp [Control.asks]
    · intro _
      rw [← asks]
      rfl
  | operator value outer =>
    rw [step]
    split
    · rename_i kind
      simp only [Verdict.Agrees, kind]
      exact ⟨rfl, rfl⟩
    · exact takeBehind_agrees value outer draft asks.symm

/-- A control that has been read up to knows the brackets that are open, and asks for what the
tokens before it ask for. -/
theorem Reads.agrees {ts : List Token} {c c' : Control} {d d' : Draft} (read : Reads ts c d c' d')
    (asks : c.asks = askedBehind behind) :
    c'.asks = askedBehind ((ts.map Token.kind).reverse ++ behind) ∧
      c'.brackets = (ts.map Token.kind).foldl turnBrackets c.brackets := by
  induction read generalizing behind with
  | refl => exact ⟨asks, rfl⟩
  | @step t ts c c' c'' d d' d'' taken _ ih =>
    have agrees := step_agrees t c d asks
    rw [taken] at agrees
    obtain ⟨asks', brackets⟩ := ih agrees.1
    rw [agrees.2] at brackets
    rw [List.map_cons, List.reverse_cons, List.append_assoc]
    exact ⟨asks', brackets⟩

/-- A token that is refused behind some tokens is refused with the diagnosis. -/
theorem Reads.eq_diagnose {before : List Token} {c : Control} {d d' : Draft} {error : ParseError}
    (read : Reads before (.opened .program) .empty c d)
    (refused : Parse.step t c d = (.reject error, d')) :
    error = diagnose before t := by
  have start : (Control.opened .program).asks = askedBehind [] := rfl
  obtain ⟨asks, brackets⟩ := read.agrees start
  have agrees := step_agrees t c d asks
  rw [refused, brackets, List.append_nil] at agrees
  exact agrees

end Parse

/-! ## Parses -/

open Parse

/-- The tokens up to a place can go on to a program, and those up to the next one cannot. -/
def TokenBuffer.BreaksAt (buffer : TokenBuffer) (p : Nat) : Prop :=
  Viable ((buffer.tokens.take p).map Token.kind) ∧
    ¬ Viable ((buffer.tokens.take (p + 1)).map Token.kind)

theorem Viable.of_isPrefix {ks ls : List Kind} (viable : Viable ls) (isPrefix : ks <+: ls) :
    Viable ks := by
  obtain ⟨buffer, parses, starts⟩ := viable
  exact ⟨buffer, parses, isPrefix.trans starts⟩

/-- A buffer breaks at one place at most. -/
theorem TokenBuffer.BreaksAt.unique {buffer : TokenBuffer} {p q : Nat} (atP : buffer.BreaksAt p)
    (atQ : buffer.BreaksAt q) : p = q := by
  have notBefore {p q : Nat} (atP : buffer.BreaksAt p) (atQ : buffer.BreaksAt q) : ¬ p < q := by
    intro less
    have shorter : buffer.tokens.take (p + 1) <+: buffer.tokens.take q :=
      List.take_prefix_take_left less
    exact atP.2 (atQ.1.of_isPrefix (shorter.map Token.kind))
  have notLess := notBefore atP atQ
  have notMore := notBefore atQ atP
  omega

/-- A buffer breaks where the parser refuses a token. -/
theorem TokenBuffer.breaksAt_of_reads {buffer : TokenBuffer} {before after : List Token} {t : Token}
    {c : Control} {d d' : Draft} {error : ParseError} (split : buffer.tokens = before ++ t :: after)
    (read : Reads before (.opened .program) .empty c d)
    (refused : step t c d = (.reject error, d')) : buffer.BreaksAt before.length := by
  constructor
  · rw [take_of_split split]
    exact read.viable
  · rw [take_succ_of_split split, List.map_append]
    exact read.not_viable_append refused

/-- An error is the diagnosis of the token at the only place where a buffer breaks, and
nothing behind that token has a part in it. -/
structure ParseError.DiagnosedAt (error : ParseError) (buffer : TokenBuffer) (p : Nat) (t : Token) :
    Prop where
  token : buffer.tokens[p]? = some t
  breaks : buffer.BreaksAt p
  only : ∀ q, buffer.BreaksAt q → q = p
  said : error = diagnose (buffer.tokens.take p) t
  prompt : ∀ other : TokenBuffer,
    other.tokens.take (p + 1) = buffer.tokens.take (p + 1) → other.parse = .error error

/-- Every error of a parse is the diagnosis of the first hopeless token. -/
theorem TokenBuffer.parse_error_diagnosedAt (buffer : TokenBuffer) (error : ParseError)
    (failed : buffer.parse = .error error) : ∃ p t, error.DiagnosedAt buffer p t := by
  obtain ⟨before, t, after, c, d, d', split, read, refused⟩ := exists_refused failed
  have breaks : buffer.BreaksAt before.length := breaksAt_of_reads split read refused
  refine ⟨before.length, t, getElem?_of_split split, breaks, fun q atQ => atQ.unique breaks, ?_, ?_⟩
  · rw [take_of_split split]
    exact read.eq_diagnose refused
  · intro other same
    rw [take_succ_of_split split] at same
    have otherSplit : other.tokens = before ++ t :: other.tokens.drop (before.length + 1) := by
      have whole := List.take_append_drop (before.length + 1) other.tokens
      rw [same, List.append_assoc, List.singleton_append] at whole
      exact whole.symm
    exact parse_of_reads_rejected otherSplit read refused

/-- The tokens of `let f = {(g x)`, where the brace stays open. -/
def TokenBuffer.openFunction : TokenBuffer where
  body := [.letKeyword, .identifier, .assign, .leftBrace, .leftParen, .identifier, .identifier,
    .rightParen].map Token.ofKind
  last := .endAt .origin
  body_kind := by decide
  last_kind := rfl

theorem TokenBuffer.openFunction_diagnosedAt :
    openFunction.parse = .error ⟨.function, 1, "EOF", some "'\x7d'"⟩ ∧
      ∃ p t, ParseError.DiagnosedAt ⟨.function, 1, "EOF", some "'\x7d'"⟩ openFunction p t :=
  ⟨rfl, parse_error_diagnosedAt openFunction _ rfl⟩

end PipeScript
