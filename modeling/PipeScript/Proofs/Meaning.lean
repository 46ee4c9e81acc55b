import Mathlib.Data.List.Forall2
import PipeScript.Proofs.Numerals
import PipeScript.Proofs.ShownText
import PipeScript.Proofs.Tiling

/-!
# What tokens stand for

Two tokens agree if they have the same kind and stand for the same text or number, wherever they
are and whatever numbers are spelled like. Of tokens that a lexer gives (`Token.Genuine`) the ones
that agree are those that messages and labels show alike (`Token.Genuine.display_eq_iff`): what is
shown of a token tells its kind and its value.

A statement, an expression or an operand is one of six constructs (`SyntaxTree.construct`), each
with a kind of token that stands for it in messages and labels.
-/

namespace PipeScript

/-! ## Agreement -/

/-- Two tokens of one kind that stand for the same. -/
structure Token.Agrees (t u : Token) : Prop where
  kind : t.kind = u.kind
  text : t.text? = u.text?
  number : t.number? = u.number?

theorem Token.agrees_of_value {t u : Token} (kind : t.kind = u.kind) (value : t.value = u.value) :
    t.Agrees u :=
  ⟨kind, by rw [text?, text?, value], by rw [number?, number?, value]⟩

/-- A token as a lexer gives it: its lexeme is one of its kind, and it stands for what that lexeme
does. -/
structure Token.Genuine (t : Token) : Prop where
  spelled : t.kind.Spells t.lexeme.toList
  valued : t.value = .ofLexeme t.kind t.lexeme.toList

/-- All tokens that a text is tiled with are genuine but the last one, which stands for nothing. -/
theorem Tiled.genuine {place : Position} {text : List Char} {buffer : TokenBuffer}
    (tiled : Tiled place text buffer.tokens) :
    (∀ t ∈ buffer.body, t.Genuine) ∧ buffer.last.value = .none := by
  constructor
  · intro t mem
    obtain ⟨spelled, valued⟩ := tiled.spells t (List.mem_append_left _ mem)
    exact ⟨spelled.resolve_left fun ending => buffer.body_kind t mem ending.1, valued⟩
  · have valued := (tiled.spells buffer.last (List.mem_append_right _ List.mem_cons_self)).2
    rw [buffer.last_kind] at valued
    exact valued

theorem TokenBuffer.genuine_of_ofSource {source : String} {buffer : TokenBuffer}
    (lexed : ofSource source = .ok buffer) :
    (∀ t ∈ buffer.body, t.Genuine) ∧ buffer.last.value = .none :=
  (ofSource_eq_ok.mp lexed).genuine

namespace Token.Genuine

variable {t u : Token}

/-- An identifier stands for its lexeme. -/
theorem text_eq (genuine : t.Genuine) (kind : t.kind = .identifier) : t.text? = some t.lexeme := by
  rw [text?, genuine.valued, kind, Literal.ofLexeme, String.ofList_toList]

/-- A number stands for a value that digits stand for. -/
theorem number_eq (genuine : t.Genuine) (kind : t.kind = .number) :
    t.number? = some (.ofNat (digitsValue t.lexeme.toList)) := by
  rw [number?, genuine.valued, kind, Literal.ofLexeme]

theorem agrees_of_lexeme (genuine : t.Genuine) (other : u.Genuine) (kind : t.kind = u.kind)
    (lexeme : t.lexeme = u.lexeme) : t.Agrees u :=
  agrees_of_value kind (by rw [genuine.valued, other.valued, kind, lexeme])

/-- Operators, brackets and keywords have one lexeme for each kind. -/
theorem toList_lexeme {kind : Kind} {t : TokenOf kind} (genuine : t.1.Genuine)
    (fixed : kind ≠ .identifier ∧ kind ≠ .number) : t.1.lexeme.toList = kind.spelling := by
  have spelled := genuine.spelled
  rw [t.2] at spelled
  cases kind with
  | endOfInput => cases spelled
  | identifier => exact absurd rfl fixed.1
  | number => exact absurd rfl fixed.2
  | _ => exact spelled

theorem agrees_of_kind {kind : Kind} {t u : TokenOf kind} (genuine : t.1.Genuine)
    (other : u.1.Genuine) (fixed : kind ≠ .identifier ∧ kind ≠ .number) : t.1.Agrees u.1 := by
  apply genuine.agrees_of_lexeme other (t.2.trans u.2.symm)
  apply String.toList_injective
  rw [genuine.toList_lexeme fixed, other.toList_lexeme fixed]

/-- Two numbers agree that are read as the same value. -/
theorem agrees_of_digits (genuine : t.Genuine) (other : u.Genuine) (kind : t.kind = .number)
    (kindToo : u.kind = .number)
    (value : Binary64.ofNat (digitsValue t.lexeme.toList) =
      Binary64.ofNat (digitsValue u.lexeme.toList)) : t.Agrees u := by
  apply agrees_of_value (kind.trans kindToo.symm)
  rw [genuine.valued, other.valued, kind, kindToo, Literal.ofLexeme, Literal.ofLexeme, value]

/-- Tokens that agree have the same lexeme, unless they are numbers. -/
theorem lexeme_eq (genuine : t.Genuine) (other : u.Genuine) (agrees : t.Agrees u)
    (notNumber : t.kind ≠ .number) : t.lexeme = u.lexeme := by
  by_cases name : t.kind = .identifier
  · have text := agrees.text
    rw [genuine.text_eq name, other.text_eq (agrees.kind ▸ name)] at text
    exact Option.some.inj text
  · let first : TokenOf t.kind := ⟨t, rfl⟩
    let second : TokenOf t.kind := ⟨u, agrees.kind.symm⟩
    apply String.toList_injective
    exact (toList_lexeme (t := first) genuine ⟨name, notNumber⟩).trans
      (toList_lexeme (t := second) other ⟨name, notNumber⟩).symm

/-- A lexeme stands on one line. -/
theorem unbroken (genuine : t.Genuine) : '\n' ∉ t.lexeme.toList := fun mem =>
  absurd (genuine.spelled.madeOf '\n' mem) (by decide)

/-- What is shown of a token: a name or a number between brackets, and all else between quotes. -/
theorem display_cases (genuine : t.Genuine) :
    t.kind = .identifier ∧ t.display = "ID(" ++ t.lexeme ++ ")" ∨
      t.kind = .number ∧
        t.display = "NUM(" ++ (Binary64.ofNat (digitsValue t.lexeme.toList)).fixed 6 ++ ")" ∨
      t.kind ≠ .identifier ∧ t.kind ≠ .number ∧ t.display = "'" ++ t.lexeme ++ "'" := by
  have spelled := genuine.spelled
  rw [display, genuine.valued]
  cases kind : t.kind with
  | endOfInput =>
    rw [kind] at spelled
    cases spelled
  | identifier => exact Or.inl ⟨rfl, by rw [Literal.ofLexeme, String.ofList_toList]⟩
  | number => exact Or.inr (Or.inl ⟨rfl, rfl⟩)
  | _ => exact Or.inr (Or.inr ⟨by decide, by decide, rfl⟩)

/-- What is shown of a token tells its kind and what it stands for. -/
theorem display_eq_iff (genuine : t.Genuine) (other : u.Genuine) :
    t.display = u.display ↔ t.Agrees u := by
  constructor
  · intro same
    rcases genuine.display_cases with ⟨kind, shown⟩ | ⟨kind, shown⟩ | ⟨-, -, shown⟩ <;>
      rcases other.display_cases with
        ⟨kindToo, shownToo⟩ | ⟨kindToo, shownToo⟩ | ⟨-, -, shownToo⟩ <;>
      rw [shown, shownToo] at same
    case inl.inl =>
      exact genuine.agrees_of_lexeme other (kind.trans kindToo.symm) (by simpa using same)
    case inr.inl.inr.inl =>
      exact genuine.agrees_of_digits other kind kindToo
        (Binary64.fixed_ofNat_inj.mp (by simpa using same))
    case inr.inr.inr.inr =>
      have lexeme : t.lexeme = u.lexeme := by simpa using same
      exact genuine.agrees_of_lexeme other (genuine.spelled.unique (lexeme ▸ other.spelled)) lexeme
    -- A bracket, a letter and a quote start different texts.
    all_goals
      have chars := congrArg String.toList same
      simp at chars
  · intro agrees
    by_cases number : t.kind = .number
    · have numberToo := agrees.kind ▸ number
      have digits := agrees.number
      rw [genuine.number_eq number, other.number_eq numberToo] at digits
      rw [display, display, genuine.valued, other.valued, number, numberToo, Literal.ofLexeme,
        Literal.ofLexeme, Option.some.inj digits]
    · have lexeme := genuine.lexeme_eq other agrees number
      rw [display, display, genuine.valued, other.valued, agrees.kind, lexeme]

end Token.Genuine

/-! ## Trees -/

namespace SyntaxTree

/-- A tree with tokens that a lexer gives. -/
def Genuine {part : Part} (form : SyntaxTree TokenOf part) : Prop := ∀ t ∈ form.tokens, t.Genuine

/-- Two trees of one sort with tokens that agree. -/
def Agrees {part : Part} (form other : SyntaxTree TokenOf part) : Prop :=
  List.Forall₂ Token.Agrees form.tokens other.tokens

section Parts

variable {first first' : SyntaxTree TokenOf .statement}
  {list list' : SyntaxTree TokenOf .statements}
  {e e' : SyntaxTree TokenOf .expression} {o o' : SyntaxTree TokenOf .operand}
  {others others' : SyntaxTree TokenOf .arguments}

theorem genuine_statements :
    (statements first list).Genuine ↔ first.Genuine ∧ list.Genuine := by
  simp only [Genuine, tokens_statements, List.forall_mem_append]

theorem genuine_arguments : (arguments e others).Genuine ↔ e.Genuine ∧ others.Genuine := by
  simp only [Genuine, tokens_arguments, List.forall_mem_append]

theorem Agrees.statements (firsts : first.Agrees first') (lists : list.Agrees list') :
    (statements first list).Agrees (statements first' list') := by
  rw [Agrees, tokens_statements, tokens_statements]
  exact List.rel_append firsts lists

theorem Agrees.arguments (firsts : e.Agrees e') (lists : others.Agrees others') :
    (arguments e others).Agrees (arguments e' others') := by
  rw [Agrees, tokens_arguments, tokens_arguments]
  exact List.rel_append firsts lists

/-! Brackets, keywords and operators agree by their kinds alone. -/

section Definition

variable {keyword keyword' : TokenOf .letKeyword} {symbol symbol' : TokenOf .identifier}
  {sign sign' : TokenOf .assign}

theorem genuine_definition : (definition keyword symbol sign e).Genuine ↔
    keyword.1.Genuine ∧ symbol.1.Genuine ∧ sign.1.Genuine ∧ e.Genuine := by
  simp only [Genuine, tokens_definition, List.forall_mem_cons]

theorem Agrees.definition (genuine : (definition keyword symbol sign e).Genuine)
    (genuine' : (definition keyword' symbol' sign' e').Genuine)
    (symbols : symbol.1.Agrees symbol'.1) (initializers : e.Agrees e') :
    (definition keyword symbol sign e).Agrees (definition keyword' symbol' sign' e') := by
  obtain ⟨isKeyword, -, isSign, -⟩ := genuine_definition.mp genuine
  obtain ⟨isKeyword', -, isSign', -⟩ := genuine_definition.mp genuine'
  have keywords := isKeyword.agrees_of_kind isKeyword' (by decide)
  have signs := isSign.agrees_of_kind isSign' (by decide)
  exact List.Forall₂.cons keywords (.cons symbols (.cons signs initializers))

end Definition

section Pipe

variable {operator operator' : TokenOf .pipe}

theorem genuine_pipe :
    (pipe e operator o).Genuine ↔ e.Genuine ∧ operator.1.Genuine ∧ o.Genuine := by
  simp only [Genuine, tokens_pipe, List.forall_mem_append, List.forall_mem_cons]

theorem Agrees.pipe (genuine : (pipe e operator o).Genuine)
    (genuine' : (pipe e' operator' o').Genuine) (lefts : e.Agrees e') (rights : o.Agrees o') :
    (pipe e operator o).Agrees (pipe e' operator' o') := by
  have operators := (genuine_pipe.mp genuine).2.1.agrees_of_kind
    (genuine_pipe.mp genuine').2.1 (by decide)
  rw [Agrees, tokens_pipe, tokens_pipe]
  exact List.rel_append lefts (.cons operators rights)

end Pipe

section Function

variable {opening opening' : TokenOf .leftBrace} {closing closing' : TokenOf .rightBrace}

theorem genuine_function : (function opening list closing).Genuine ↔
    opening.1.Genuine ∧ list.Genuine ∧ closing.1.Genuine := by
  simp [Genuine, or_imp, forall_and]

theorem Agrees.function (genuine : (function opening list closing).Genuine)
    (genuine' : (function opening' list' closing').Genuine) (bodies : list.Agrees list') :
    (function opening list closing).Agrees (function opening' list' closing') := by
  obtain ⟨isOpening, -, isClosing⟩ := genuine_function.mp genuine
  obtain ⟨isOpening', -, isClosing'⟩ := genuine_function.mp genuine'
  have openings := isOpening.agrees_of_kind isOpening' (by decide)
  have closings := isClosing.agrees_of_kind isClosing' (by decide)
  rw [Agrees, tokens_function, tokens_function]
  exact .cons openings (List.rel_append bodies (.cons closings .nil))

end Function

section Call

variable {opening opening' : TokenOf .leftParen} {closing closing' : TokenOf .rightParen}

theorem genuine_call : (call opening e others closing).Genuine ↔
    opening.1.Genuine ∧ e.Genuine ∧ others.Genuine ∧ closing.1.Genuine := by
  simp [Genuine, or_imp, forall_and]

theorem Agrees.call (genuine : (call opening e others closing).Genuine)
    (genuine' : (call opening' e' others' closing').Genuine) (callees : e.Agrees e')
    (lists : others.Agrees others') :
    (call opening e others closing).Agrees (call opening' e' others' closing') := by
  obtain ⟨isOpening, -, -, isClosing⟩ := genuine_call.mp genuine
  obtain ⟨isOpening', -, -, isClosing'⟩ := genuine_call.mp genuine'
  have openings := isOpening.agrees_of_kind isOpening' (by decide)
  have closings := isClosing.agrees_of_kind isClosing' (by decide)
  rw [Agrees, tokens_call, tokens_call]
  exact .cons openings (List.rel_append callees (List.rel_append lists (.cons closings .nil)))

end Call

end Parts

end SyntaxTree

/-! ## Constructs -/

/-- What a statement, an expression or an operand is. -/
inductive Construct
  | definition
  | operator
  | number
  | name
  | function
  | call
deriving DecidableEq

/-- The kind of the token that a construct is anchored at. -/
def Construct.anchor : Construct → Kind
  | definition | name => .identifier
  | operator => .pipe
  | number => .number
  | function => .leftBrace
  | call => .leftParen

/-- Only definitions and names are anchored at tokens of one kind. -/
theorem Construct.eq_of_anchor {construct other : Construct}
    (anchor : construct.anchor = other.anchor)
    (defines : construct = .definition ↔ other = .definition) : construct = other := by
  by_cases isDefinition : construct = .definition
  · rw [isDefinition, defines.mp isDefinition]
  · have notDefinition : other ≠ .definition := fun eq => isDefinition (defines.mpr eq)
    cases construct <;> cases other <;> first | rfl | contradiction

namespace SyntaxTree

/-- What a tree is, unless it is a list. -/
def construct : {part : Part} → SyntaxTree TokenOf part → Option Construct
  | _, noStatements => none
  | _, statements _ _ => none
  | _, definition _ _ _ _ => some .definition
  | _, plain value => value.construct
  | _, operand value => value.construct
  | _, pipe _ _ _ => some .operator
  | _, number _ => some .number
  | _, name _ => some .name
  | _, function _ _ _ => some .function
  | _, call _ _ _ _ => some .call
  | _, noArguments => none
  | _, arguments _ _ => none

theorem construct_operand_ne (value : SyntaxTree TokenOf .operand) :
    value.construct ≠ some .operator := by
  cases value <;> simp [construct]

theorem construct_expression_ne (value : SyntaxTree TokenOf .expression) :
    value.construct ≠ some .definition := by
  cases value with
  | operand value => cases value <;> simp [construct]
  | pipe => simp [construct]

end SyntaxTree

end PipeScript
