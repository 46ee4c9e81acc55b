import PipeScript.Proofs.Concatenation
import PipeScript.Proofs.ShownText

/-!
# Messages on one line

The message of every source that is refused stands on one line. A lexical error names a character,
which can be any at all: it is shown between apostrophes, where nothing that ends a line or controls
a terminal stands for itself (`Text.escape_oneLine`). A parse error quotes a token as it is shown,
with nothing escaped. That goes well because the token was read off a source, and so is made of the
few characters that tokens are made of (`Token.madeOf_display`).
-/

namespace PipeScript

/-! ## Lines -/

/-- The characters at which a line ends: line feed, vertical tab, form feed, carriage return, next
line, line separator and paragraph separator. -/
def EndsLine (c : Char) : Prop :=
  c ∈ ['\n', '\x0b', '\x0c', '\r', '\u0085', '\u2028', '\u2029']

/-- The control characters: the ASCII ones, and those behind the last character of ASCII. -/
def IsControl (c : Char) : Prop := c.toNat < 0x20 ∨ 0x7F ≤ c.toNat ∧ c.toNat < 0xA0

/-- A character that can stand in a line. -/
def FitsLine (c : Char) : Prop := ¬ EndsLine c ∧ ¬ IsControl c

instance : DecidablePred EndsLine := fun c => inferInstanceAs (Decidable (c ∈ _))

instance : DecidablePred IsControl := fun c =>
  inferInstanceAs (Decidable (c.toNat < 0x20 ∨ 0x7F ≤ c.toNat ∧ c.toNat < 0xA0))

instance : DecidablePred FitsLine := fun c =>
  inferInstanceAs (Decidable (¬ EndsLine c ∧ ¬ IsControl c))

/-- A text without line ends and other control characters. -/
def OneLine (text : String) : Prop := MadeOf FitsLine text

instance : DecidablePred OneLine := inferInstanceAs (DecidablePred (MadeOf FitsLine))

theorem fitsLine_of_ascii {c : Char} (low : 0x20 ≤ c.toNat) (high : c.toNat < 0x7F) :
    FitsLine c := by
  constructor
  · intro ends
    simp only [EndsLine, List.mem_cons, List.not_mem_nil, or_false] at ends
    rcases ends with rfl | rfl | rfl | rfl | rfl | rfl | rfl <;> revert low high <;> decide
  · rintro (below | ⟨above, -⟩) <;> omega

theorem fitsLine_of_isWordPart {c : Char} (part : isWordPart c) : FitsLine c := by
  rcases isWordPart_iff.mp part with known | rfl
  · have bound {low high : Char} (between : low ≤ c ∧ c ≤ high) (first : 0x20 ≤ low.toNat)
        (last : high.toNat < 0x7F) : FitsLine c :=
      fitsLine_of_ascii (Nat.le_trans first between.1) (Nat.lt_of_le_of_lt between.2 last)
    rcases known with small | capital | digit
    · exact bound small (by decide) (by decide)
    · exact bound capital (by decide) (by decide)
    · exact bound digit (by decide) (by decide)
  · decide

theorem fitsLine_of_isShown {c : Char} (shown : IsShown c) : FitsLine c := by
  rcases shown with part | sign
  · exact fitsLine_of_isWordPart part
  · have fit : OneLine (String.ofList signs) := by decide
    exact fit.of_mem sign

/-- A number stands on one line. -/
theorem oneLine_toString (n : Nat) : OneLine (toString n) := by
  rw [Nat.toString_eq_ofList_toDigits]
  exact .ofList fun c mem => fitsLine_of_isShown (isShown_of_mem_digitText mem)

/-! ## Quoted characters -/

namespace Text

/-- What ends a line or is a control character is hidden. -/
theorem fitsLine_of_not_isHidden {c : Char} (shows : isHidden c = false) : FitsLine c := by
  constructor
  · intro ends
    simp only [EndsLine, List.mem_cons, List.not_mem_nil, or_false] at ends
    rcases ends with rfl | rfl | rfl | rfl | rfl | rfl | rfl <;> exact absurd shows (by decide)
  · intro control
    unfold isHidden at shows
    dsimp only at shows
    split at shows
    · have notLow := of_decide_eq_false shows
      rcases control with low | ⟨high, -⟩ <;> omega
    · simp only [inRanges, controlRanges, List.any_cons, Bool.or_eq_false_iff,
        Bool.and_eq_false_iff, decide_eq_false_iff_not] at shows
      rcases control with low | ⟨high, last⟩ <;> omega

theorem fitsLine_codePoint (c : Char) : ∀ d ∈ codePoint c, FitsLine d := by
  have digits : ∀ d ∈ Nat.toDigits 16 c.toNat, FitsLine d := fun d mem =>
    fitsLine_of_isWordPart (isWordPart_of_mem_toDigits (by decide) (by decide) mem)
  intro d mem
  simp only [codePoint, List.cons_append, List.mem_cons, List.mem_append, List.not_mem_nil,
    or_false] at mem
  rcases mem with rfl | rfl | rfl | inDigits | rfl
  · decide
  · decide
  · decide
  · exact digits d inDigits
  · decide

/-- The short escapes are those of four controls, the backslash and the quote. -/
theorem mem_of_escapeLetter? {quote c letter : Char}
    (short : escapeLetter? quote c = some letter) :
    letter = quote ∨ letter ∈ ['t', 'r', 'n', '0', '\\'] := by
  unfold escapeLetter? at short
  grind

/-- Between quotes that fit a line, so does whatever a character is written as. -/
theorem fitsLine_escape {quote : Char} (plain : FitsLine quote) (c : Char) :
    ∀ d ∈ escape quote c, FitsLine d := by
  have backslash : FitsLine '\\' := by decide
  unfold escape
  split
  · rename_i letter short
    have letters : OneLine (String.ofList ['t', 'r', 'n', '0', '\\']) := by decide
    refine List.forall_mem_cons.mpr ⟨backslash, List.forall_mem_singleton.mpr ?_⟩
    rcases mem_of_escapeLetter? short with rfl | isLetter
    · exact plain
    · exact letters.of_mem isLetter
  · split
    · exact fitsLine_codePoint c
    · rename_i shows
      exact List.forall_mem_singleton.mpr (fitsLine_of_not_isHidden (Bool.eq_false_iff.mpr shows))

theorem oneLine_quotedChar (c : Char) : OneLine (quotedChar c) := by
  have quote : FitsLine '\'' := by decide
  refine .ofList (List.forall_mem_cons.mpr ⟨quote, List.forall_mem_append.mpr ⟨?_, ?_⟩⟩)
  · exact fitsLine_escape quote c
  · exact List.forall_mem_singleton.mpr quote

end Text

/-! ## Messages -/

/-- The message about a character stands on one line, whatever the character is. -/
theorem LexError.oneLine_message (e : LexError) : OneLine e.message := by
  have opening : OneLine "unexpected character " := by decide
  have place : OneLine " at line " := by decide
  exact ((opening.append (Text.oneLine_quotedChar _)).append place).append (oneLine_toString _)

theorem Kind.AskedBy.oneLine {kind : Kind} {expected : String} (asked : kind.AskedBy expected) :
    OneLine expected := by
  rcases asked with rfl | ⟨rfl, -⟩
  · cases kind <;> decide
  · decide

/-- The message about a token stands on one line if the token is shown on one. -/
theorem ParseError.oneLine_message {production : Production} {t : Token} {expected : String}
    (found : OneLine t.display) (asks : OneLine expected) :
    OneLine (ParseError.unexpected production t expected).message := by
  have name : OneLine production.name := by cases production <;> decide
  have place : OneLine " at line " := by decide
  have got : OneLine ": got unexpected " := by decide
  have opening : OneLine " (expected " := by decide
  have closing : OneLine ")" := by decide
  exact ((((name.append place).append (oneLine_toString _)).append got).append found).append
    ((opening.append asks).append closing)

/-- A parse that fails quotes a token of its buffer, and asks for some kind of token. -/
theorem TokenBuffer.exists_unexpected {buffer : TokenBuffer} {e : ParseError}
    (failed : buffer.parse = .error e) :
    ∃ production expected, ∃ t ∈ buffer.tokens, e = .unexpected production t expected ∧
      ∃ kind : Kind, kind.AskedBy expected := by
  obtain ⟨before, t, after, c, d, d', split, -, refused⟩ := TokenBuffer.exists_refused failed
  obtain ⟨production, expected, quoted, asks, -⟩ :=
    Parse.step_fair c d t e (congrArg Prod.fst refused)
  refine ⟨production, expected, t, ?_, quoted, asks⟩
  rw [split]
  exact List.mem_append_right _ List.mem_cons_self

/-- A source is refused by the lexer, or by the parser for a token of its buffer. -/
theorem parseSource_error_cases {source : String} {e : FrontendError}
    (failed : parseSource source = .error e) :
    (∃ error, e = .lex error) ∨
      ∃ error buffer, e = .parse error ∧ TokenBuffer.ofSource source = .ok buffer ∧
        buffer.parse = .error error := by
  cases lexed : TokenBuffer.ofSource source with
  | error error =>
    cases (parseSource_of_lex_error lexed).symm.trans failed
    exact Or.inl ⟨error, rfl⟩
  | ok buffer =>
    cases parsed : buffer.parse with
    | error error =>
      cases (parseSource_eq_parse_error.mpr ⟨buffer, lexed, parsed⟩).symm.trans failed
      exact Or.inr ⟨error, buffer, rfl, rfl, parsed⟩
    | ok tree => exact nomatch (parseSource_eq_ok.mpr ⟨buffer, lexed, parsed⟩).symm.trans failed

/-- The message of a source that is refused stands on one line. -/
theorem parseSource_error_oneLine (source : String) (e : FrontendError)
    (failed : parseSource source = .error e) : OneLine e.message := by
  rcases parseSource_error_cases failed with ⟨error, rfl⟩ | ⟨error, buffer, rfl, lexed, rejected⟩
  · have stage : OneLine "Lexer error: " := by decide
    exact stage.append error.oneLine_message
  · have stage : OneLine "Syntax error: " := by decide
    obtain ⟨production, expected, t, isToken, rfl, kind, asked⟩ :=
      TokenBuffer.exists_unexpected rejected
    obtain ⟨spelled, valued⟩ := (TokenBuffer.ofSource_eq_ok.mp lexed).spells t isToken
    have found : OneLine t.display :=
      (Token.madeOf_display (spelled.imp_left And.left) valued).mono fun _ => fitsLine_of_isShown
    exact stage.append (ParseError.oneLine_message found asked.oneLine)

/-- A line separator is refused without being shown, and a token as it is. -/
theorem separatorThenParen_oneLine :
    (parseSource "a \u2028 b" = .error (.lex ⟨'\u2028', 1⟩) ∧
      OneLine (FrontendError.lex ⟨'\u2028', 1⟩).message) ∧
    parseSource "b )" = .error (.parse ⟨.primary, 1, "')'", some "expression"⟩) ∧
      OneLine (FrontendError.parse ⟨.primary, 1, "')'", some "expression"⟩).message := by
  have stray : parseSource "a \u2028 b" = .error (.lex ⟨'\u2028', 1⟩) :=
    parseSource_of_lex_error (TokenBuffer.ofSource_eq_error.mpr (by decide))
  have lexed : TokenBuffer.ofSource "b )" = .ok .letterAndParen :=
    TokenBuffer.ofLexer_eq_ok.mpr (by decide)
  have refused : parseSource "b )" = .error (.parse ⟨.primary, 1, "')'", some "expression"⟩) :=
    parseSource_eq_parse_error.mpr ⟨.letterAndParen, lexed, rfl⟩
  exact ⟨⟨stray, parseSource_error_oneLine _ _ stray⟩, refused,
    parseSource_error_oneLine _ _ refused⟩

end PipeScript
