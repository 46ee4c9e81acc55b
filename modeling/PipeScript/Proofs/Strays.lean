import PipeScript.Token.Buffer

/-!
# Stray characters

A character is stray in a text if no token has it, or if it is one half of `|>` or `->`
without the other. `IsStray` says so of a character between its two neighbours; where the
tokens of the text begin and end has no part in it.

The lexer knows no neighbours. It stands at a place and takes what fits there. Still it
gives an error for every stray character of a text and for no other, whatever stands around
them. What carries the proof is that it never stops within an operator: behind every read,
the strays of the rest are what they would be at the start of a text.
-/

namespace PipeScript

/-! ## The rule -/

/-- The ASCII letters and digits. -/
def IsAlphanumeric (c : Char) : Prop :=
  ('a' ≤ c ∧ c ≤ 'z') ∨ ('A' ≤ c ∧ c ≤ 'Z') ∨ ('0' ≤ c ∧ c ≤ '9')

instance : DecidablePred IsAlphanumeric := fun _ => inferInstanceAs (Decidable (_ ∨ _ ∨ _))

/-- The characters that tokens and the blanks between them are made of. -/
def InAlphabet (c : Char) : Prop :=
  IsAlphanumeric c ∨
    c ∈ [' ', '\t', '\r', '\n', '_', '{', '}', '(', ')', '=', '|', '-', '>']

instance : DecidablePred InAlphabet := fun c =>
  inferInstanceAs (Decidable (IsAlphanumeric c ∨ c ∈ _))

/-- Between the characters `before` and `behind`, if there are any, `c` belongs to no token
and is no blank. -/
def IsStray (before : Option Char) (c : Char) (behind : Option Char) : Prop :=
  ¬ InAlphabet c ∨
    ((c = '|' ∨ c = '-') ∧ behind ≠ some '>') ∨
    (c = '>' ∧ before ≠ some '|' ∧ before ≠ some '-')

instance (before : Option Char) (c : Char) (behind : Option Char) :
    Decidable (IsStray before c behind) :=
  inferInstanceAs (Decidable (_ ∨ _ ∨ _))

/-- The character at an index and its line, if the character is stray. -/
def strayAt? (text : List Char) (i : Nat) : Option LexError :=
  match text.drop i with
  | [] => none
  | c :: rest =>
    if IsStray (text.take i).getLast? c rest.head? then
      some ⟨c, 1 + (text.take i).count '\n'⟩
    else
      none

/-- The stray characters of a text in order, each with its line. -/
def strays (text : List Char) : List LexError :=
  (List.range text.length).filterMap (strayAt? text)

example : strays "-|>\n=>".toList = [⟨'-', 1⟩, ⟨'>', 2⟩] := by decide

/-! ## Strays from left to right -/

/-- The strays of the rest of a text that starts on some line, behind some character. -/
def straysFrom (before : Option Char) (line : Nat) : List Char → List LexError
  | [] => []
  | c :: rest =>
    (if IsStray before c rest.head? then [⟨c, line⟩] else []) ++
      straysFrom (some c) (line + [c].count '\n') rest

theorem filterMap_strayAt? (pre text : List Char) :
    (List.range' pre.length text.length).filterMap (strayAt? (pre ++ text)) =
      straysFrom pre.getLast? (1 + pre.count '\n') text := by
  induction text generalizing pre with
  | nil => rfl
  | cons c rest ih =>
    have tail := ih (pre ++ [c])
    rw [List.length_append, List.length_singleton, List.append_assoc, List.singleton_append,
      List.getLast?_append, List.getLast?_singleton, Option.some_or, List.count_append,
      ← Nat.add_assoc] at tail
    rw [List.length_cons, List.range'_succ, List.filterMap_cons, tail, straysFrom]
    have head : strayAt? (pre ++ c :: rest) pre.length =
        if IsStray pre.getLast? c rest.head? then some ⟨c, 1 + pre.count '\n'⟩ else none := by
      rw [strayAt?, List.drop_left, List.take_left]
    rw [head]
    by_cases stray : IsStray pre.getLast? c rest.head?
    · rw [if_pos stray, if_pos stray]
      rfl
    · rw [if_neg stray, if_neg stray]
      rfl

theorem strays_eq_straysFrom (text : List Char) : strays text = straysFrom none 1 text := by
  have all := filterMap_strayAt? [] text
  rwa [List.length_nil, List.nil_append, ← List.range_eq_range'] at all

/-- What stands before a text only matters to a `>` at its head. -/
theorem straysFrom_of_apart {before : Option Char} {text : List Char} (line : Nat)
    (apart : text.head? = some '>' → before ≠ some '|' ∧ before ≠ some '-') :
    straysFrom before line text = straysFrom none line text := by
  cases text with
  | nil => rfl
  | cons c rest =>
    have same : IsStray before c rest.head? ↔ IsStray none c rest.head? := by
      unfold IsStray
      by_cases gt : c = '>'
      · have free := apart (congrArg some gt)
        simp [gt, free]
      · simp [gt]
    rw [straysFrom, straysFrom]
    simp only [same]

/-! ## Runs without strays -/

/-- A character that no neighbour makes a stray of, and that makes none of a neighbour. -/
def isPlain (c : Char) : Bool := InAlphabet c ∧ c ≠ '|' ∧ c ≠ '-' ∧ c ≠ '>'

theorem isPlain_iff {c : Char} : isPlain c ↔ InAlphabet c ∧ c ≠ '|' ∧ c ≠ '-' ∧ c ≠ '>' :=
  decide_eq_true_iff

theorem not_isStray_of_isPlain {c : Char} (plain : isPlain c) (before behind : Option Char) :
    ¬ IsStray before c behind := by
  obtain ⟨known, bar, dash, gt⟩ := isPlain_iff.mp plain
  simp [IsStray, known, bar, dash, gt]

/-- Characters at the head of a text that are no strays there, whatever follows. Nor do they
decide of what follows whether it is stray. -/
def Clean (chars : List Char) : Prop :=
  ∀ line rest, straysFrom none line (chars ++ rest) =
    straysFrom none (line + chars.count '\n') rest

theorem clean_of_isPlain {chars : List Char} (plain : chars.all isPlain) : Clean chars := by
  induction chars with
  | nil => exact fun line rest => rfl
  | cons c chars ih =>
    rw [List.all_cons, Bool.and_eq_true] at plain
    obtain ⟨head, tail⟩ := plain
    obtain ⟨-, bar, dash, -⟩ := isPlain_iff.mp head
    intro line rest
    have apart : some c ≠ some '|' ∧ some c ≠ some '-' := by simp [bar, dash]
    have count : ([c] ++ chars).count '\n' = [c].count '\n' + chars.count '\n' :=
      List.count_append
    rw [List.singleton_append] at count
    rw [List.cons_append, straysFrom, if_neg (not_isStray_of_isPlain head _ _),
      List.nil_append, straysFrom_of_apart _ fun _ => apart, ih tail, count, Nat.add_assoc]

theorem isPlain_of_isBlank {c : Char} (blank : isBlank c) : isPlain c := by
  simp only [isBlank, decide_eq_true_eq] at blank
  rcases blank with rfl | rfl | rfl | rfl <;> decide

theorem isWordPart_iff {c : Char} : isWordPart c ↔ IsAlphanumeric c ∨ c = '_' := by
  simp only [isWordPart, isWordStart, isDigit, IsAlphanumeric, Bool.or_eq_true,
    decide_eq_true_eq]
  grind

theorem isPlain_of_isWordPart {c : Char} (part : isWordPart c) : isPlain c := by
  rcases isWordPart_iff.mp part with known | rfl
  · have ne {d : Char} (other : ¬ IsAlphanumeric d) : c ≠ d := by
      rintro rfl
      exact other known
    exact isPlain_iff.mpr ⟨Or.inl known, ne (by decide), ne (by decide), ne (by decide)⟩
  · decide

theorem isWordPart_of_isDigit {c : Char} (digit : isDigit c) : isWordPart c := by
  rw [isWordPart, digit, Bool.or_true]

theorem clean_run {p : Char → Bool} (part : ∀ d, p d → isWordPart d) {c : Char}
    (head : isWordPart c) (rest : List Char) : Clean (c :: rest.takeWhile p) := by
  apply clean_of_isPlain
  rw [List.all_cons, isPlain_of_isWordPart head, Bool.true_and, List.all_eq_true]
  intro d mem
  exact isPlain_of_isWordPart (part d (List.all_eq_true.mp List.all_takeWhile d mem))

/-- The operators and brackets are clean; `|>` and `->` are so only as a whole. -/
theorem clean_spelling (kind : Kind) : Clean kind.spelling := by
  cases kind with
  | pipe | arrow =>
    intro line rest
    have behind : straysFrom (some '>') line rest = straysFrom none line rest :=
      straysFrom_of_apart line (by simp)
    simp [Kind.spelling, straysFrom, IsStray, InAlphabet, behind]
  | _ => exact clean_of_isPlain (by decide)

/-! ## What stands at the head of a text -/

/-- The spelling of an operator stands where the operator was found. -/
theorem exists_of_operator? {c : Char} {rest : List Char} {kind : Kind}
    (found : operator? c rest.head? = some kind) : ∃ tail, c :: rest = kind.spelling ++ tail := by
  unfold operator? at found
  split at found
  all_goals cases found
  case h_1 next | h_2 next | h_3 next =>
    obtain ⟨tail, rfl⟩ := List.head?_eq_some_iff.mp next
    exact ⟨tail, rfl⟩
  all_goals exact ⟨rest, rfl⟩

/-- A lexeme is a clean part of the text at its head. -/
theorem munch_lexeme_clean {text chars : List Char} {kind : Kind}
    (found : munch text = .lexeme kind chars) : Clean chars ∧ ∃ rest, text = chars ++ rest := by
  cases text with
  | nil => cases found
  | cons c rest =>
    rw [munch] at found
    split at found
    · rename_i digit
      cases found
      exact ⟨clean_run (fun d => isWordPart_of_isDigit) (isWordPart_of_isDigit digit) rest,
        rest.dropWhile isDigit, by rw [List.cons_append, List.takeWhile_append_dropWhile]⟩
    · split at found
      · rename_i start
        cases found
        exact ⟨clean_run (fun d part => part) (by rw [isWordPart, start, Bool.true_or]) rest,
          rest.dropWhile isWordPart, by rw [List.cons_append, List.takeWhile_append_dropWhile]⟩
      · split at found
        · rename_i operator
          cases found
          exact ⟨clean_spelling kind, exists_of_operator? operator⟩
        · cases found

/-- Apart from blanks and words, the alphabet is brackets and what operators are made of. -/
theorem InAlphabet.cases {c : Char} (known : InAlphabet c) :
    isBlank c ∨ isWordPart c ∨ c ∈ ['{', '}', '(', ')', '='] ∨ (c = '|' ∨ c = '-') ∨ c = '>' := by
  simp only [InAlphabet, isBlank, isWordPart_iff, List.mem_cons, List.not_mem_nil, or_false,
    decide_eq_true_eq] at known ⊢
  grind

theorem operator?_ne_none {c : Char} (sign : c ∈ ['{', '}', '(', ')', '=']) (next : Option Char) :
    operator? c next ≠ none := by
  intro unknown
  unfold operator? at unknown
  split at unknown
  case h_9 => simp_all
  all_goals cases unknown

theorem operator?_half {c : Char} (half : c = '|' ∨ c = '-') : operator? c (some '>') ≠ none := by
  rcases half with rfl | rfl <;> decide

/-- A character that is neither blank nor part of a word, and opens no operator, is stray. -/
theorem isStray_of_operator? {c : Char} {behind : Option Char} (notBlank : isBlank c = false)
    (notPart : isWordPart c = false) (unknown : operator? c behind = none) :
    IsStray none c behind := by
  by_cases known : InAlphabet c
  · rcases known.cases with blank | part | sign | half | gt
    · rw [blank] at notBlank
      contradiction
    · rw [part] at notPart
      contradiction
    · exact absurd unknown (operator?_ne_none sign behind)
    · refine Or.inr (Or.inl ⟨half, ?_⟩)
      rintro rfl
      exact operator?_half half unknown
    · exact Or.inr (Or.inr ⟨gt, by simp, by simp⟩)
  · exact Or.inl known

/-- A character that the lexer rejects is stray, and decides of no other whether it is. -/
theorem munch_stray {text : List Char} {c : Char} (notBlank : ∀ d ∈ text.head?, isBlank d = false)
    (found : munch text = .stray c) :
    ∃ rest, text = c :: rest ∧ IsStray none c rest.head? ∧
      (rest.head? = some '>' → c ≠ '|' ∧ c ≠ '-') := by
  cases text with
  | nil => cases found
  | cons d rest =>
    have notBlank : isBlank d = false := notBlank d rfl
    rw [munch] at found
    split at found
    · cases found
    · rename_i notDigit
      split at found
      · cases found
      · rename_i notStart
        split at found
        · cases found
        · rename_i operator
          cases found
          have notPart : isWordPart c = false := by
            rw [isWordPart, eq_false_of_ne_true notStart, eq_false_of_ne_true notDigit,
              Bool.or_false]
          refine ⟨rest, rfl, isStray_of_operator? notBlank notPart operator, ?_⟩
          intro next
          rw [next] at operator
          exact ⟨fun bar => operator?_half (Or.inl bar) operator,
            fun dash => operator?_half (Or.inr dash) operator⟩

/-! ## Reading on behind errors -/

theorem Position.line_advance (p : Position) (chars : List Char) :
    (p.advance chars).line = p.line + chars.count '\n' := by
  induction chars generalizing p with
  | nil => rfl
  | cons c chars ih =>
    rw [advance_cons, ih, after, List.count_cons]
    by_cases feed : c = '\n'
    · simp only [feed, ↓reduceIte, beq_self_eq_true]
      omega
    · simp [feed]

namespace Lexer

/-- Whether an answer is the end of the input. -/
def isEnd : Except LexError Token → Bool
  | .ok t => t.kind = .endOfInput
  | .error _ => false

/-- The answers of a lexer up to the end of the input, errors among them. -/
def drain (lexer : Lexer) : List (Except LexError Token) :=
  if isEnd lexer.nextToken.1 then
    [lexer.nextToken.1]
  else
    lexer.nextToken.1 :: lexer.nextToken.2.drain
termination_by lexer.rest.length
decreasing_by
  rename_i ending
  apply nextToken_progress
  intro t found last
  rw [found] at ending
  exact ending (decide_eq_true last)

/-- The error that an answer is, if it is one. -/
def error? {α : Type} : Except LexError α → Option LexError
  | .ok _ => none
  | .error e => some e

/-- The strays of what a lexer has left. -/
def straysLeft (lexer : Lexer) : List LexError := straysFrom none lexer.place.line lexer.rest

theorem straysLeft_skip {lexer : Lexer} {chars rest : List Char} (clean : Clean chars)
    (eq : lexer.rest = chars ++ rest) : (lexer.skip chars).straysLeft = lexer.straysLeft := by
  unfold straysLeft
  rw [rest_skip, eq, List.drop_left, clean, skip, Position.line_advance]

theorem straysLeft_skipBlanks (lexer : Lexer) :
    lexer.skipBlanks.straysLeft = lexer.straysLeft := by
  refine straysLeft_skip (clean_of_isPlain ?_) List.takeWhile_append_dropWhile.symm
  rw [List.all_eq_true]
  intro c mem
  exact isPlain_of_isBlank (List.all_eq_true.mp List.all_takeWhile c mem)

theorem isBlank_head_skipBlanks (lexer : Lexer) :
    ∀ c ∈ lexer.skipBlanks.rest.head?, isBlank c = false := by
  intro c mem
  have head := List.head?_dropWhile_not isBlank lexer.rest
  rw [rest_skipBlanks] at mem
  rw [mem] at head
  exact head

/-- A read reports the first of the strays, or it is a token and leaves them all. -/
theorem straysLeft_nextToken (lexer : Lexer) :
    lexer.straysLeft = (error? lexer.nextToken.1).toList ++ lexer.nextToken.2.straysLeft := by
  rw [← straysLeft_skipBlanks]
  unfold nextToken
  dsimp only
  split
  · rfl
  · rename_i kind chars found
    obtain ⟨clean, rest, eq⟩ := munch_lexeme_clean found
    exact (straysLeft_skip clean eq).symm
  · rename_i c found
    obtain ⟨rest, eq, stray, apart⟩ := munch_stray lexer.isBlank_head_skipBlanks found
    have behind (line : Nat) : straysFrom (some c) line rest = straysFrom none line rest :=
      straysFrom_of_apart line (by simpa using apart)
    unfold straysLeft
    rw [rest_skip, eq, straysFrom, if_pos stray, behind, skip, Position.line_advance]
    rfl

/-- The end of the input is read only where no strays are left. -/
theorem straysLeft_of_isEnd {lexer : Lexer} (ending : isEnd lexer.nextToken.1) :
    lexer.straysLeft = [] := by
  rw [← straysLeft_skipBlanks]
  unfold nextToken at ending
  dsimp only at ending
  split at ending
  · rename_i nothing
    rw [straysLeft, munch_eq_nothing.mp nothing]
    rfl
  · rename_i found
    exact absurd (of_decide_eq_true ending) (munch_lexeme found).1
  · cases ending

theorem filterMap_error?_cons (answer : Except LexError Token)
    (answers : List (Except LexError Token)) :
    (answer :: answers).filterMap error? = (error? answer).toList ++ answers.filterMap error? := by
  cases answer <;> rfl

/-- The errors up to the end of the input are the strays that were left. -/
theorem filterMap_drain (lexer : Lexer) : lexer.drain.filterMap error? = lexer.straysLeft := by
  induction lexer using drain.induct with
  | case1 lexer ending =>
    have read := lexer.straysLeft_nextToken
    rw [straysLeft_of_isEnd ending] at read ⊢
    rw [drain, if_pos ending, filterMap_error?_cons, (List.append_eq_nil_iff.mp read.symm).1]
    rfl
  | case2 lexer ending ih =>
    rw [drain, if_neg ending, filterMap_error?_cons, ih, ← straysLeft_nextToken]

theorem exists_drain (lexer : Lexer) :
    ∃ answers last, lexer.drain = answers ++ [.ok last] ∧ last.kind = .endOfInput ∧
      ∀ t, .ok t ∈ answers → t.kind ≠ .endOfInput := by
  induction lexer using drain.induct with
  | case1 lexer ending =>
    rw [drain, if_pos ending]
    cases answer : lexer.nextToken.1 with
    | ok last =>
      rw [answer] at ending
      exact ⟨[], last, rfl, of_decide_eq_true ending, by simp⟩
    | error e =>
      rw [answer] at ending
      cases ending
  | case2 lexer ending ih =>
    obtain ⟨answers, last, eq, kind, others⟩ := ih
    rw [drain, if_neg ending, eq]
    refine ⟨lexer.nextToken.1 :: answers, last, rfl, kind, ?_⟩
    intro t mem
    rcases List.mem_cons.mp mem with head | tail
    · intro final
      rw [← head] at ending
      exact ending (decide_eq_true final)
    · exact others t tail

/-- A scan ends at the first stray that is left, or at the end of the input. -/
theorem error?_scanFrom (lexer : Lexer) (read : List Token)
    (kinds : ∀ t ∈ read, t.kind ≠ .endOfInput) :
    error? (lexer.scanFrom read kinds).stop.answer = lexer.straysLeft.head? := by
  induction lexer, read, kinds using scanFrom.induct with
  | case1 lexer read kinds error behind answer =>
    rw [straysLeft_nextToken, answer, scanFrom_of_error kinds answer]
    rfl
  | case2 lexer read kinds t behind answer last =>
    have nothing : lexer.straysLeft = [] :=
      straysLeft_of_isEnd (by rw [answer]; exact decide_eq_true last)
    rw [nothing, scanFrom_of_last kinds answer last]
    rfl
  | case3 lexer read kinds t behind answer more ih =>
    rw [straysLeft_nextToken, answer, scanFrom_of_more kinds answer more]
    exact ih

end Lexer

/-- The error of a buffer that a scan does not fill is the one that ended the scan. -/
theorem TokenBuffer.error?_ofScan (scan : Lexer.Scan) :
    Lexer.error? (ofScan scan) = Lexer.error? scan.stop.answer := by
  unfold ofScan
  split
  · rename_i stop
    rw [stop]
    rfl
  · rename_i stop
    rw [stop]
    rfl

theorem TokenBuffer.error?_ofSource (source : String) :
    Lexer.error? (ofSource source) = (strays source.toList).head? := by
  rw [ofSource, ofLexer, error?_ofScan, Lexer.scan, Lexer.error?_scanFrom, strays_eq_straysFrom]
  rfl

/-- Reading on to the end of the input reports the stray characters of a source, each once
and in order. There are tokens of the source if it has no strays; else the first is the error. -/
theorem Lexer.drain_ofSource (source : String) :
    (∃ answers last, (Lexer.ofSource source).drain = answers ++ [.ok last] ∧
      last.kind = .endOfInput ∧ ∀ t, .ok t ∈ answers → t.kind ≠ .endOfInput) ∧
    (Lexer.ofSource source).drain.filterMap error? = strays source.toList ∧
    ((∃ buffer, TokenBuffer.ofSource source = .ok buffer) ↔ strays source.toList = []) ∧
    ∀ e, TokenBuffer.ofSource source = .error e ↔ (strays source.toList).head? = some e := by
  have first := TokenBuffer.error?_ofSource source
  refine ⟨exists_drain _, ?_, ?_, ?_⟩
  · rw [filterMap_drain, strays_eq_straysFrom]
    rfl
  · rw [← List.head?_eq_none_iff, ← first]
    cases TokenBuffer.ofSource source <;> simp [error?]
  · intro e
    rw [← first]
    cases TokenBuffer.ofSource source <;> simp [error?]

end PipeScript
