import PipeScript.Proofs.SyntaxTree
import PipeScript.Token.Buffer

/-!
# Texts that spell tokens

`Kind.Spells` says which lexemes a kind of token has, and a `Spelling` is such a lexeme.
`Written leaves text` says that a text spells some lexemes one behind the other, any two of
them apart by blanks; blanks may also stand before the first and behind the last one.

`Lexer.Scans` is a whole scan as a relation, one read at a time. `Written.scans` says that
the lexer reads exactly the lexemes off a text that a text is written for: however many
blanks there are, and of whatever sort, none is taken for a part of a lexeme, and no lexeme
runs on into the next one.
-/

namespace PipeScript

/-! ## Lexemes -/

/-- A letter or an underscore, and letters, underscores and digits behind it. -/
def IsWord : List Char → Prop
  | [] => False
  | c :: rest => isWordStart c ∧ rest.all isWordPart

theorem IsWord.exists_cons {chars : List Char} (word : IsWord chars) :
    ∃ c rest, chars = c :: rest ∧ isWordStart c ∧ rest.all isWordPart := by
  cases chars with
  | nil => exact word.elim
  | cons c rest => exact ⟨c, rest, rfl, word⟩

instance : DecidablePred IsWord
  | [] => inferInstanceAs (Decidable False)
  | c :: rest => inferInstanceAs (Decidable (isWordStart c ∧ rest.all isWordPart))

/-- The lexemes that a kind of token has. -/
def Kind.Spells : Kind → List Char → Prop
  | .endOfInput, _ => False
  | .number, chars => chars ≠ [] ∧ chars.all isDigit
  | .identifier, chars => IsWord chars ∧ chars ≠ Kind.letKeyword.spelling
  | kind, chars => chars = kind.spelling

instance (kind : Kind) : DecidablePred kind.Spells := fun chars =>
  match kind with
  | .endOfInput => inferInstanceAs (Decidable False)
  | .number => inferInstanceAs (Decidable (chars ≠ [] ∧ chars.all isDigit))
  | .identifier => inferInstanceAs (Decidable (IsWord chars ∧ chars ≠ Kind.letKeyword.spelling))
  | .letKeyword | .pipe | .arrow | .equality | .assign | .leftBrace | .rightBrace | .leftParen
  | .rightParen => inferInstanceAs (Decidable (chars = Kind.spelling _))

/-- The lexemes of one kind of token. -/
abbrev Spelling (kind : Kind) := { chars : List Char // kind.Spells chars }

/-- Nothing is written for the end of the input. -/
theorem kind_ne_endOfInput {kind : Kind} (spelling : Spelling kind) : kind ≠ .endOfInput := by
  rintro rfl
  exact spelling.2

/-- `Written leaves text`: the text spells the leaves in order. Behind each of them it ends,
or goes on with a blank. -/
inductive Written : List (Leaf Spelling) → List Char → Prop
  | nothing : Written [] []
  | blank {leaves : List (Leaf Spelling)} {c : Char} {text : List Char} :
    isBlank c → Written leaves text → Written leaves (c :: text)
  | lexeme {leaf : Leaf Spelling} {leaves : List (Leaf Spelling)} {text : List Char} :
    (∀ c ∈ text.head?, isBlank c) → Written leaves text →
    Written (leaf :: leaves) (leaf.2.1 ++ text)

namespace Written

/-- The last leaf may end the text. -/
theorem last (leaf : Leaf Spelling) : Written [leaf] leaf.2.1 := by
  have written : Written [leaf] (leaf.2.1 ++ []) := lexeme (fun _ mem => nomatch mem) nothing
  rwa [List.append_nil] at written

theorem blanks {leaves : List (Leaf Spelling)} {gap text : List Char}
    (blank : gap.all isBlank) (written : Written leaves text) : Written leaves (gap ++ text) := by
  induction gap with
  | nil => exact written
  | cons c gap ih =>
    rw [List.all_cons, Bool.and_eq_true] at blank
    exact Written.blank blank.1 (ih blank.2)

/-- Between a leaf and the next one there is any run of blanks that is not empty. -/
theorem apart (leaf : Leaf Spelling) (gap : List Char) (nonempty : gap ≠ [])
    (blank : gap.all isBlank) {leaves : List (Leaf Spelling)} {text : List Char}
    (written : Written leaves text) : Written (leaf :: leaves) (leaf.2.1 ++ (gap ++ text)) := by
  obtain ⟨c, gap, rfl⟩ := List.exists_cons_of_ne_nil nonempty
  refine lexeme ?_ (blanks blank written)
  intro d mem
  cases mem
  exact List.all_eq_true.mp blank c List.mem_cons_self

end Written

/-! ## Reading one lexeme -/

/-- A run of characters ends where one follows that does not belong to it. -/
theorem takeWhile_append_of_head {p : Char → Bool} {chars rest : List Char}
    (all : chars.all p) (apart : ∀ c ∈ rest.head?, p c = false) :
    (chars ++ rest).takeWhile p = chars := by
  rw [List.takeWhile_append_of_pos (List.all_eq_true.mp all)]
  cases rest with
  | nil => simp
  | cons c rest =>
    rw [List.takeWhile_cons_of_neg (by simp [apart c rfl]), List.append_nil]

/-- Two texts that start with such runs are the same only if the runs and what follows are. -/
theorem append_inj_of_head {p : Char → Bool} {chars others rest behind : List Char}
    (all : chars.all p) (allToo : others.all p) (apart : ∀ c ∈ rest.head?, p c = false)
    (apartToo : ∀ c ∈ behind.head?, p c = false) (same : chars ++ rest = others ++ behind) :
    chars = others ∧ rest = behind := by
  have runs := congrArg (List.takeWhile p) same
  rw [takeWhile_append_of_head all apart, takeWhile_append_of_head allToo apartToo] at runs
  exact ⟨runs, List.append_cancel_left (runs ▸ same)⟩

theorem isWordPart_of_isBlank {c : Char} (blank : isBlank c) : isWordPart c = false := by
  simp only [isBlank, decide_eq_true_eq] at blank
  rcases blank with rfl | rfl | rfl | rfl <;> rfl

theorem isDigit_of_isBlank {c : Char} (blank : isBlank c) : isDigit c = false :=
  (Bool.or_eq_false_iff.mp (isWordPart_of_isBlank blank)).2

/-- No character both starts a word and is a digit. -/
theorem isDigit_of_isWordStart {c : Char} (start : isWordStart c) : isDigit c = false := by
  simp only [isWordStart, isDigit, decide_eq_true_eq, decide_eq_false_iff_not, Char.le_def,
    UInt32.le_iff_toNat_le] at start ⊢
  rcases start with lower | upper | rfl
  · intro digit
    exact absurd (Nat.le_trans lower.1 digit.2) (by decide : ¬ 'a'.toNat ≤ '9'.toNat)
  · intro digit
    exact absurd (Nat.le_trans upper.1 digit.2) (by decide : ¬ 'A'.toNat ≤ '9'.toNat)
  · decide

/-- Whether a character right behind a lexeme of this kind is read as a part of a longer one. -/
def Kind.goesOn : Kind → Char → Bool
  | .number, c => isDigit c
  | .identifier, c | .letKeyword, c => isWordPart c
  | .assign, c => c = '='
  | _, _ => false

/-- No lexeme goes on with a blank. -/
theorem Kind.goesOn_of_isBlank (kind : Kind) {c : Char} (blank : isBlank c) :
    kind.goesOn c = false := by
  have notPart : isWordPart c = false := isWordPart_of_isBlank blank
  cases kind with
  | number => exact isDigit_of_isBlank blank
  | identifier => exact notPart
  | letKeyword => exact notPart
  | assign =>
    refine decide_eq_false ?_
    rintro rfl
    exact absurd blank (by decide)
  | _ => rfl

/-- The lexer takes a lexeme in full, if the text does not go on with it. -/
theorem munch_of_spells {kind : Kind} {chars rest : List Char} (spells : kind.Spells chars)
    (stops : ∀ c ∈ rest.head?, kind.goesOn c = false) :
    munch (chars ++ rest) = .lexeme kind chars := by
  cases kind with
  | endOfInput => exact spells.elim
  | number =>
    obtain ⟨nonempty, digits⟩ := spells
    obtain ⟨c, cs, rfl⟩ := List.exists_cons_of_ne_nil nonempty
    rw [List.all_cons, Bool.and_eq_true] at digits
    rw [List.cons_append, munch, if_pos digits.1, takeWhile_append_of_head digits.2 stops]
  | identifier =>
    obtain ⟨word, notLet⟩ := spells
    obtain ⟨c, cs, rfl, start, parts⟩ := word.exists_cons
    rw [List.cons_append, munch, if_neg (by simp [isDigit_of_isWordStart start]), if_pos start,
      takeWhile_append_of_head parts stops]
    exact congrArg (Munch.lexeme · _) (if_neg notLet)
  | letKeyword =>
    cases spells
    have word : (['e', 't'] ++ rest).takeWhile isWordPart = ['e', 't'] :=
      takeWhile_append_of_head rfl stops
    change Munch.lexeme (Kind.ofWord ('l' :: (['e', 't'] ++ rest).takeWhile isWordPart))
      ('l' :: (['e', 't'] ++ rest).takeWhile isWordPart) = _
    rw [word]
    rfl
  | assign =>
    cases spells
    have single : operator? '=' rest.head? = some .assign := by
      unfold operator?
      split
      case h_3 next => exact absurd (stops _ next) (by decide)
      all_goals simp_all
    rw [show Kind.assign.spelling ++ rest = '=' :: rest from rfl, munch, if_neg (by decide),
      if_neg (by decide), single]
  | _ =>
    cases spells
    rfl

/-- The lexer takes a lexeme in full, if a blank follows or nothing. -/
theorem munch_spelling {kind : Kind} (spelling : Spelling kind) {rest : List Char}
    (apart : ∀ c ∈ rest.head?, isBlank c) :
    munch (spelling.1 ++ rest) = .lexeme kind spelling.1 :=
  munch_of_spells spelling.2 fun c mem => kind.goesOn_of_isBlank (apart c mem)

/-- A lexeme starts with a character that is no blank. -/
theorem head_not_blank {kind : Kind} (spelling : Spelling kind) :
    ∃ c rest, spelling.1 = c :: rest ∧ isBlank c = false := by
  obtain ⟨chars, spells⟩ := spelling
  have notBlank {c : Char} (part : isWordPart c) : isBlank c = false := by
    rw [← Bool.not_eq_true]
    intro blank
    rw [isWordPart_of_isBlank blank] at part
    contradiction
  cases kind with
  | endOfInput => exact spells.elim
  | number =>
    obtain ⟨nonempty, digits⟩ := spells
    obtain ⟨c, cs, rfl⟩ := List.exists_cons_of_ne_nil nonempty
    have digit := List.all_eq_true.mp digits c List.mem_cons_self
    exact ⟨c, cs, rfl, notBlank (by rw [isWordPart, digit, Bool.or_true])⟩
  | identifier =>
    obtain ⟨c, cs, rfl, start, -⟩ := spells.1.exists_cons
    exact ⟨c, cs, rfl, notBlank (by rw [isWordPart, start, Bool.true_or])⟩
  | _ =>
    cases spells
    exact ⟨_, _, rfl, by decide⟩

namespace Lexer

theorem skipBlanks_of_head {lexer : Lexer} {c : Char} {rest : List Char}
    (eq : lexer.rest = c :: rest) (notBlank : isBlank c = false) : lexer.skipBlanks = lexer := by
  rw [skipBlanks, eq, List.takeWhile_cons_of_neg (by simp [notBlank])]
  rfl

/-- A blank in front makes no difference to what is read. -/
theorem nextToken_of_blank {lexer : Lexer} {c : Char} {rest : List Char}
    (eq : lexer.rest = c :: rest) (blank : isBlank c) :
    lexer.nextToken = (lexer.skip [c]).nextToken := by
  have same : lexer.skipBlanks = (lexer.skip [c]).skipBlanks := by
    simp only [skipBlanks, skip, eq, List.takeWhile_cons_of_pos blank]
    rfl
  rw [nextToken, same]
  rfl

/-- A lexeme that stands at the head of the text is read. -/
theorem nextToken_of_spelling {lexer : Lexer} {kind : Kind} (spelling : Spelling kind)
    {rest : List Char} (eq : lexer.rest = spelling.1 ++ rest)
    (apart : ∀ c ∈ rest.head?, isBlank c) :
    lexer.nextToken = (.ok (.ofLexeme kind spelling.1 lexer.place), lexer.skip spelling.1) := by
  obtain ⟨c, cs, head, notBlank⟩ := head_not_blank spelling
  have skipped : lexer.skipBlanks = lexer := by
    rw [head, List.cons_append] at eq
    exact skipBlanks_of_head eq notBlank
  rw [nextToken, skipped, eq, munch_spelling spelling apart]

theorem nextToken_of_nil {lexer : Lexer} (eq : lexer.rest = []) :
    lexer.nextToken = (.ok (.endAt lexer.place), lexer) := by
  have skipped : lexer.skipBlanks = lexer := by
    rw [skipBlanks, eq]
    rfl
  rw [nextToken, skipped, eq]
  rfl

/-! ## Scanning -/

/-- A lexer gives some tokens, one by one, and then the end of the input. -/
inductive Scans : Lexer → List Token → Token → Prop
  | done {lexer behind : Lexer} {last : Token} : lexer.nextToken = (.ok last, behind) →
    last.kind = .endOfInput → Scans lexer [] last
  | more {lexer behind : Lexer} {t last : Token} {ts : List Token} :
    lexer.nextToken = (.ok t, behind) → t.kind ≠ .endOfInput → Scans behind ts last →
    Scans lexer (t :: ts) last

theorem Scans.of_nextToken_eq {lexer other : Lexer} {ts : List Token} {last : Token}
    (same : other.nextToken = lexer.nextToken) (scans : lexer.Scans ts last) :
    other.Scans ts last := by
  cases scans with
  | done read kind => exact Scans.done (same.trans read) kind
  | more read kind rest => exact Scans.more (same.trans read) kind rest

theorem scans_nil {lexer : Lexer} {last : Token} :
    lexer.Scans [] last ↔ lexer.nextToken.1 = .ok last ∧ last.kind = .endOfInput := by
  constructor
  · rintro (⟨answer, kind⟩ | _)
    exact ⟨congrArg Prod.fst answer, kind⟩
  · rintro ⟨answer, kind⟩
    exact Scans.done (Prod.ext answer rfl) kind

theorem scans_cons {lexer : Lexer} {t last : Token} {ts : List Token} :
    lexer.Scans (t :: ts) last ↔
      lexer.nextToken.1 = .ok t ∧ t.kind ≠ .endOfInput ∧ lexer.nextToken.2.Scans ts last := by
  constructor
  · rintro (_ | ⟨answer, kind, others⟩)
    rw [answer]
    exact ⟨rfl, kind, others⟩
  · rintro ⟨answer, kind, others⟩
    exact Scans.more (Prod.ext answer rfl) kind others

instance (answer : Except LexError Token) (t : Token) : Decidable (answer = .ok t) :=
  match answer with
  | .ok u => decidable_of_iff (u = t) (by rw [Except.ok.injEq])
  | .error _ => isFalse nofun

/-- Whether a lexer gives some tokens is decided by asking it for one after the other. -/
instance decidableScans (ts : List Token) (last : Token) :
    ∀ lexer : Lexer, Decidable (lexer.Scans ts last) :=
  match ts with
  | [] => fun _ => decidable_of_iff _ scans_nil.symm
  | _ :: ts => fun lexer =>
    have := decidableScans ts last lexer.nextToken.2
    decidable_of_iff _ scans_cons.symm

/-- A scan collects the tokens behind those that it has read. -/
theorem Scans.scanFrom {lexer : Lexer} {ts : List Token} {last : Token}
    (scans : lexer.Scans ts last) (read : List Token) (kinds : ∀ t ∈ read, t.kind ≠ .endOfInput) :
    (lexer.scanFrom read kinds).tokens = read.reverse ++ ts ∧
      ∃ kind, (lexer.scanFrom read kinds).stop = .finished last kind := by
  induction scans generalizing read with
  | done answer kind =>
    rw [scanFrom_of_last kinds answer kind]
    exact ⟨(List.append_nil _).symm, kind, rfl⟩
  | more answer kind _ ih =>
    rw [scanFrom_of_more kinds answer kind]
    have rest := ih _ (List.forall_mem_cons.mpr ⟨kind, kinds⟩)
    rw [List.reverse_cons, List.append_assoc] at rest
    exact rest

/-- And what a scan has collected up to the end of the input, the lexer gives one by one. -/
theorem Scans.of_scanFrom (lexer : Lexer) (read : List Token)
    (kinds : ∀ t ∈ read, t.kind ≠ .endOfInput) {last : Token} {kind : last.kind = .endOfInput}
    (stop : (lexer.scanFrom read kinds).stop = .finished last kind) :
    ∃ ts, (lexer.scanFrom read kinds).tokens = read.reverse ++ ts ∧ lexer.Scans ts last := by
  induction lexer, read, kinds using scanFrom.induct with
  | case1 lexer read kinds error behind answer =>
    rw [scanFrom_of_error kinds answer] at stop
    cases stop
  | case2 lexer read kinds t behind answer ending =>
    rw [scanFrom_of_last kinds answer ending] at stop ⊢
    cases stop
    exact ⟨[], (List.append_nil _).symm, Scans.done answer ending⟩
  | case3 lexer read kinds t behind answer more ih =>
    rw [scanFrom_of_more kinds answer more] at stop ⊢
    obtain ⟨ts, tokens, scans⟩ := ih stop
    exact ⟨t :: ts, by rw [tokens]; simp, Scans.more answer more scans⟩

/-- The tokens of a scan end where the input does, and not before. -/
theorem Scans.kinds {lexer : Lexer} {ts : List Token} {last : Token} (scans : lexer.Scans ts last) :
    (∀ t ∈ ts, t.kind ≠ .endOfInput) ∧ last.kind = .endOfInput := by
  induction scans with
  | done _ kind => exact ⟨nofun, kind⟩
  | more _ kind _ ih => exact ⟨List.forall_mem_cons.mpr ⟨kind, ih.1⟩, ih.2⟩

end Lexer

/-- A lexer fills a buffer with the tokens that it gives up to the end of the input. -/
theorem TokenBuffer.ofLexer_eq_ok {lexer : Lexer} {buffer : TokenBuffer} :
    ofLexer lexer = .ok buffer ↔ lexer.Scans buffer.body buffer.last := by
  constructor
  · intro filled
    rw [ofLexer, ofScan] at filled
    split at filled
    · rename_i stop
      cases filled
      obtain ⟨ts, tokens, scans⟩ := Lexer.Scans.of_scanFrom lexer [] (by simp) stop
      rw [List.reverse_nil, List.nil_append] at tokens
      rw [← tokens] at scans
      exact scans
    · cases filled
  · intro scans
    obtain ⟨tokens, kind, stop⟩ := scans.scanFrom [] (by simp)
    rw [ofLexer, ofScan]
    split
    · rename_i found
      have same := stop.symm.trans found
      cases same
      obtain ⟨body, last, body_kind, last_kind⟩ := buffer
      simp only [Except.ok.injEq, mk.injEq, and_true]
      exact tokens
    · rename_i found
      have other := stop.symm.trans found
      cases other

/-- What a lexer gives up to the end of the input is a token buffer. -/
theorem TokenBuffer.exists_ofLexer {lexer : Lexer} {ts : List Token} {last : Token}
    (scans : lexer.Scans ts last) :
    ∃ buffer, ofLexer lexer = .ok buffer ∧ buffer.body = ts :=
  ⟨⟨ts, last, scans.kinds.1, scans.kinds.2⟩, ofLexer_eq_ok.mpr scans, rfl⟩

/-! ## Tokens and their spelling -/

/-- The tokens of one kind that are spelled the way the kind is. -/
abbrev Lexeme (kind : Kind) := { t : TokenOf kind // kind.Spells t.1.lexeme.toList }

namespace Lexeme

/-- The token alone. -/
def token (kind : Kind) (lexeme : Lexeme kind) : TokenOf kind := lexeme.1

/-- The spelling of a token. -/
def spelling (kind : Kind) (lexeme : Lexeme kind) : Spelling kind :=
  ⟨lexeme.1.1.lexeme.toList, lexeme.2⟩

/-- The token that a spelling stands for at a place. -/
def ofSpelling {kind : Kind} (s : Spelling kind) (place : Position) : Lexeme kind :=
  ⟨⟨.ofLexeme kind s.1 place, rfl⟩, (congrArg kind.Spells String.toList_ofList).mpr s.2⟩

theorem spelling_ofSpelling {kind : Kind} (s : Spelling kind) (place : Position) :
    spelling kind (ofSpelling s place) = s :=
  Subtype.ext String.toList_ofList

end Lexeme

/-- The lexer reads off a text the leaves that it is written for. -/
theorem Written.scans {leaves : List (Leaf Spelling)} {text : List Char}
    (written : Written leaves text) (lexer : Lexer) (eq : lexer.rest = text) :
    ∃ (lexemes : List (Leaf Lexeme)) (last : Token),
      lexemes.map (Leaf.map Lexeme.spelling) = leaves ∧
      lexer.Scans (lexemes.map fun leaf => leaf.2.1.1) last := by
  induction written generalizing lexer with
  | nothing => exact ⟨[], _, rfl, Lexer.Scans.done (Lexer.nextToken_of_nil eq) rfl⟩
  | @blank _ c _ blank _ ih =>
    obtain ⟨lexemes, last, spelled, scans⟩ :=
      ih (lexer.skip [c]) (by rw [Lexer.rest_skip, eq]; rfl)
    exact ⟨lexemes, last, spelled, scans.of_nextToken_eq (Lexer.nextToken_of_blank eq blank)⟩
  | @lexeme leaf _ _ apart _ ih =>
    obtain ⟨lexemes, last, rfl, scans⟩ :=
      ih (lexer.skip leaf.2.1) (by rw [Lexer.rest_skip, eq, List.drop_left])
    refine ⟨⟨leaf.1, .ofSpelling leaf.2 lexer.place⟩ :: lexemes, last, ?_, ?_⟩
    · rw [List.map_cons, Leaf.map, Lexeme.spelling_ofSpelling]
    · exact Lexer.Scans.more (Lexer.nextToken_of_spelling leaf.2 eq apart)
        (kind_ne_endOfInput leaf.2) scans

end PipeScript
