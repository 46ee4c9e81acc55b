import PipeScript.Proofs.Strays
import PipeScript.Proofs.WrittenText

/-!
# What the tokens of a source say about it

`munch_eq_lexeme` says when the lexer takes a lexeme off the head of a text: the text starts
with it, and does not go on with it. Behind it comes the next one, with blanks before it or
without.

A read looks at the head of what a lexer has left, and `Lexer.Read` says what it can be: the end
of the input, a lexeme behind some blanks, or an error.

`Tiled place text ts` says this of all tokens at once: from a place on, the text is the lexemes
of the tokens one behind the other, blanks between them, and each of them stops where it is
followed by something else. It is a relation between texts and tokens and knows no lexer. A
source has the tokens that it is tiled with and no others (`TokenBuffer.ofSource_eq_ok`).

`TokenBuffer.ofSource_transcribes` is what a reader of a buffer can rely on: nothing but blanks
is lost, every span leads back to its lexeme, and kind and value are those of the lexeme.
-/

namespace PipeScript

/-! ## One lexeme -/

namespace Kind

/-- A word is a lexeme of the kind that it has. -/
theorem ofWord_spells {word : List Char} (isWord : IsWord word) : (ofWord word).Spells word := by
  unfold ofWord
  split
  · assumption
  · rename_i notLet
    exact ⟨isWord, notLet⟩

theorem goesOn_ofWord (word : List Char) : (ofWord word).goesOn = isWordPart := by
  unfold ofWord
  split <;> rfl

end Kind

theorem head?_dropWhile {p : Char → Bool} {text : List Char} :
    ∀ c ∈ (text.dropWhile p).head?, p c = false := by
  intro c mem
  have head := List.head?_dropWhile_not p text
  rw [Option.mem_def.mp mem] at head
  exact head

/-- An operator is a lexeme as it is spelled, and a single `=` is one only where no other one
follows. -/
theorem operator?_spells {c : Char} {rest : List Char} {kind : Kind}
    (found : operator? c rest.head? = some kind) :
    ∃ tail, c :: rest = kind.spelling ++ tail ∧ kind.Spells kind.spelling ∧
      ∀ d ∈ tail.head?, kind.goesOn d = false := by
  unfold operator? at found
  split at found
  all_goals cases found
  case h_1 next | h_2 next | h_3 next =>
    obtain ⟨tail, rfl⟩ := List.head?_eq_some_iff.mp next
    exact ⟨tail, rfl, rfl, fun _ _ => rfl⟩
  case h_4 other =>
    refine ⟨rest, rfl, rfl, ?_⟩
    intro d next
    exact decide_eq_false fun equal => other (equal ▸ next)
  all_goals exact ⟨rest, rfl, rfl, fun _ _ => rfl⟩

/-- The lexer takes a lexeme off the head of a text if the text starts with that lexeme and
does not go on with it. -/
theorem munch_eq_lexeme {text chars : List Char} {kind : Kind} :
    munch text = .lexeme kind chars ↔
      ∃ rest, text = chars ++ rest ∧ kind.Spells chars ∧
        ∀ c ∈ rest.head?, kind.goesOn c = false := by
  constructor
  · intro found
    cases text with
    | nil => cases found
    | cons c rest =>
      rw [munch] at found
      split at found
      · rename_i digit
        cases found
        refine ⟨rest.dropWhile isDigit, ?_, ⟨List.cons_ne_nil _ _, ?_⟩, head?_dropWhile⟩
        · rw [List.cons_append, List.takeWhile_append_dropWhile]
        · rw [List.all_cons, digit, List.all_takeWhile]
          rfl
      · split at found
        · rename_i start
          cases found
          have word : IsWord (c :: rest.takeWhile isWordPart) := ⟨start, List.all_takeWhile⟩
          refine ⟨rest.dropWhile isWordPart, ?_, Kind.ofWord_spells word, ?_⟩
          · rw [List.cons_append, List.takeWhile_append_dropWhile]
          · rw [Kind.goesOn_ofWord]
            exact head?_dropWhile
        · split at found
          · rename_i operator
            cases found
            exact operator?_spells operator
          · cases found
  · rintro ⟨rest, rfl, spells, stops⟩
    exact munch_of_spells spells stops

/-- A lexeme has one kind. -/
theorem Kind.Spells.unique {kind other : Kind} {chars : List Char} (spells : kind.Spells chars)
    (spellsToo : other.Spells chars) : kind = other := by
  have munched : munch (chars ++ []) = .lexeme kind chars := munch_of_spells spells (by simp)
  rw [munch_of_spells spellsToo (by simp)] at munched
  cases munched
  rfl

/-- What starts with a lexeme does not start with a blank. -/
theorem Kind.Spells.head_not_blank {kind : Kind} {chars : List Char} (spells : kind.Spells chars)
    (rest : List Char) : ∀ c ∈ (chars ++ rest).head?, isBlank c = false := by
  obtain ⟨c, cs, eq, notBlank⟩ := PipeScript.head_not_blank ⟨chars, spells⟩
  rintro d mem
  rw [show chars = c :: cs from eq] at mem
  cases mem
  exact notBlank

/-! ## One read -/

namespace Lexer

theorem skip_append (lexer : Lexer) (a b : List Char) :
    lexer.skip (a ++ b) = (lexer.skip a).skip b := by
  simp only [skip, List.length_append, List.drop_drop, Position.advance_append]

theorem skipBlanks_of_gap {lexer : Lexer} {gap rest : List Char} (eq : lexer.rest = gap ++ rest)
    (blank : gap.all isBlank) (apart : ∀ c ∈ rest.head?, isBlank c = false) :
    lexer.skipBlanks = lexer.skip gap := by
  rw [skipBlanks, eq, takeWhile_append_of_head blank apart]

/-- Behind nothing but blanks the end of the input is read. -/
theorem nextToken_of_blanks {lexer : Lexer} {gap : List Char} (eq : lexer.rest = gap)
    (blank : gap.all isBlank) :
    lexer.nextToken = (.ok (.endAt (lexer.place.advance gap)), lexer.skip gap) := by
  have whole : lexer.rest = gap ++ [] := by rw [eq, List.append_nil]
  have skipped := skipBlanks_of_gap whole blank (by simp)
  have nothing : (lexer.skip gap).rest = [] := by rw [rest_skip, whole, List.drop_left]
  rw [nextToken, skipped, munch_eq_nothing.mpr nothing]
  rfl

/-- Behind some blanks a lexeme is read that does not go on. -/
theorem nextToken_of_lexeme {lexer : Lexer} {gap chars rest : List Char} {kind : Kind}
    (eq : lexer.rest = gap ++ (chars ++ rest)) (blank : gap.all isBlank)
    (spells : kind.Spells chars) (stops : ∀ c ∈ rest.head?, kind.goesOn c = false) :
    lexer.nextToken = (.ok (.ofLexeme kind chars (lexer.place.advance gap)),
      lexer.skip (gap ++ chars)) := by
  have skipped := skipBlanks_of_gap eq blank (spells.head_not_blank rest)
  have found : munch (lexer.skip gap).rest = .lexeme kind chars := by
    rw [rest_skip, eq, List.drop_left]
    exact munch_of_spells spells stops
  rw [nextToken, skipped, found, skip_append]
  rfl

/-- What a read takes in, what it answers, and where it leaves the lexer. -/
inductive Read (lexer : Lexer) : Except LexError Token → Lexer → Prop
  /-- Nothing is left but blanks. -/
  | last {gap : List Char} : lexer.rest = gap → gap.all isBlank →
    Read lexer (.ok (.endAt (lexer.place.advance gap))) (lexer.skip gap)
  | lexeme {gap chars rest : List Char} {kind : Kind} : lexer.rest = gap ++ (chars ++ rest) →
    gap.all isBlank → kind.Spells chars → (∀ c ∈ rest.head?, kind.goesOn c = false) →
    Read lexer (.ok (.ofLexeme kind chars (lexer.place.advance gap))) (lexer.skip (gap ++ chars))
  | stray {gap rest : List Char} {c : Char} : lexer.rest = gap ++ c :: rest →
    gap.all isBlank → isBlank c = false →
    Read lexer (.error ⟨c, (lexer.place.advance gap).line⟩) (lexer.skip (gap ++ [c]))

theorem place_skip (lexer : Lexer) (chars : List Char) :
    (lexer.skip chars).place = lexer.place.advance chars := rfl

theorem rest_skip_gap {lexer : Lexer} {gap chars rest : List Char}
    (eq : lexer.rest = gap ++ (chars ++ rest)) : (lexer.skip (gap ++ chars)).rest = rest := by
  rw [rest_skip, eq, ← List.append_assoc, List.drop_left]

/-- Every read is one of the three. -/
theorem read (lexer : Lexer) : lexer.Read lexer.nextToken.1 lexer.nextToken.2 := by
  have cut : lexer.rest = lexer.rest.takeWhile isBlank ++ lexer.skipBlanks.rest := by
    rw [rest_skipBlanks, List.takeWhile_append_dropWhile]
  have blank : (lexer.rest.takeWhile isBlank).all isBlank := List.all_takeWhile
  unfold nextToken
  dsimp only
  split
  · rename_i nothing
    rw [munch_eq_nothing.mp nothing, List.append_nil] at cut
    exact Read.last cut blank
  · rename_i kind chars found
    obtain ⟨rest, eq, spells, stops⟩ := munch_eq_lexeme.mp found
    rw [eq] at cut
    rw [skipBlanks, ← skip_append]
    exact Read.lexeme cut blank spells stops
  · rename_i c found
    obtain ⟨rest, eq, -⟩ := munch_stray lexer.isBlank_head_skipBlanks found
    have head := lexer.isBlank_head_skipBlanks
    rw [eq] at cut head
    rw [skipBlanks, ← skip_append]
    exact Read.stray cut blank (head c rfl)

theorem read_of_eq {lexer behind : Lexer} {answer : Except LexError Token}
    (eq : lexer.nextToken = (answer, behind)) : lexer.Read answer behind := by
  have h := lexer.read
  rw [eq] at h
  exact h

end Lexer

/-! ## All tokens -/

/-- `Tiled place text ts`: from a place on, the text is the lexemes of the tokens, with blanks
before each of them, and none of the lexemes goes on. The last token stands at the end. -/
inductive Tiled : Position → List Char → List Token → Prop
  | last {place : Position} {gap : List Char} :
    gap.all isBlank → Tiled place gap [.endAt (place.advance gap)]
  | lexeme {place : Position} {gap chars rest : List Char} {kind : Kind} {ts : List Token} :
    gap.all isBlank → kind.Spells chars → (∀ c ∈ rest.head?, kind.goesOn c = false) →
    Tiled (place.advance (gap ++ chars)) rest ts →
    Tiled place (gap ++ (chars ++ rest)) (.ofLexeme kind chars (place.advance gap) :: ts)

namespace Tiled

variable {place : Position} {text : List Char} {ts : List Token}

theorem ne_nil (tiled : Tiled place text ts) : ts ≠ [] := by
  cases tiled <;> exact List.cons_ne_nil _ _

/-- A lexer reads the tokens off a text that is tiled with them. -/
theorem scans (tiled : Tiled place text ts) {lexer : Lexer} {before : List Token} {last : Token}
    (placeEq : lexer.place = place) (restEq : lexer.rest = text) (split : ts = before ++ [last]) :
    lexer.Scans before last := by
  induction tiled generalizing lexer before with
  | @last place gap blank =>
    obtain ⟨rfl, rest⟩ := List.append_eq_singleton_iff.mp split.symm |>.resolve_right (by simp)
    cases rest
    subst placeEq
    exact Lexer.Scans.done (Lexer.nextToken_of_blanks restEq blank) rfl
  | @lexeme place gap chars rest kind ts blank spells stops tiled ih =>
    subst placeEq
    cases before with
    | nil =>
      cases split
      exact absurd rfl tiled.ne_nil
    | cons t before =>
      cases split
      have read := Lexer.nextToken_of_lexeme restEq blank spells stops
      refine Lexer.Scans.more read (kind_ne_endOfInput ⟨chars, spells⟩) (ih rfl ?_ rfl)
      exact Lexer.rest_skip_gap restEq

end Tiled

/-- And a text that a lexer reads tokens off is tiled with them. -/
theorem Lexer.Scans.tiled {lexer : Lexer} {ts : List Token} {last : Token}
    (scans : lexer.Scans ts last) : Tiled lexer.place lexer.rest (ts ++ [last]) := by
  induction scans with
  | @done lexer behind last read kind =>
    cases read_of_eq read with
    | last whole blank =>
      rw [whole]
      exact Tiled.last blank
    | lexeme _ _ spells _ => exact absurd kind (kind_ne_endOfInput ⟨_, spells⟩)
  | @more lexer behind t last ts read kind _ ih =>
    cases read_of_eq read with
    | last => exact absurd rfl kind
    | lexeme text blank spells stops =>
      rw [rest_skip_gap text] at ih
      rw [text]
      exact Tiled.lexeme blank spells stops ih

/-- The tokens of a source are those that it is tiled with. -/
theorem TokenBuffer.ofSource_eq_ok {source : String} {buffer : TokenBuffer} :
    ofSource source = .ok buffer ↔ Tiled .origin source.toList buffer.tokens := by
  rw [ofSource, ofLexer_eq_ok]
  constructor
  · intro scans
    exact scans.tiled
  · intro tiled
    exact tiled.scans rfl rfl rfl

/-- Any tokens that a source is tiled with are those of a buffer. -/
theorem Tiled.exists_ofSource {source : String} {ts : List Token}
    (tiled : Tiled .origin source.toList ts) :
    ∃ buffer, TokenBuffer.ofSource source = .ok buffer ∧ buffer.tokens = ts := by
  obtain rfl | ⟨before, last, eq⟩ := List.eq_nil_or_concat ts
  · exact absurd rfl tiled.ne_nil
  · rw [List.concat_eq_append] at eq
    subst eq
    have scans : (Lexer.ofSource source).Scans before last := tiled.scans rfl rfl rfl
    obtain ⟨body_kind, last_kind⟩ := scans.kinds
    exact ⟨⟨before, last, body_kind, last_kind⟩, TokenBuffer.ofSource_eq_ok.mpr tiled, rfl⟩

/-! ## Bytes -/

theorem byteLength_cons (c : Char) (chars : List Char) :
    byteLength (c :: chars) = c.utf8Size + byteLength chars := rfl

theorem byteLength_singleton (c : Char) : byteLength [c] = c.utf8Size := rfl

theorem byteLength_append (a b : List Char) :
    byteLength (a ++ b) = byteLength a + byteLength b := by
  induction a with
  | nil => simp [byteLength]
  | cons c a ih => rw [List.cons_append, byteLength_cons, byteLength_cons, ih, Nat.add_assoc]

theorem byteLength_eq_utf8ByteSize (text : String) :
    byteLength text.toList = text.utf8ByteSize := by
  have chars (cs : List Char) : byteLength cs = (String.ofList cs).utf8ByteSize := by
    induction cs with
    | nil => rfl
    | cons c cs ih =>
      have split : String.ofList (c :: cs) = String.singleton c ++ String.ofList cs := by
        rw [String.singleton_eq_ofList, ← String.ofList_append, List.singleton_append]
      rw [split, String.utf8ByteSize_append, String.utf8ByteSize_singleton, ← ih, byteLength_cons]
  rw [chars, String.ofList_toList]

/-- A place moves on by the bytes of what it is moved over. -/
theorem Position.offset_advance (p : Position) (chars : List Char) :
    (p.advance chars).offset = p.offset + byteLength chars := by
  induction chars generalizing p with
  | nil => rfl
  | cons c chars ih =>
    have step : (p.after c).offset = p.offset + c.utf8Size := by
      rw [after]
      split <;> rfl
    rw [advance_cons, ih, step, byteLength_cons, Nat.add_assoc]

theorem dropBytes?_append (pre text : List Char) :
    dropBytes? (byteLength pre) (pre ++ text) = some text := by
  induction pre with
  | nil => cases text <;> rfl
  | cons c pre ih =>
    have positive : 0 < c.utf8Size := c.utf8Size_pos
    obtain ⟨n, size⟩ := Nat.exists_eq_add_of_lt positive
    have total : byteLength (c :: pre) = n + byteLength pre + 1 := by
      rw [byteLength_cons]
      omega
    have left : n + byteLength pre + 1 - c.utf8Size = byteLength pre := by omega
    rw [total, List.cons_append, dropBytes?, if_pos (by omega), left, ih]

theorem takeBytes?_append (chars text : List Char) :
    takeBytes? (byteLength chars) (chars ++ text) = some chars := by
  induction chars with
  | nil => cases text <;> rfl
  | cons c chars ih =>
    have positive : 0 < c.utf8Size := c.utf8Size_pos
    obtain ⟨n, size⟩ := Nat.exists_eq_add_of_lt positive
    have total : byteLength (c :: chars) = n + byteLength chars + 1 := by
      rw [byteLength_cons]
      omega
    have left : n + byteLength chars + 1 - c.utf8Size = byteLength chars := by omega
    rw [total, List.cons_append, takeBytes?, if_pos (by omega), left, ih]
    rfl

/-- The span of some characters cuts them out of a text. -/
theorem Span.slice?_ofPosition (pre chars post : List Char) :
    (Span.ofPosition (Position.origin.advance pre) (byteLength chars)).slice?
      (String.ofList (pre ++ (chars ++ post))) = some (String.ofList chars) := by
  have start : (Position.origin.advance pre).offset = byteLength pre := by
    rw [Position.offset_advance]
    exact Nat.zero_add _
  rw [slice?, ofPosition, start, String.toList_ofList, dropBytes?_append, Option.bind_some,
    takeBytes?_append]
  rfl

/-! ## What tokens say -/

namespace Tiled

variable {place : Position} {text : List Char} {ts : List Token}

/-- Every token stands in the text behind some part of it. -/
theorem stands (tiled : Tiled place text ts) :
    ∀ t ∈ ts, ∃ pre post, text = pre ++ (t.lexeme.toList ++ post) ∧
      t.span = .ofPosition (place.advance pre) (byteLength t.lexeme.toList) := by
  induction tiled with
  | @last place gap blank =>
    intro t mem
    cases List.mem_singleton.mp mem
    exact ⟨gap, [], (List.append_nil gap).symm, rfl⟩
  | @lexeme place gap chars rest kind ts blank spells stops tiled ih =>
    intro t mem
    rcases List.mem_cons.mp mem with rfl | others
    · refine ⟨gap, rest, ?_, ?_⟩
      · rw [Token.ofLexeme, String.toList_ofList]
      · rw [Token.ofLexeme, String.toList_ofList]
    · obtain ⟨pre, post, eq, span⟩ := ih t others
      refine ⟨gap ++ chars ++ pre, post, ?_, ?_⟩
      · rw [eq]
        simp only [List.append_assoc]
      · rw [span, ← Position.advance_append]

/-- No token stands before the place that the text starts at. -/
theorem le_start (tiled : Tiled place text ts) : ∀ t ∈ ts, place.offset ≤ t.span.start := by
  intro t mem
  obtain ⟨pre, post, -, span⟩ := tiled.stands t mem
  rw [span, Span.ofPosition, Position.offset_advance]
  exact Nat.le_add_right _ _

/-- The tokens stand one behind the other. -/
theorem ordered (tiled : Tiled place text ts) :
    ts.Pairwise fun t u => t.span.start < u.span.start ∧ t.span.stop ≤ u.span.start := by
  induction tiled with
  | last => exact List.pairwise_singleton _ _
  | @lexeme place gap chars rest kind ts blank spells stops tiled ih =>
    refine List.pairwise_cons.mpr ⟨?_, ih⟩
    intro u mem
    have behind := tiled.le_start u mem
    have positive : 0 < byteLength chars := by
      obtain ⟨c, cs, eq, -⟩ := head_not_blank ⟨chars, spells⟩
      rw [show chars = c :: cs from eq, byteLength_cons]
      exact Nat.add_pos_left c.utf8Size_pos _
    rw [Position.advance_append, Position.offset_advance] at behind
    simp only [Token.ofLexeme, Span.ofPosition, Span.stop]
    omega

/-- The text is what stands between the tokens, and their lexemes. -/
theorem exists_gaps (tiled : Tiled place text ts) :
    ∃ gaps : List (List Char), gaps.length = ts.length ∧ (∀ gap ∈ gaps, gap.all isBlank) ∧
      text = (List.zipWith (· ++ ·) gaps (ts.map fun t => t.lexeme.toList)).flatten := by
  induction tiled with
  | @last place gap blank =>
    refine ⟨[gap], rfl, by simpa using blank, ?_⟩
    simp [Token.endAt, Token.ofLexeme]
  | @lexeme place gap chars rest kind ts blank spells stops tiled ih =>
    obtain ⟨gaps, length, blanks, eq⟩ := ih
    refine ⟨gap :: gaps, congrArg (· + 1) length, List.forall_mem_cons.mpr ⟨blank, blanks⟩, ?_⟩
    rw [List.map_cons, List.zipWith_cons_cons, List.flatten_cons, ← eq, Token.ofLexeme,
      String.toList_ofList, List.append_assoc]

/-- The kind and the value of a token are those of its lexeme. -/
theorem spells (tiled : Tiled place text ts) :
    ∀ t ∈ ts, (t.kind = .endOfInput ∧ t.lexeme.toList = [] ∨ t.kind.Spells t.lexeme.toList) ∧
      t.value = .ofLexeme t.kind t.lexeme.toList := by
  induction tiled with
  | last =>
    intro t mem
    cases List.mem_singleton.mp mem
    exact ⟨Or.inl ⟨rfl, rfl⟩, rfl⟩
  | @lexeme place gap chars rest kind ts blank spells stops tiled ih =>
    refine List.forall_mem_cons.mpr ⟨?_, ih⟩
    rw [Token.ofLexeme, String.toList_ofList]
    exact ⟨Or.inr spells, rfl⟩

/-- The last token stands behind the whole text. -/
theorem eq_endAt (tiled : Tiled place text ts) :
    ts.getLast? = some (.endAt (place.advance text)) := by
  induction tiled with
  | last => rfl
  | @lexeme place gap chars rest kind ts blank spells stops tiled ih =>
    rw [List.getLast?_cons_of_ne_nil tiled.ne_nil, ih, ← Position.advance_append,
      List.append_assoc]

end Tiled

/-! ## Buffers -/

namespace TokenBuffer

/-- A buffer says of a text what its tokens are and where they stand, and leaves out nothing
but blanks. -/
structure Transcribes (buffer : TokenBuffer) (source : String) : Prop where
  /-- The end of the input is the last token, and no other. -/
  ends : ∀ i t, buffer.tokens[i]? = some t → (t.kind = .endOfInput ↔ i + 1 = buffer.size)
  last_lexeme : buffer.last.lexeme = ""
  last_start : buffer.last.span.start = source.utf8ByteSize
  slices : ∀ t ∈ buffer.tokens,
    t.span.slice? source = some t.lexeme ∧ t.span.len = t.lexeme.utf8ByteSize
  ordered : buffer.tokens.Pairwise fun t u =>
    t.span.start < u.span.start ∧ t.span.stop ≤ u.span.start
  /-- The text is a gap and a lexeme in turn, the last lexeme being the empty one. -/
  gaps : ∃ gaps : List (List Char), gaps.length = buffer.size ∧
    (∀ gap ∈ gaps, ∀ c ∈ gap, c = ' ' ∨ c = '\t' ∨ c = '\r' ∨ c = '\n') ∧
    source.toList =
      (List.zipWith (· ++ ·) gaps (buffer.tokens.map fun t => t.lexeme.toList)).flatten
  kinds : ∀ t ∈ buffer.tokens, ∀ kind, kind ≠ .endOfInput →
    (t.kind = kind ↔ kind.Spells t.lexeme.toList)
  values : ∀ t ∈ buffer.tokens, t.value =
    match t.kind with
    | .number => .number (Binary64.ofNat (digitsValue t.lexeme.toList))
    | .identifier => .text t.lexeme
    | _ => .none

theorem kind_eq_endOfInput_iff (buffer : TokenBuffer) (i : Nat) (t : Token)
    (found : buffer.tokens[i]? = some t) : t.kind = .endOfInput ↔ i + 1 = buffer.size := by
  rw [tokens, List.getElem?_append] at found
  rw [size]
  split at found
  · rename_i inBody
    refine iff_of_false (buffer.body_kind t (List.mem_of_getElem? found)) ?_
    omega
  · rename_i behind
    obtain ⟨bound, eq⟩ := List.getElem?_eq_some_iff.mp found
    rw [List.length_singleton] at bound
    rw [List.getElem_singleton] at eq
    refine iff_of_true (eq ▸ buffer.last_kind) ?_
    omega

/-- The tokens of a source are a transcript of it. -/
theorem ofSource_transcribes (source : String) (buffer : TokenBuffer)
    (lexed : ofSource source = .ok buffer) : buffer.Transcribes source := by
  have tiled : Tiled .origin source.toList buffer.tokens := ofSource_eq_ok.mp lexed
  have last : buffer.last = .endAt (Position.origin.advance source.toList) := by
    have atEnd := tiled.eq_endAt
    rw [tokens, List.getLast?_concat] at atEnd
    exact Option.some.inj atEnd
  constructor
  case ends => exact buffer.kind_eq_endOfInput_iff
  case last_lexeme =>
    rw [last]
    rfl
  case last_start =>
    rw [last, Token.endAt, Token.ofLexeme, Span.ofPosition, Position.offset_advance,
      byteLength_eq_utf8ByteSize]
    exact Nat.zero_add _
  case slices =>
    intro t mem
    obtain ⟨pre, post, eq, span⟩ := tiled.stands t mem
    have sliced := Span.slice?_ofPosition pre t.lexeme.toList post
    rw [← span, ← eq, String.ofList_toList, String.ofList_toList] at sliced
    refine ⟨sliced, ?_⟩
    rw [span, Span.ofPosition, byteLength_eq_utf8ByteSize]
  case ordered => exact tiled.ordered
  case gaps =>
    obtain ⟨gaps, length, blanks, eq⟩ := tiled.exists_gaps
    refine ⟨gaps, by rw [length, length_tokens], ?_, eq⟩
    intro gap mem c inGap
    exact of_decide_eq_true (List.all_eq_true.mp (blanks gap mem) c inGap)
  case kinds =>
    intro t mem kind notEnd
    rcases (tiled.spells t mem).1 with ⟨isEnd, empty⟩ | spells
    · rw [isEnd, empty]
      refine iff_of_false (Ne.symm notEnd) ?_
      intro spells
      obtain ⟨c, cs, eq, -⟩ := head_not_blank ⟨[], spells⟩
      cases eq
    · constructor
      · rintro rfl
        exact spells
      · intro spellsToo
        exact spells.unique spellsToo
  case values =>
    intro t mem
    rw [(tiled.spells t mem).2]
    cases t.kind with
    | identifier => exact congrArg Literal.text String.ofList_toList
    | _ => rfl

/-- The tokens of `let x1 =`, of `42` behind a line feed and a tab, and of `|>f`. -/
def letNumberPiped : TokenBuffer where
  body := [.ofLexeme .letKeyword ['l', 'e', 't'] ⟨0, 1, 1⟩,
    .ofLexeme .identifier ['x', '1'] ⟨4, 1, 5⟩, .ofLexeme .assign ['='] ⟨7, 1, 8⟩,
    .ofLexeme .number ['4', '2'] ⟨10, 2, 2⟩, .ofLexeme .pipe ['|', '>'] ⟨12, 2, 4⟩,
    .ofLexeme .identifier ['f'] ⟨14, 2, 6⟩]
  last := .endAt ⟨15, 2, 7⟩
  body_kind := by decide
  last_kind := rfl

theorem letNumberPiped_transcribes :
    ofSource "let x1 =\n\t42|>f" = .ok letNumberPiped ∧
      letNumberPiped.Transcribes "let x1 =\n\t42|>f" := by
  have lexed : ofSource "let x1 =\n\t42|>f" = .ok letNumberPiped :=
    ofLexer_eq_ok.mpr (by decide)
  exact ⟨lexed, ofSource_transcribes _ letNumberPiped lexed⟩

end TokenBuffer

end PipeScript
