import Mathlib.Data.List.ReduceOption
import PipeScript.Proofs.Tiling

/-!
# Ways to drain a lexer

A lexer is asked for single answers in two ways, `nextToken` and `next?`, in any order, and at any
point for all tokens that are left. All of them draw on one stream: what `nextToken` alone gives,
which is finitely many tokens and errors and then the end of the input, again and again
(`Lexer.Streams`). A schedule is a list of calls; `Lexer.Follows` says what it shows of the stream
and what it leaves.

A read looks at the rest of the text and at the place alone. So both calls move a lexer alike
(`Lexer.call_cases`), and the flag that `next?` keeps decides of nothing but the replies of `next?`
itself.
-/

namespace PipeScript

namespace Lexer

/-! ## One read -/

/-- The end of the input is read again and again. -/
theorem nextToken_behind_end {lexer : Lexer} (ending : isEnd lexer.nextToken.1) :
    lexer.nextToken.2.nextToken = lexer.nextToken := by
  rcases eq : lexer.nextToken with ⟨answer, behind⟩
  rw [eq] at ending
  cases read_of_eq eq with
  | @last gap whole blank =>
    have nothing : (lexer.skip gap).rest = [] := by
      rw [rest_skip, whole, List.drop_length]
    exact nextToken_of_nil nothing
  | lexeme _ _ spells _ =>
    exact absurd (of_decide_eq_true ending) (kind_ne_endOfInput ⟨_, spells⟩)
  | stray => cases ending

/-- Any other read moves the cursor forward. -/
theorem offset_lt_of_not_isEnd {lexer : Lexer} (more : isEnd lexer.nextToken.1 = false) :
    lexer.place.offset < lexer.nextToken.2.place.offset := by
  rcases eq : lexer.nextToken with ⟨answer, behind⟩
  rw [eq] at more
  have forward (gap : List Char) {c : Char} {cs : List Char} :
      lexer.place.offset < (lexer.skip (gap ++ c :: cs)).place.offset := by
    have positive : 0 < c.utf8Size := c.utf8Size_pos
    rw [place_skip, Position.offset_advance, byteLength_append, byteLength_cons]
    omega
  cases read_of_eq eq with
  | last => cases more
  | @lexeme gap chars _ _ _ _ spells _ =>
    obtain ⟨c, cs, start, -⟩ := head_not_blank ⟨chars, spells⟩
    rw [show chars = c :: cs from start]
    exact forward gap
  | @stray gap _ c _ _ _ => exact forward gap

/-! ## The stream of answers -/

/-- The lexer behind some reads. -/
def behind (lexer : Lexer) : Nat → Lexer
  | 0 => lexer
  | n + 1 => lexer.nextToken.2.behind n

/-- The answer of the read behind some reads. -/
def answer (lexer : Lexer) (n : Nat) : Except LexError Token := (lexer.behind n).nextToken.1

/-- A lexer that is only ever asked for `nextToken` gives some answers, and from then on the end
of the input. -/
structure Streams (lexer : Lexer) (answers : List (Except LexError Token)) (last : Token) :
    Prop where
  before_end : ∀ t, .ok t ∈ answers → t.kind ≠ .endOfInput
  last_kind : last.kind = .endOfInput
  /-- Every answer before the end takes a character of its own. -/
  length_le : answers.length ≤ lexer.rest.length
  answer_eq : ∀ n, lexer.answer n = answers.getD n (.ok last)
  /-- Every read before the end moves the cursor. -/
  forward : ∀ n < answers.length,
    (lexer.behind n).place.offset < (lexer.behind (n + 1)).place.offset

/-- The end of the input is the answer of every read behind it. -/
theorem nextToken_behind_of_isEnd {lexer : Lexer} (ending : isEnd lexer.nextToken.1) (n : Nat) :
    (lexer.behind n).nextToken = lexer.nextToken := by
  induction n generalizing lexer with
  | zero => rfl
  | succ n ih =>
    have again := nextToken_behind_end ending
    rw [behind, ih (by rw [again]; exact ending), again]

/-- What a lexer gives up to the end of the input is its stream, wherever the reading starts. -/
theorem exists_streams (lexer : Lexer) :
    ∃ answers last, lexer.Streams answers last ∧
      ∀ n, (lexer.behind n).drain = answers.drop n ++ [.ok last] := by
  induction lexer using drain.induct with
  | case1 lexer ending =>
    rcases eq : lexer.nextToken.1 with e | last
    · rw [eq] at ending
      cases ending
    · have same (n : Nat) : lexer.answer n = .ok last := by
        rw [answer, nextToken_behind_of_isEnd ending, eq]
      have drained (n : Nat) : (lexer.behind n).drain = [.ok last] := by
        rw [drain, nextToken_behind_of_isEnd ending, if_pos ending, eq]
      rw [eq] at ending
      exact ⟨[], last, ⟨by simp, of_decide_eq_true ending, by simp, same, by simp⟩,
        fun n => by rw [drained, List.drop_nil, List.nil_append]⟩
  | case2 lexer more ih =>
    obtain ⟨answers, last, streams, drained⟩ := ih
    have notEnd (t : Token) (found : lexer.nextToken.1 = .ok t) : t.kind ≠ .endOfInput := by
      intro kind
      rw [found] at more
      exact more (decide_eq_true kind)
    refine ⟨lexer.nextToken.1 :: answers, last, ⟨?_, streams.last_kind, ?_, ?_, ?_⟩, ?_⟩
    · intro t mem
      rcases List.mem_cons.mp mem with head | tail
      · exact notEnd t head.symm
      · exact streams.before_end t tail
    · have shorter := lexer.nextToken_progress notEnd
      have bound := streams.length_le
      rw [List.length_cons]
      omega
    · intro n
      cases n with
      | zero => rfl
      | succ n => exact streams.answer_eq n
    · intro n bound
      cases n with
      | zero => exact offset_lt_of_not_isEnd (eq_false_of_ne_true more)
      | succ n => exact streams.forward n (Nat.lt_of_succ_lt_succ bound)
    · intro n
      cases n with
      | zero =>
        have whole := drained 0
        rw [behind, List.drop_zero] at whole
        rw [behind, drain, if_neg more, whole, List.drop_zero, List.cons_append]
      | succ n => exact drained n

/-! ## Schedules of calls -/

/-- The two ways to ask a lexer for an answer. -/
inductive Call
  | nextToken
  | next
deriving DecidableEq

/-- What a lexer answers to a call, if anything, and the lexer behind the call. -/
def call (lexer : Lexer) : Call → Option (Except LexError Token) × Lexer
  | .nextToken => (some lexer.nextToken.1, lexer.nextToken.2)
  | .next => lexer.next?

/-- What a lexer replies to the calls of a schedule, one by one. -/
def replies (lexer : Lexer) : List Call → List (Option (Except LexError Token))
  | [] => []
  | c :: calls => (lexer.call c).1 :: (lexer.call c).2.replies calls

/-- The lexer behind the calls of a schedule. -/
def after (lexer : Lexer) : List Call → Lexer
  | [] => lexer
  | c :: calls => (lexer.call c).2.after calls

/-- The replies to the calls of a schedule that are answers. -/
def given (lexer : Lexer) (calls : List Call) : List (Except LexError Token) :=
  (lexer.replies calls).reduceOption

/-- A lexer whose flag is set as said. -/
def flagged (lexer : Lexer) (flag : Bool) : Lexer := { lexer with stopped := flag }

theorem flagged_flagged (lexer : Lexer) (flag other : Bool) :
    (lexer.flagged flag).flagged other = lexer.flagged other := rfl

/-- A read does not look at the flag. -/
theorem nextToken_flagged (lexer : Lexer) (flag : Bool) :
    (lexer.flagged flag).nextToken = (lexer.nextToken.1, lexer.nextToken.2.flagged flag) := by
  have blanks : (lexer.flagged flag).skipBlanks = lexer.skipBlanks.flagged flag := rfl
  have rest : (lexer.skipBlanks.flagged flag).rest = lexer.skipBlanks.rest := rfl
  unfold nextToken
  dsimp only
  rw [blanks, rest]
  split <;> rfl

theorem behind_flagged (lexer : Lexer) (flag : Bool) (n : Nat) :
    (lexer.flagged flag).behind n = (lexer.behind n).flagged flag := by
  induction n generalizing lexer with
  | zero => rfl
  | succ n ih => rw [behind, nextToken_flagged, ih, behind]

theorem answer_flagged (lexer : Lexer) (flag : Bool) (n : Nat) :
    (lexer.flagged flag).answer n = lexer.answer n := by
  rw [answer, behind_flagged, nextToken_flagged, answer]

theorem drain_flagged (lexer : Lexer) (flag : Bool) :
    (lexer.flagged flag).drain = lexer.drain := by
  induction lexer using drain.induct with
  | case1 lexer ending =>
    rw [drain, nextToken_flagged, if_pos ending, drain, if_pos ending]
  | case2 lexer more ih =>
    have whole : lexer.drain = lexer.nextToken.1 :: lexer.nextToken.2.drain := by
      rw [drain, if_neg more]
    rw [drain, nextToken_flagged, if_neg more, ih, whole]

/-- A call of `next?` behind the end or an error gives nothing and changes nothing. Any other
call is a read, and sets the flag if it is a call of `next?` that gives the end or an error. -/
theorem call_cases (lexer : Lexer) (c : Call) :
    (c = .next ∧ lexer.stopped ∧ lexer.call c = (none, lexer)) ∨
      ∃ flag, lexer.call c = (some lexer.nextToken.1, lexer.nextToken.2.flagged flag) ∧
        (c = .next → lexer.stopped = false) ∧
        (flag ↔ lexer.stopped ∨ c = .next ∧ isLast lexer.nextToken.1) := by
  cases c with
  | nextToken =>
    have same : lexer.nextToken.2.stopped = lexer.stopped :=
      congrArg (fun result => result.2.stopped) (lexer.nextToken_flagged lexer.stopped)
    refine Or.inr ⟨lexer.stopped, ?_, nofun, by simp⟩
    rw [call, ← same]
    rfl
  | next =>
    rcases stopped : lexer.stopped with _ | _
    · refine Or.inr ⟨isLast lexer.nextToken.1, ?_, fun _ => rfl, by simp⟩
      rw [call, next?, stopped]
      rfl
    · refine Or.inl ⟨rfl, rfl, ?_⟩
      rw [call, next?, if_pos stopped]

/-- The answers to a schedule are those of the stream, and leave the lexer behind as many reads. -/
theorem given_eq (lexer : Lexer) (calls : List Call) :
    lexer.given calls = (List.range (lexer.given calls).length).map lexer.answer ∧
      ∃ flag, lexer.after calls = (lexer.behind (lexer.given calls).length).flagged flag := by
  induction calls generalizing lexer with
  | nil => exact ⟨rfl, lexer.stopped, rfl⟩
  | cons c calls ih =>
    rcases lexer.call_cases c with ⟨-, -, nothing⟩ | ⟨flag, read, -, -⟩
    · have same : lexer.given (c :: calls) = lexer.given calls := by
        rw [given, replies, nothing, List.reduceOption_cons_of_none, given]
      have left : lexer.after (c :: calls) = lexer.after calls := by
        rw [after, nothing]
      rw [same, left]
      exact ih lexer
    · obtain ⟨answers, other, state⟩ := ih (lexer.nextToken.2.flagged flag)
      have more : lexer.given (c :: calls) =
          lexer.nextToken.1 :: (lexer.nextToken.2.flagged flag).given calls := by
        rw [given, replies, read, List.reduceOption_cons_of_some, given]
      have shift (n : Nat) : (lexer.nextToken.2.flagged flag).answer n = lexer.answer (n + 1) :=
        answer_flagged _ _ n
      have left : lexer.after (c :: calls) = (lexer.nextToken.2.flagged flag).after calls := by
        rw [after, read]
      refine ⟨?_, other, ?_⟩
      · have others : (lexer.nextToken.2.flagged flag).given calls =
            (List.range ((lexer.nextToken.2.flagged flag).given calls).length).map
              (lexer.answer ∘ Nat.succ) := answers.trans (List.map_congr_left fun n _ => shift n)
        rw [more, List.length_cons, List.range_succ_eq_map, List.map_cons, List.map_map, ← others]
        rfl
      · rw [left, state, more, List.length_cons, behind_flagged, flagged_flagged, behind]

/-- A reply is missing exactly where a call of `next?` stands behind another one that gave the end
of the input or an error, if the lexer was not stopped before. -/
theorem replies_eq_none_iff (lexer : Lexer) (calls : List Call) (i : Nat) :
    (lexer.replies calls)[i]? = some none ↔ calls[i]? = some .next ∧
      (lexer.stopped ∨ ∃ j < i, calls[j]? = some .next ∧
        ∃ answer, (lexer.replies calls)[j]? = some (some answer) ∧ isLast answer) := by
  induction calls generalizing lexer i with
  | nil => simp [replies]
  | cons c calls ih =>
    rcases lexer.call_cases c with ⟨rfl, stopped, nothing⟩ | ⟨flag, read, running, set⟩
    · rw [replies, nothing]
      cases i with
      | zero => simp [stopped]
      | succ i => simp [ih, stopped]
    · rw [replies, read]
      cases i with
      | zero =>
        simp only [List.getElem?_cons_zero, Option.some.injEq, reduceCtorEq, false_iff, not_and,
          Nat.not_lt_zero, false_and, exists_false, or_false]
        intro next
        simp [running next]
      | succ i =>
        have flagSet : (lexer.nextToken.2.flagged flag).stopped = flag := rfl
        simp only [List.getElem?_cons_succ, ih, Nat.exists_lt_succ_left, List.getElem?_cons_zero,
          flagSet, set, Option.some.injEq, exists_eq_left', or_assoc]

/-! ## Reading on -/

/-- A lexer gives some tokens, one by one, and then the end of the input or an error. -/
inductive Yields : Lexer → List Token → Except LexError Token → Prop
  | done {lexer : Lexer} {final : Except LexError Token} : lexer.nextToken.1 = final →
    isLast final → Yields lexer [] final
  | more {lexer : Lexer} {t : Token} {ts : List Token} {final : Except LexError Token} :
    lexer.nextToken.1 = .ok t → t.kind ≠ .endOfInput → Yields lexer.nextToken.2 ts final →
    Yields lexer (t :: ts) final

/-- A scan collects the tokens that its lexer gives, and stops at what comes behind them. -/
theorem yields_scanFrom (lexer : Lexer) (read : List Token)
    (kinds : ∀ t ∈ read, t.kind ≠ .endOfInput) :
    ∃ ts, (lexer.scanFrom read kinds).tokens = read.reverse ++ ts ∧
      lexer.Yields ts (lexer.scanFrom read kinds).stop.answer := by
  induction lexer, read, kinds using scanFrom.induct with
  | case1 lexer read kinds error behind answer =>
    rw [scanFrom_of_error kinds answer]
    exact ⟨[], (List.append_nil _).symm, Yields.done (congrArg Prod.fst answer) rfl⟩
  | case2 lexer read kinds t behind answer ending =>
    rw [scanFrom_of_last kinds answer ending]
    exact ⟨[], (List.append_nil _).symm,
      Yields.done (congrArg Prod.fst answer) (decide_eq_true ending)⟩
  | case3 lexer read kinds t behind answer more ih =>
    obtain ⟨ts, tokens, yields⟩ := ih
    have second : lexer.nextToken.2 = behind := congrArg Prod.snd answer
    rw [scanFrom_of_more kinds answer more]
    refine ⟨t :: ts, by rw [tokens]; simp, ?_⟩
    exact Yields.more (congrArg Prod.fst answer) more (second ▸ yields)

theorem yields_scan (lexer : Lexer) : lexer.Yields lexer.scan.tokens lexer.scan.stop.answer := by
  obtain ⟨ts, tokens, yields⟩ := lexer.yields_scanFrom [] (by simp)
  rw [List.reverse_nil, List.nil_append] at tokens
  rw [scan, tokens]
  exact yields

/-- What a lexer gives up to the end or the first error is how its stream starts. -/
theorem Yields.drain_eq {lexer : Lexer} {ts : List Token} {final : Except LexError Token}
    (yields : lexer.Yields ts final) :
    ∃ others, lexer.drain = ts.map .ok ++ final :: others ∧ (isEnd final → others = []) := by
  induction yields with
  | @done lexer final answer _ =>
    rw [Lexer.drain, answer]
    split
    · exact ⟨[], rfl, fun _ => rfl⟩
    · rename_i more
      exact ⟨lexer.nextToken.2.drain, rfl, fun ending => absurd ending more⟩
  | @more lexer t ts final answer kind _ ih =>
    obtain ⟨others, drained, last⟩ := ih
    have more : ¬ isEnd (.ok t) := fun ending => kind (of_decide_eq_true ending)
    rw [Lexer.drain, answer, if_neg more, drained]
    exact ⟨others, rfl, last⟩

/-- Behind the end or an error an iteration gives nothing. -/
theorem replies_next_of_stopped (lexer : Lexer) (n : Nat) :
    (lexer.flagged true).replies (List.replicate n .next) = List.replicate n none := by
  induction n with
  | zero => rfl
  | succ n ih =>
    have nothing : (lexer.flagged true).call .next = (none, lexer.flagged true) := rfl
    rw [List.replicate_succ, replies, nothing, ih, List.replicate_succ]

/-- An iteration gives what its lexer yields, and then nothing. -/
theorem Yields.replies_next {lexer : Lexer} {ts : List Token} {final : Except LexError Token}
    (yields : lexer.Yields ts final) (n : Nat) :
    (lexer.flagged false).replies (List.replicate n .next) =
      ((ts.map Except.ok ++ [final]).map some).take n ++
        List.replicate (n - (ts.length + 1)) none := by
  have step (lexer : Lexer) : (lexer.flagged false).call .next =
      (some lexer.nextToken.1, lexer.nextToken.2.flagged (isLast lexer.nextToken.1)) := by
    have read := lexer.nextToken_flagged false
    have running : (lexer.flagged false).stopped = false := rfl
    rw [call, next?, running, read]
    rfl
  induction yields generalizing n with
  | @done lexer final answer last =>
    cases n with
    | zero => rfl
    | succ n =>
      rw [List.replicate_succ, replies, step, answer, last, replies_next_of_stopped]
      simp
  | @more lexer t ts final answer kind _ ih =>
    cases n with
    | zero => simp [replies]
    | succ n =>
      have running : isLast (.ok t) = false := decide_eq_false kind
      rw [List.replicate_succ, replies, step, answer, running, ih, List.length_cons,
        Nat.add_sub_add_right]
      rfl

/-! ## All ways at once -/

/-- What a schedule of calls shows of the stream of a lexer, and what it leaves of it. -/
structure Follows (lexer : Lexer) (answers : List (Except LexError Token)) (last : Token)
    (calls : List Call) : Prop where
  /-- The replies that are answers are the stream up to some point. -/
  given_eq : lexer.given calls = (List.range (lexer.given calls).length).map lexer.answer
  /-- A reply is missing exactly behind a call of `next?` that gave the end or an error. -/
  none_iff : ∀ i : Nat, (lexer.replies calls)[i]? = some none ↔ calls[i]? = some Call.next ∧
    ∃ j < i, calls[j]? = some Call.next ∧
      ∃ answer, (lexer.replies calls)[j]? = some (some answer) ∧ isLast answer
  /-- A buffer holds the rest of the stream up to the end of the input. There is none exactly if
  there is an error in that rest, and then it is the first one that is reported. -/
  buffer_eq : match TokenBuffer.ofLexer (lexer.after calls) with
    | .ok buffer => buffer.tokens.map .ok =
        answers.drop (lexer.given calls).length ++ [.ok last]
    | .error e => ∃ (before : List Token) (others : List (Except LexError Token)),
        answers.drop (lexer.given calls).length = before.map .ok ++ .error e :: others

/-- A buffer is filled with what its lexer gives up to the end of the input, unless there is an
error among it. -/
theorem ofLexer_cases (lexer : Lexer) :
    match TokenBuffer.ofLexer lexer with
    | .ok buffer => lexer.drain = buffer.tokens.map .ok
    | .error e => ∃ (before : List Token) (others : List (Except LexError Token)),
        lexer.drain = before.map .ok ++ .error e :: others := by
  obtain ⟨others, drained, ended⟩ := lexer.yields_scan.drain_eq
  rw [TokenBuffer.ofLexer, TokenBuffer.ofScan]
  split
  · rename_i buffer filled
    split at filled
    · rename_i last kind stop
      cases filled
      rw [stop] at drained ended
      rw [drained, ended (decide_eq_true kind), TokenBuffer.tokens, List.map_append]
      rfl
    · cases filled
  · rename_i e failed
    split at failed
    · cases failed
    · rename_i stop
      cases failed
      rw [stop] at drained
      exact ⟨_, others, drained⟩

/-- An error that stands before the end of the input stands among the answers before it. -/
theorem exists_of_append_end {answers front others : List (Except LexError Token)} {last : Token}
    {e : LexError} (same : answers ++ [.ok last] = front ++ .error e :: others) :
    ∃ behind, answers = front ++ .error e :: behind := by
  rcases List.eq_nil_or_concat others with rfl | ⟨behind, final, rfl⟩
  · have final := (List.append_inj' same rfl).2
    cases final
  · rw [List.concat_eq_append, ← List.cons_append, ← List.append_assoc] at same
    exact ⟨behind, (List.append_inj' same rfl).1⟩

/-- Every schedule follows the stream of a lexer that was not stopped. -/
theorem follows_of_drained {lexer : Lexer} {answers : List (Except LexError Token)} {last : Token}
    (running : lexer.stopped = false)
    (drained : ∀ n, (lexer.behind n).drain = answers.drop n ++ [.ok last])
    (calls : List Call) : lexer.Follows answers last calls := by
  obtain ⟨given, flag, state⟩ := lexer.given_eq calls
  refine ⟨given, ?_, ?_⟩
  · intro i
    have none_iff := lexer.replies_eq_none_iff calls i
    rw [running] at none_iff
    simpa using none_iff
  · have filled := (lexer.after calls).ofLexer_cases
    have left : (lexer.after calls).drain =
        answers.drop (lexer.given calls).length ++ [.ok last] := by
      rw [state, drain_flagged, drained]
    rcases eq : TokenBuffer.ofLexer (lexer.after calls) with e | buffer
    · simp only [eq] at filled ⊢
      obtain ⟨before, others, found⟩ := filled
      obtain ⟨behind, split⟩ := exists_of_append_end (left.symm.trans found)
      exact ⟨before, behind, split⟩
    · simp only [eq] at filled ⊢
      rw [← filled, left]

/-- All ways of draining the lexer of a source agree: whatever the schedule, it shows the stream
from the start on and leaves the rest of it. Iterating a fresh lexer gives the tokens of the
source, or those before the first error and then that error. -/
theorem draining_agrees (source : String) :
    ∃ answers last, (ofSource source).Streams answers last ∧
      (∀ calls, (ofSource source).Follows answers last calls) ∧
      (∀ n, (ofSource source).replies (List.replicate n .next) =
        ((ofSource source).items.map some).take n ++
          List.replicate (n - (ofSource source).items.length) none) ∧
      match TokenBuffer.ofSource source with
      | .ok buffer => (ofSource source).items = buffer.tokens.map .ok
      | .error e => ∃ (before : List Token) (others : List (Except LexError Token)),
          answers = before.map .ok ++ .error e :: others ∧
            (ofSource source).items = before.map .ok ++ [.error e] := by
  obtain ⟨answers, last, streams, drained⟩ := (ofSource source).exists_streams
  have yields := (ofSource source).yields_scan
  have items : (ofSource source).items =
      (ofSource source).scan.tokens.map .ok ++ [(ofSource source).scan.stop.answer] := rfl
  refine ⟨answers, last, streams, follows_of_drained rfl drained, ?_, ?_⟩
  · intro n
    have replies := yields.replies_next n
    rw [items, List.length_append, List.length_map, List.length_singleton]
    exact replies
  · obtain ⟨others, whole, -⟩ := yields.drain_eq
    rw [TokenBuffer.ofSource, TokenBuffer.ofLexer, TokenBuffer.ofScan, items]
    rcases stop : (ofSource source).scan.stop with ⟨final, kind⟩ | e
    · simp [TokenBuffer.tokens, Stop.answer]
    · rw [stop] at whole
      have start := drained 0
      rw [behind, List.drop_zero, whole] at start
      obtain ⟨behind, split⟩ := exists_of_append_end start.symm
      exact ⟨_, behind, split, rfl⟩

/-- Behind an error `next?` gives nothing, and `nextToken` goes on. -/
example : ((ofSource "a|b").replies [.next, .next, .next, .nextToken]).map (·.map isLast) =
    [some false, some true, none, some false] := by rfl

end Lexer

end PipeScript
