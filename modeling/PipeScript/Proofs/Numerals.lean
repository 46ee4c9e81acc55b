import Mathlib.Algebra.Group.Nat.Defs
import Mathlib.Tactic.ByContra
import PipeScript.Number.Layout

/-!
# Whole numbers as they are written

A value that a run of digits stands for is infinity or a whole number. Its text is a run of digits
again, and one that is read back to the same value (`Binary64.text_ofNat`); and so are the digits
before the point where it is written with a number of places (`Binary64.fixed_ofNat`). So neither
text is shared by two such values.

Values are compared as natural numbers. A value above zero has a significand `m` of 53 binary
digits and a number `bits` of binary digits in all (`Binary64.Normal`), and it is the nearest one
to all that lies in its interval (`Binary64.Normal.ofNat_of_near`).
-/

namespace PipeScript

/-! ## Digits -/

theorem digitText_injective {m n : Nat} (same : digitText m = digitText n) : m = n := by
  calc
    m = Nat.ofDigitChars 10 (digitText m) 0 := Nat.ofDigitChars_ten_toDigits.symm
    _ = Nat.ofDigitChars 10 (digitText n) 0 := by rw [same]
    _ = n := Nat.ofDigitChars_ten_toDigits

/-- Zeros behind the digits of a number are the digits of a multiple of it. -/
theorem digitText_append_zeros {n : Nat} (positive : 0 < n) (count : Nat) :
    digitText n ++ zeros count = digitText (n * tenPow count) := by
  induction count with
  | zero =>
    have one : tenPow 0 = 1 := rfl
    rw [one, Nat.mul_one, zeros, List.replicate_zero, List.append_nil]
  | succ count ih =>
    have more : tenPow (count + 1) = 10 * tenPow count := Nat.pow_succ'
    have above : 0 < n * tenPow count := Nat.mul_pos positive (Nat.pow_pos (by decide))
    have last : zeros (count + 1) = zeros count ++ Nat.toDigits 10 0 := List.replicate_succ'
    rw [last, ← List.append_assoc, ih, digitText, Nat.toDigits_append_toDigits (by decide) above
      (by decide), more, Nat.mul_left_comm]
    rfl

theorem notDigit_notMem_digitText {c : Char} (notDigit : c.isDigit = false) (n : Nat) :
    c ∉ digitText n := by
  intro mem
  rw [Nat.isDigit_of_mem_toDigits (by decide) (by decide) mem] at notDigit
  cases notDigit

/-! ## Rounding -/

/-- A quotient is rounded to the integer that it is nearest to, and between two of them to the
even one. -/
theorem roundHalfEven_eq {num den q : Nat} (positive : 0 < den)
    (low : 2 * (q * den) ≤ 2 * num + den) (high : 2 * num ≤ 2 * (q * den) + den)
    (tie : 2 * (q * den) = 2 * num + den ∨ 2 * num = 2 * (q * den) + den → q % 2 = 0) :
    roundHalfEven num den = q := by
  have whole := Nat.div_add_mod num den
  have part := Nat.mod_lt num positive
  rw [Nat.mul_comm] at whole
  -- The quotient that is rounded down is `q`, or the integer before `q`.
  rcases Nat.lt_trichotomy (num / den) q with less | equal | more
  · have next : num / den + 1 = q := by
      by_contra other
      have far : num / den + 2 ≤ q := by omega
      have := Nat.mul_le_mul_right den far
      rw [Nat.add_mul] at this
      omega
    have product : q * den = num / den * den + den := by rw [← next, Nat.succ_mul]
    rw [roundHalfEven]
    rw [if_pos (by omega), next]
  · rw [roundHalfEven]
    rw [equal] at whole ⊢
    rw [if_neg (by omega)]
  · have := Nat.mul_le_mul_right den (Nat.succ_le_of_lt more)
    rw [Nat.succ_mul] at this
    omega

theorem roundHalfEven_mul {q den : Nat} (positive : 0 < den) :
    roundHalfEven (q * den) den = q :=
  roundHalfEven_eq positive (by omega) (by omega) (by omega)

/-- A quotient between two integers is rounded to one between them. -/
theorem roundHalfEven_bounds {num den low high : Nat} (positive : 0 < den)
    (above : low * den ≤ num) (below : num ≤ high * den) :
    low ≤ roundHalfEven num den ∧ roundHalfEven num den ≤ high := by
  have least : low ≤ num / den := (Nat.le_div_iff_mul_le positive).mpr above
  have whole := Nat.div_add_mod num den
  rw [Nat.mul_comm] at whole
  have most : num / den ≤ high := Nat.div_le_of_le_mul (by rw [Nat.mul_comm]; exact below)
  rw [roundHalfEven]
  split
  · rename_i up
    have part := Nat.mod_lt num positive
    have less : num / den < high := by
      rcases Nat.lt_or_ge (num / den) high with less | notLess
      · exact less
      · have := Nat.mul_le_mul_right den notLess
        omega
    omega
  · exact ⟨least, most⟩

namespace Binary64

/-! ## Values of full significand -/

/-- A finite value with a significand of 53 binary digits, and with `bits` digits before the
point. -/
structure Normal (x : Binary64) (m bits : Nat) : Prop where
  eq : x = ofBits ((1021 + bits) * fractions + m)
  low : fractions ≤ m
  high : m < 2 * fractions
  finite : (1021 + bits) * fractions + m < infinityBits

namespace Normal

variable {x : Binary64} {m bits : Nat}

theorem fields (normal : x.Normal m bits) :
    x.negative = false ∧ x.exponent.val = 1022 + bits ∧ x.fraction.val = m - fractions := by
  obtain ⟨rfl, low, high, finite⟩ := normal
  simp only [fractions, infinityBits] at low high finite
  refine ⟨?_, ?_, ?_⟩
  · simp only [ofBits, exponents, fractions, decide_eq_false_iff_not]
    omega
  · simp only [ofBits, exponents, fractions]
    omega
  · simp only [ofBits, fractions]
    omega

theorem significand_eq (normal : x.Normal m bits) : x.significand = m := by
  obtain ⟨-, exponent, fraction⟩ := normal.fields
  have low := normal.low
  rw [significand, exponent, fraction, if_neg (by omega)]
  omega

theorem scale_eq (normal : x.Normal m bits) :
    x.scale.toNat = bits - 53 ∧ (-x.scale).toNat = 53 - bits := by
  obtain ⟨-, exponent, -⟩ := normal.fields
  rw [scale, exponent, if_neg (by omega)]
  omega

theorem signed_eq (normal : x.Normal m bits) (magnitude : List Char) :
    x.signed magnitude = String.ofList magnitude := by
  obtain ⟨negative, exponent, -⟩ := normal.fields
  have notLast : x.exponent.val ≠ 2047 := by
    have low := normal.low
    have finite := normal.finite
    simp only [fractions, infinityBits] at low finite
    omega
  simp [signed, isFinite, isNaN, notLast, negative]

theorem narrowBelow_eq (normal : x.Normal m bits) : x.narrowBelow = decide (m = fractions) := by
  obtain ⟨-, exponent, fraction⟩ := normal.fields
  have low := normal.low
  simp only [narrowBelow, exponent, fraction, decide_eq_decide]
  omega

end Normal

/-- A number of some digits is rounded to a significand, and the word of its value is put together
from both, unless it is too large. -/
theorem ofNat_eq {n bits : Nat} (low : 2 ^ bits ≤ n) (high : n < 2 ^ (bits + 1)) :
    ofNat n = ofBits (min ((1021 + (bits + 1)) * fractions + leadingSignificand n (bits + 1))
      infinityBits) := by
  have positive : n ≠ 0 := by
    have := Nat.two_pow_pos bits
    omega
  have log : n.log2 = bits := (Nat.log2_eq_iff positive).mpr ⟨low, high⟩
  simp only [ofNat, if_neg positive, log]
  congr 1
  split <;> omega

theorem twoPow_add_fractions (k : Nat) : 2 ^ (52 + k) = fractions * 2 ^ k := Nat.pow_add 2 52 k

/-- The significand of a number of at least 53 digits is a rounded quotient. -/
theorem leadingSignificand_add (n k : Nat) :
    leadingSignificand n (53 + k) = roundHalfEven n (2 ^ k) := by
  rw [leadingSignificand]
  cases k with
  | zero =>
    have rounded := roundHalfEven_mul (q := n) Nat.one_pos
    rw [Nat.mul_one] at rounded
    rw [if_pos (Nat.le_refl _), Nat.pow_zero, rounded]
    exact Nat.mul_one n
  | succ k =>
    rw [if_neg (by omega), Nat.add_sub_cancel_left]
    rfl

/-- A significand that is carried over counts for the next power of two. -/
theorem word_carry (bits : Nat) : (1021 + (53 + bits)) * fractions + 2 * fractions =
    (1021 + (53 + (bits + 1))) * fractions + fractions := by
  simp only [fractions]
  omega

/-- A number that is rounded to the significand of a value has that value. -/
theorem Normal.ofNat_of_round {x : Binary64} {m k n : Nat} (normal : x.Normal m (53 + k))
    (low : fractions * 2 ^ k ≤ n) (high : n < 2 * (fractions * 2 ^ k))
    (rounds : roundHalfEven n (2 ^ k) = m) : ofNat n = x := by
  have above : 2 ^ (52 + k) ≤ n := by rw [twoPow_add_fractions]; exact low
  have below : n < 2 ^ (52 + k + 1) := by
    rw [Nat.pow_succ, twoPow_add_fractions, Nat.mul_comm]
    exact high
  have digits : 52 + k + 1 = 53 + k := by omega
  rw [ofNat_eq above below, digits, leadingSignificand_add, rounds,
    Nat.min_eq_left (Nat.le_of_lt normal.finite), normal.eq]

/-! ## The interval of a value -/

/-- A whole number lies in the interval of a value, whose ends belong to it if the significand is
even. All is in quarters of the last place. -/
structure Near (m p q n : Nat) : Prop where
  low : (4 * m - if m = fractions then 1 else 2) * p ≤ 4 * (n * q)
  high : 4 * (n * q) ≤ (4 * m + 2) * p
  tie : (4 * m - if m = fractions then 1 else 2) * p = 4 * (n * q) ∨
    4 * (n * q) = (4 * m + 2) * p → m % 2 = 0

theorem Near.positive {m p q n : Nat} (near : Near m p q n) (full : fractions ≤ m) (unit : 0 < p) :
    0 < n := by
  refine Nat.pos_of_ne_zero ?_
  rintro rfl
  have low := near.low
  have high : 0 < 4 * m - if m = fractions then 1 else 2 := by
    simp only [fractions] at full ⊢
    split <;> omega
  have := Nat.mul_pos high unit
  omega

theorem Normal.contains_iff {x : Binary64} {m bits n : Nat} (normal : x.Normal m bits) :
    (Interval.ofBinary64 x).contains n 0 ↔ Near m (2 ^ (bits - 53)) (2 ^ (53 - bits)) n := by
  obtain ⟨up, down⟩ := normal.scale_eq
  have one : tenPow 0 = 1 := rfl
  have low : (if m = fractions then 4 * m - 1 else 4 * m - 2) =
      4 * m - if m = fractions then 1 else 2 := by split <;> rfl
  have pow (k : Nat) : Nat.pow 2 k = 2 ^ k := rfl
  simp only [Interval.contains, Interval.step, Interval.refine, Interval.ofBinary64,
    normal.significand_eq, normal.narrowBelow_eq, up, down, Int.neg_zero, Int.toNat_zero, one,
    Nat.mul_one, decide_eq_true_eq, twoPow, low, pow, Nat.mul_left_comm n 4]
  by_cases even : m % 2 = 0
  · rw [if_pos even, decide_eq_true_eq]
    exact ⟨fun ⟨below, above⟩ => ⟨below, above, fun _ => even⟩,
      fun near => ⟨near.low, near.high⟩⟩
  · rw [if_neg even, decide_eq_true_eq]
    constructor
    · rintro ⟨below, above⟩
      exact ⟨Nat.le_of_lt below, Nat.le_of_lt above, by omega⟩
    · rintro ⟨below, above, tie⟩
      omega

/-- All numbers in the interval of a large value have that value. -/
theorem Normal.ofNat_of_near {x : Binary64} {m k n : Nat} (normal : x.Normal m (53 + k))
    (near : Near m (2 ^ k) 1 n) : ofNat n = x := by
  obtain ⟨low, high, tie⟩ := near
  have positive := Nat.two_pow_pos k
  have least := Nat.mul_le_mul_right (2 ^ k) normal.low
  have most : (m + 1) * 2 ^ k ≤ 2 * fractions * 2 ^ k := Nat.mul_le_mul_right _ normal.high
  rw [Nat.succ_mul, Nat.mul_assoc] at most
  simp only [Nat.mul_one, Nat.sub_mul, Nat.add_mul, Nat.mul_assoc] at low high tie
  rcases Nat.lt_or_ge n (fractions * 2 ^ k) with less | notLess
  · -- Only below a power of two is there a number of fewer digits in the interval.
    have even : m = fractions := by
      by_contra other
      have next : (fractions + 1) * 2 ^ k ≤ m * 2 ^ k :=
        Nat.mul_le_mul_right _ (Nat.lt_of_le_of_ne normal.low (Ne.symm other))
      rw [Nat.succ_mul] at next
      rw [if_neg other] at low
      omega
    subst even
    rw [if_pos rfl] at low tie
    cases k with
    | zero => omega
    | succ k =>
      have double : 2 ^ (k + 1) = 2 * 2 ^ k := Nat.pow_succ'
      have product : fractions * 2 ^ (k + 1) = 2 * (fractions * 2 ^ k) := by
        rw [double, Nat.mul_left_comm]
      have digits : 52 + k + 1 = 53 + k := by omega
      have above : 2 ^ (52 + k) ≤ n := by
        rw [twoPow_add_fractions]
        omega
      have below : n < 2 ^ (52 + k + 1) := by
        rw [Nat.pow_succ, twoPow_add_fractions]
        omega
      have rounds : roundHalfEven n (2 ^ k) = 2 * fractions := by
        refine roundHalfEven_eq (Nat.two_pow_pos k) ?_ ?_ (fun _ => rfl)
        · rw [Nat.mul_assoc]
          omega
        · rw [Nat.mul_assoc]
          omega
      rw [ofNat_eq above below, digits, leadingSignificand_add, rounds, word_carry,
        Nat.min_eq_left (Nat.le_of_lt normal.finite), normal.eq]
  · have wide : (if m = fractions then 1 else 2) * 2 ^ k ≤ 2 * 2 ^ k :=
      Nat.mul_le_mul_right _ (by split <;> omega)
    exact normal.ofNat_of_round notLess (by omega)
      (roundHalfEven_eq positive (by omega) (by omega) fun half => tie (by omega))

/-! ## The values of natural numbers -/

/-- A value is a whole number, and everything in its interval is read as that value. -/
structure Whole (x : Binary64) (m bits v : Nat) : Prop where
  normal : x.Normal m bits
  eq : m * 2 ^ (bits - 53) = v * 2 ^ (53 - bits)
  near : ∀ n, Near m (2 ^ (bits - 53)) (2 ^ (53 - bits)) n → ofNat n = x

theorem Normal.whole {x : Binary64} {m k : Nat} (normal : x.Normal m (53 + k)) :
    x.Whole m (53 + k) (m * 2 ^ k) := by
  have up : 53 + k - 53 = k := by omega
  have down : 53 - (53 + k) = 0 := by omega
  refine ⟨normal, ?_, ?_⟩
  · rw [up, down, Nat.pow_zero, Nat.mul_one]
  · rw [up, down]
    exact fun n near => normal.ofNat_of_near near

/-- A number that fits a significand is the only one in the interval of its value. -/
theorem whole_ofNat_of_short {n b : Nat} (low : 2 ^ b ≤ n) (high : n < 2 ^ (b + 1))
    (short : b ≤ 52) : (ofNat n).Whole (n * 2 ^ (52 - b)) (b + 1) n := by
  have positive := Nat.two_pow_pos (52 - b)
  have up : b + 1 - 53 = 0 := by omega
  have down : 53 - (b + 1) = 52 - b := by omega
  have full : 2 ^ b * 2 ^ (52 - b) = fractions := by
    rw [← Nat.pow_add, Nat.add_sub_cancel' short]
  have least := Nat.mul_le_mul_right (2 ^ (52 - b)) low
  have most := Nat.mul_lt_mul_of_pos_right high positive
  rw [Nat.pow_succ, Nat.mul_right_comm] at most
  have significand : leadingSignificand n (b + 1) = n * 2 ^ (52 - b) := by
    rw [leadingSignificand, if_pos (by omega), down]
    rfl
  have finite : (1021 + (b + 1)) * fractions + n * 2 ^ (52 - b) < infinityBits := by
    rw [full] at most
    simp only [infinityBits, fractions] at most ⊢
    omega
  refine ⟨⟨?_, by omega, by omega, finite⟩, ?_, ?_⟩
  · rw [ofNat_eq low high, significand, Nat.min_eq_left (Nat.le_of_lt finite)]
  · rw [up, down, Nat.pow_zero, Nat.mul_one]
  · rw [up, down]
    rintro other ⟨below, above, -⟩
    have narrow : (if n * 2 ^ (52 - b) = fractions then 1 else 2) ≤ 2 := by split <;> omega
    rcases Nat.lt_trichotomy other n with less | rfl | more
    · have gap := Nat.mul_le_mul_right (2 ^ (52 - b)) (Nat.succ_le_of_lt less)
      rw [Nat.succ_mul] at gap
      omega
    · rfl
    · have gap := Nat.mul_le_mul_right (2 ^ (52 - b)) (Nat.succ_le_of_lt more)
      rw [Nat.succ_mul] at gap
      omega

/-- A number of at least 53 binary digits is rounded to a multiple of a power of two, and that is
its value, unless it is too large. -/
theorem ofNat_of_long {n k : Nat} (low : 2 ^ (52 + k) ≤ n) (high : n < 2 ^ (52 + k + 1)) :
    (infinityBits ≤ (1021 + (53 + k)) * fractions + roundHalfEven n (2 ^ k) ∧
        ofNat n = infinity) ∨
      (1021 + (53 + k)) * fractions + roundHalfEven n (2 ^ k) < infinityBits ∧
        ∃ m bits, (ofNat n).Whole m bits (roundHalfEven n (2 ^ k) * 2 ^ k) ∧
          (roundHalfEven n (2 ^ k) % 2 = 0 → m % 2 = 0) := by
  have digits : 52 + k + 1 = 53 + k := by omega
  have eq := ofNat_eq low high
  rw [digits, leadingSignificand_add] at eq
  rcases Nat.lt_or_ge ((1021 + (53 + k)) * fractions + roundHalfEven n (2 ^ k)) infinityBits with
    finite | infinite
  · rw [Nat.min_eq_left (Nat.le_of_lt finite)] at eq
    rw [twoPow_add_fractions] at low
    rw [Nat.pow_succ, twoPow_add_fractions, Nat.mul_comm, ← Nat.mul_assoc] at high
    obtain ⟨least, most⟩ := roundHalfEven_bounds (Nat.two_pow_pos k) low (Nat.le_of_lt high)
    refine Or.inr ⟨finite, ?_⟩
    rcases Nat.lt_or_ge (roundHalfEven n (2 ^ k)) (2 * fractions) with less | carry
    · exact ⟨_, _, Normal.whole ⟨eq, least, less, finite⟩, id⟩
    · have carried := Nat.le_antisymm most carry
      have product : 2 * fractions * 2 ^ k = fractions * 2 ^ (k + 1) := by
        rw [Nat.pow_succ', Nat.mul_left_comm, Nat.mul_assoc]
      rw [carried, word_carry] at eq finite
      rw [carried, product]
      exact ⟨_, _, Normal.whole ⟨eq, Nat.le_refl _, by decide, finite⟩, fun _ => by decide⟩
  · rw [Nat.min_eq_right infinite] at eq
    exact Or.inl ⟨infinite, eq⟩

/-- A number fits a significand, or it has at least 53 binary digits. -/
theorem short_or_long {n : Nat} (positive : n ≠ 0) :
    (∃ b ≤ 52, 2 ^ b ≤ n ∧ n < 2 ^ (b + 1)) ∨
      ∃ k, 2 ^ (52 + k) ≤ n ∧ n < 2 ^ (52 + k + 1) := by
  have bounds := (Nat.log2_eq_iff positive).mp rfl
  generalize n.log2 = b at bounds
  rcases Nat.le_or_le b 52 with short | long
  · exact Or.inl ⟨b, short, bounds⟩
  · obtain ⟨k, rfl⟩ := Nat.exists_eq_add_of_le long
    exact Or.inr ⟨k, bounds⟩

theorem exists_whole_ofNat {n : Nat} (positive : n ≠ 0) :
    ofNat n = infinity ∨ ∃ m bits v, (ofNat n).Whole m bits v := by
  rcases short_or_long positive with ⟨b, short, low, high⟩ | ⟨k, low, high⟩
  · exact Or.inr ⟨_, _, _, whole_ofNat_of_short low high short⟩
  · rcases ofNat_of_long low high with ⟨-, infinite⟩ | ⟨-, m, bits, whole, -⟩
    · exact Or.inl infinite
    · exact Or.inr ⟨m, bits, _, whole⟩

namespace Whole

variable {x : Binary64} {m bits v : Nat}

/-- A whole number lies in the interval of its value. -/
theorem contains (whole : x.Whole m bits v) : (Interval.ofBinary64 x).contains v 0 := by
  have positive := Nat.two_pow_pos (bits - 53)
  have gap : 0 < if m = fractions then 1 else 2 := by split <;> decide
  have apart := Nat.mul_pos gap positive
  have least : 1 * 2 ^ (bits - 53) ≤ m * 2 ^ (bits - 53) :=
    Nat.mul_le_mul_right _ (Nat.le_trans (by decide) whole.normal.low)
  have narrow : (if m = fractions then 1 else 2) * 2 ^ (bits - 53) ≤ 2 * 2 ^ (bits - 53) :=
    Nat.mul_le_mul_right _ (by split <;> decide)
  rw [whole.normal.contains_iff]
  constructor <;> rw [← whole.eq] <;> simp only [Nat.sub_mul, Nat.add_mul, Nat.mul_assoc] <;> omega

end Whole

end Binary64

namespace Interval

variable {i : Interval} {d : Nat} {e : Int}

/-- A point of a coarse grid is a whole number. -/
theorem contains_tenPow (e : Nat) : i.contains d e = i.contains (d * tenPow e) 0 := by
  have one : tenPow 0 = 1 := rfl
  have fine : (-(e : Int)).toNat = 0 := by omega
  simp only [contains, step, refine, Int.toNat_natCast, fine, Int.neg_zero, Int.toNat_zero, one,
    Nat.mul_one, Nat.one_mul, Nat.mul_assoc, Nat.mul_comm i.den]

theorem contains_of_nearestOn? (found : i.nearestOn? e = some d) : i.contains d e := by
  rw [nearestOn?] at found
  split at found
  · cases found
  · rename_i low _
    cases found
    exact low
  · rename_i _ high
    cases found
    exact high
  · rename_i low high
    split at found
    · cases found
      exact low
    · cases found
      exact high

theorem nearestOn?_ne_none (low : i.contains (i.floorOn e) e) : i.nearestOn? e ≠ none := by
  rw [nearestOn?, low]
  split
  · rename_i none _
    cases none
  · exact nofun
  · exact nofun
  · split <;> exact nofun

/-- A search that gets to the whole numbers ends there at the latest, if there is one in the
interval, and it ends inside. -/
theorem search_contains (here : i.contains (i.floorOn 0) 0) (finest : Int) (below : finest ≤ 0)
    (tries : Nat) (reaches : 0 ≤ finest + tries) :
    0 ≤ (i.search finest tries).exponent ∧
      i.contains (i.search finest tries).digits (i.search finest tries).exponent := by
  induction tries with
  | zero =>
    have zero : finest = 0 := by omega
    rw [search, zero]
    exact ⟨Int.le_refl 0, here⟩
  | succ tries ih =>
    rw [search]
    split
    · rename_i d found
      refine ⟨?_, contains_of_nearestOn? found⟩
      simpa using reaches
    · rename_i nothing
      apply ih
      have notZero : finest + (tries + 1) ≠ 0 := by
        intro zero
        rw [zero] at nothing
        exact nearestOn?_ne_none here nothing
      omega

end Interval

/-! ## Texts -/

namespace Binary64

namespace Whole

variable {x : Binary64} {m bits v : Nat}

theorem ofNat_eq (whole : x.Whole m bits v) : ofNat v = x :=
  whole.near v (whole.normal.contains_iff.mp whole.contains)

theorem positive (whole : x.Whole m bits v) : 0 < v := by
  refine Nat.pos_of_ne_zero fun zero => ?_
  have vanishes := whole.eq
  rw [zero, Nat.zero_mul] at vanishes
  have full : 0 < m := Nat.lt_of_lt_of_le (by decide) whole.normal.low
  have := Nat.mul_pos full (Nat.two_pow_pos (bits - 53))
  omega

/-- The interval of a whole number lies around it, in quarters of the last place. -/
theorem interval_eq (whole : x.Whole m bits v) :
    (Interval.ofBinary64 x).value = v * (Interval.ofBinary64 x).den ∧
      0 < (Interval.ofBinary64 x).den := by
  obtain ⟨up, down⟩ := whole.normal.scale_eq
  have eq := whole.eq
  have pow (k : Nat) : twoPow k = 2 ^ k := rfl
  simp only [Interval.ofBinary64, whole.normal.significand_eq, up, down, pow]
  refine ⟨?_, Nat.mul_pos (by decide) (Nat.two_pow_pos _)⟩
  rw [Nat.mul_assoc, eq, Nat.mul_left_comm]

theorem floorOn_eq (whole : x.Whole m bits v) : (Interval.ofBinary64 x).floorOn 0 = v := by
  obtain ⟨value, den⟩ := whole.interval_eq
  have one : tenPow 0 = 1 := rfl
  simp only [Interval.floorOn, Interval.refine, Interval.step, Int.neg_zero, Int.toNat_zero, one,
    Nat.mul_one]
  rw [value, Nat.mul_div_cancel _ den]

/-- The fewest digits of a whole number are a whole number, which is read as the same value. -/
theorem shortest_eq (whole : x.Whole m bits v) :
    ∃ d e : Nat, x.shortest = ⟨d, e⟩ ∧ 0 < d ∧ ofNat (d * tenPow e) = x := by
  obtain ⟨value, den⟩ := whole.interval_eq
  have notZero : x.significand ≠ 0 := by
    rw [whole.normal.significand_eq]
    exact Nat.ne_of_gt (Nat.lt_of_lt_of_le (by decide) whole.normal.low)
  have large : (Interval.ofBinary64 x).den ≤ (Interval.ofBinary64 x).value := by
    rw [value]
    exact Nat.le_mul_of_pos_left _ whole.positive
  have magnitude : 0 ≤ (Interval.ofBinary64 x).magnitude := by
    rw [Interval.magnitude, if_pos large]
    exact Int.natCast_nonneg _
  have here : (Interval.ofBinary64 x).contains ((Interval.ofBinary64 x).floorOn 0) 0 := by
    rw [whole.floorOn_eq]
    exact whole.contains
  rw [shortest, if_neg notZero]
  dsimp only
  generalize finestEq : (if x.scale < 0 then x.scale else 0) = finest
  have below : finest ≤ 0 := by
    rw [← finestEq]
    split <;> omega
  obtain ⟨natural, inside⟩ := Interval.search_contains here finest below
    ((Interval.ofBinary64 x).magnitude - finest).toNat (by omega)
  generalize (Interval.ofBinary64 x).search finest _ = found at natural inside ⊢
  obtain ⟨d, e⟩ := found
  obtain ⟨e, rfl⟩ := Int.eq_ofNat_of_zero_le natural
  rw [Interval.contains_tenPow, whole.normal.contains_iff] at inside
  refine ⟨d, e, rfl, Nat.pos_of_ne_zero ?_, whole.near _ inside⟩
  rintro rfl
  have above := inside.positive whole.normal.low (Nat.two_pow_pos _)
  rw [Nat.zero_mul] at above
  cases above

end Whole

/-- The text of a value that digits stand for is the digits of a number of that value, unless it
is infinity. -/
theorem text_ofNat (n : Nat) :
    ofNat n = infinity ∨
      ∃ d, (ofNat n).text = String.ofList (digitText d) ∧ ofNat d = ofNat n := by
  by_cases zero : n = 0
  · subst zero
    exact Or.inr ⟨0, by decide, rfl⟩
  · rcases exists_whole_ofNat zero with infinite | ⟨m, bits, v, whole⟩
    · exact Or.inl infinite
    · obtain ⟨d, e, shortest, positive, same⟩ := whole.shortest_eq
      refine Or.inr ⟨d * tenPow e, ?_, same⟩
      rw [text, whole.normal.signed_eq, shortest, Decimal.positional,
        if_pos (Int.natCast_nonneg e), List.append_nil, Int.toNat_natCast,
        digitText_append_zeros positive]

/-- Such a text stands on one line. -/
theorem unbroken_text_ofNat (n : Nat) : '\n' ∉ (ofNat n).text.toList := by
  rcases text_ofNat n with infinite | ⟨d, text, -⟩
  · rw [infinite]
    decide
  · rw [text, String.toList_ofList]
    exact notDigit_notMem_digitText rfl d

/-- A whole number that is written with places has zeros for all of them. -/
theorem Whole.fixed_eq {x : Binary64} {m bits v : Nat} (whole : x.Whole m bits v) (places : Nat) :
    x.fixed places = String.ofList (digitText v ++ '.' :: paddedDigits places 0) := by
  obtain ⟨up, down⟩ := whole.normal.scale_eq
  have pow (k : Nat) : twoPow k = 2 ^ k := rfl
  have ten : 0 < tenPow places := Nat.pow_pos (by decide)
  have scaled : x.scaledTo places = v * tenPow places := by
    rw [scaledTo, whole.normal.significand_eq, up, down, pow, pow, whole.eq, Nat.mul_right_comm]
    exact roundHalfEven_mul (Nat.two_pow_pos _)
  rw [fixed, whole.normal.signed_eq, scaled, Nat.mul_div_cancel _ ten, Nat.mul_mod_left]

/-- Digits before the point of such a value are those of a number of that value, too. -/
theorem fixed_ofNat (n places : Nat) :
    ofNat n = infinity ∨ ∃ v,
      (ofNat n).fixed places = String.ofList (digitText v ++ '.' :: paddedDigits places 0) ∧
        ofNat v = ofNat n := by
  by_cases zero : n = 0
  · subst zero
    have nothing : (ofNat 0).scaledTo places = 0 := by
      have significand : (ofNat 0).significand = 0 := rfl
      have positive (k : Nat) : 0 < twoPow k := Nat.two_pow_pos k
      have rounded := roundHalfEven_mul (q := 0) (positive (-(ofNat 0).scale).toNat)
      rw [Nat.zero_mul] at rounded
      rw [scaledTo, significand, Nat.zero_mul, Nat.zero_mul]
      exact rounded
    refine Or.inr ⟨0, ?_, rfl⟩
    rw [fixed, nothing, Nat.zero_div, Nat.zero_mod]
    rfl
  · rcases exists_whole_ofNat zero with infinite | ⟨m, bits, v, whole⟩
    · exact Or.inl infinite
    · exact Or.inr ⟨v, whole.fixed_eq places, whole.ofNat_eq⟩

/-- Values that digits stand for are told apart by a text that tells numbers apart and that is
the name of infinity for infinity alone. -/
theorem ofNat_eq_of_text (shown : Binary64 → String) (digits : Nat → String)
    (infinite : ∀ d, digits d ≠ shown infinity)
    (injective : ∀ d e, digits d = digits e → d = e)
    (written : ∀ n, ofNat n = infinity ∨ ∃ d, shown (ofNat n) = digits d ∧ ofNat d = ofNat n)
    {m n : Nat} (same : shown (ofNat m) = shown (ofNat n)) : ofNat m = ofNat n := by
  rcases written m with first | ⟨d, first, firstEq⟩ <;>
    rcases written n with second | ⟨e, second, secondEq⟩
  · exact first.trans second.symm
  · rw [first, second] at same
    exact absurd same.symm (infinite e)
  · rw [first, second] at same
    exact absurd same (infinite d)
  · rw [first, second] at same
    rw [← firstEq, ← secondEq, injective d e same]

/-- Two values that digits stand for have the same text only if they are equal. -/
theorem text_ofNat_inj {m n : Nat} : (ofNat m).text = (ofNat n).text ↔ ofNat m = ofNat n := by
  refine ⟨ofNat_eq_of_text text (fun d => String.ofList (digitText d)) ?_ ?_ text_ofNat,
    congrArg text⟩
  · intro d named
    have chars : digitText d = ['i', 'n', 'f'] := String.ofList_injective named
    have notDigit := notDigit_notMem_digitText (c := 'i') rfl d
    rw [chars] at notDigit
    exact notDigit List.mem_cons_self
  · intro d e same
    exact digitText_injective (String.ofList_injective same)

theorem fixed_ofNat_inj {m n places : Nat} :
    (ofNat m).fixed places = (ofNat n).fixed places ↔ ofNat m = ofNat n := by
  refine ⟨ofNat_eq_of_text (fixed · places)
    (fun d => String.ofList (digitText d ++ '.' :: paddedDigits places 0)) ?_ ?_
    fun n => fixed_ofNat n places, congrArg (fixed · places)⟩
  · intro d named
    have chars : digitText d ++ '.' :: paddedDigits places 0 = ['i', 'n', 'f'] :=
      String.ofList_injective named
    have point : '.' ∈ digitText d ++ '.' :: paddedDigits places 0 :=
      List.mem_append_right _ List.mem_cons_self
    rw [chars] at point
    exact absurd point (by decide)
  · intro d e same
    exact digitText_injective (List.append_cancel_right (String.ofList_injective same))

end Binary64

end PipeScript
