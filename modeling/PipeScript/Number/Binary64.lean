/-!
Numbers of the script language are 64-bit binary floating point values. They
are held here by their three fields, so that reading a literal and printing a
value are exact arithmetic on natural numbers.

`Binary64.ofNat` rounds a natural number to the nearest value, a tie going to
the even neighbour, and gives infinity where the nearest value would need an
exponent beyond the largest one.
-/

namespace PipeScript

/-! ## Powers and rounded quotients -/

/-- A power of two. -/
def twoPow (n : Nat) : Nat := Nat.pow 2 n

/-- A power of ten. -/
def tenPow (n : Nat) : Nat := Nat.pow 10 n

/-- The integer nearest to `num / den`, an exact half going to the even neighbour. -/
def roundHalfEven (num den : Nat) : Nat :=
  let quotient := num / den
  let twice := 2 * (num % den)
  if den < twice ∨ (twice = den ∧ quotient % 2 = 1) then quotient + 1 else quotient

/-! ## Values by their fields -/

namespace Binary64

/-- The number of fractions that go with one exponent, two to the power of 52.
It is also the weight of the exponent field in a word, and of the leading bit
of a significand. -/
abbrev fractions : Nat := 0x10000000000000

/-- The number of exponents. -/
abbrev exponents : Nat := 2048

end Binary64

/-- A 64-bit floating point value: sign, biased exponent and fraction. -/
structure Binary64 where
  negative : Bool
  exponent : Fin Binary64.exponents
  fraction : Fin Binary64.fractions
deriving DecidableEq

namespace Binary64

/-- The value whose 64-bit word is `word`; higher bits are dropped. -/
def ofBits (word : Nat) : Binary64 where
  negative := word / (exponents * fractions) % 2 = 1
  exponent := ⟨word / fractions % exponents, Nat.mod_lt _ (by decide)⟩
  fraction := ⟨word % fractions, Nat.mod_lt _ (by decide)⟩

/-- Positive zero. -/
def zero : Binary64 := ofBits 0

/-- The word of positive infinity: the largest exponent field and no fraction. -/
def infinityBits : Nat := 2047 * fractions

/-- Positive infinity. -/
def infinity : Binary64 := ofBits infinityBits

/-- The largest exponent field marks the values that are not finite. -/
def isFinite (x : Binary64) : Bool := x.exponent.val ≠ 2047

/-- Not a number: the largest exponent field with a fraction. -/
def isNaN (x : Binary64) : Bool := x.exponent.val = 2047 ∧ x.fraction.val ≠ 0

/-- A finite value is its significand times a power of two, up to its sign. -/
def significand (x : Binary64) : Nat :=
  if x.exponent.val = 0 then x.fraction.val else fractions + x.fraction.val

/-- The exponent of the power of two that goes with the significand. -/
def scale (x : Binary64) : Int := (if x.exponent.val = 0 then 1 else x.exponent.val : Nat) - 1075

/-- The gap to the value below is half the gap to the value above: so it is at
the powers of two, where the exponent changes. -/
def narrowBelow (x : Binary64) : Bool := x.fraction.val = 0 ∧ 1 < x.exponent.val

/-! ## From natural numbers -/

/-- The 53-bit significand nearest to a number of `bits` binary digits, scaled
so that its leading bit is the 53rd. Rounding may carry it into the next one. -/
def leadingSignificand (n bits : Nat) : Nat :=
  if bits ≤ 53 then n * twoPow (53 - bits) else roundHalfEven n (twoPow (bits - 53))

/-- The value nearest to a natural number. A number of `bits` binary digits has
the exponent field `1022 + bits`; the significand's leading bit adds the last
unit to that field, and a carry out of the significand one more. -/
def ofNat (n : Nat) : Binary64 :=
  if n = 0 then
    zero
  else
    let bits := n.log2 + 1
    let word := (1021 + bits) * fractions + leadingSignificand n bits
    ofBits (if word < infinityBits then word else infinityBits)

end Binary64

end PipeScript
