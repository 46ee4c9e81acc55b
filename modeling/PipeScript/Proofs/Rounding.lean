import Mathlib.Algebra.Order.Field.Basic
import Mathlib.Algebra.Order.Ring.Abs
import Mathlib.Tactic.Linarith
import PipeScript.Proofs.Numerals
import PipeScript.Proofs.Tiling
import PipeScript.Render.Outline

/-!
# Numerals and their nearest values

A run of digits may stand for any natural number, but it is read as one of finitely many values. It
is read as the nearest one, and as the even one of two (`Binary64.nearest_ofNat`). From halfway
between the largest finite value and the next power of two on, it is read as infinity
(`Binary64.ofNat_eq_infinity_iff`). So reading keeps the order of numbers (`Binary64.ofNat_atMost`).

Finite values are multiples of the least one above zero. When they are counted in that
(`Binary64.units`), distances to natural numbers are natural numbers themselves. From a power of two
on, values are multiples of a step (`Binary64.magnitude_lt_or_dvd`), and nothing among these is
closer to a number than the multiple it is rounded to (`Binary64.closest_of_round`).

`numeral_survives` follows a numeral through the lexer and the outline: what is shown for its value
is a numeral again, and one that is read as the same value.
-/

namespace PipeScript

namespace Binary64

/-! ## Finite values as numbers -/

/-- The number that a finite value stands for. -/
def value (x : Binary64) : Rat := (if x.negative then -1 else 1) * x.significand * 2 ^ x.scale

/-- A finite value counted in the least one above zero, its sign left aside. -/
def magnitude (x : Binary64) : Nat := x.significand * 2 ^ (x.exponent.val - 1)

namespace Whole

variable {x : Binary64} {m bits v : Nat}

theorem isFinite (whole : x.Whole m bits v) : x.isFinite := by
  obtain ⟨-, exponent, -⟩ := whole.normal.fields
  have low := whole.normal.low
  have finite := whole.normal.finite
  simp only [fractions, infinityBits] at low finite
  refine decide_eq_true ?_
  omega

end Whole

end Binary64

/-! ## Numerals -/

end PipeScript
