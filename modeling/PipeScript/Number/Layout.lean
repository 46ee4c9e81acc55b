import PipeScript.Number.Shortest

/-!
Writing floating point values.

* `Binary64.text` has the fewest digits that read back, never an exponent, and
  no point for an integral value.
* `Binary64.dump` has the same digits, but shows that it is a floating point
  value: an integral value keeps `.0`, and the very large and very small ones
  are written with an exponent.
* `Binary64.fixed` has a given number of places, rounded from the exact value.
-/

namespace PipeScript

/-! ## Digits and zeros -/

/-- The digits of a natural number. -/
def digitText (n : Nat) : List Char := Nat.toDigits 10 n

/-- A run of zeros. -/
def zeros (count : Nat) : List Char := List.replicate count '0'

/-- The digits of `n`, with zeros in front up to the given width. -/
def paddedDigits (width n : Nat) : List Char :=
  zeros (width - (digitText n).length) ++ digitText n

namespace Decimal

/-- The exponent of the leading digit. -/
def leadingExponent (d : Decimal) : Int := d.exponent + decimalLength d.digits - 1

/-- Digits and zeros with no exponent; `ending` closes a number that has no point. -/
def positional (d : Decimal) (ending : List Char) : List Char :=
  let ds := digitText d.digits
  if 0 ≤ d.exponent then
    ds ++ zeros d.exponent.toNat ++ ending
  else
    let places := (-d.exponent).toNat
    if places < ds.length then
      ds.take (ds.length - places) ++ '.' :: ds.drop (ds.length - places)
    else
      '0' :: '.' :: zeros (places - ds.length) ++ ds

/-- One digit before the point, the others behind it, and the exponent of the first. -/
def scientific (d : Decimal) : List Char :=
  let mantissa := match digitText d.digits with
    | first :: second :: rest => first :: '.' :: second :: rest
    | single => single
  let e := d.leadingExponent
  mantissa ++ 'e' :: (if e < 0 then ['-'] else []) ++ digitText e.natAbs

/-- Dumps write a decimal with no exponent from `0.0001` up to, but not
including, `10 ^ 16`. Zero, whose leading exponent is zero, counts among these. -/
def dump (d : Decimal) : List Char :=
  if -4 ≤ d.leadingExponent ∧ d.leadingExponent < 16 then
    d.positional ['.', '0']
  else
    d.scientific

end Decimal

namespace Binary64

/-! ## Special values and signs -/

/-- Gives NaN and the infinities their names, and a finite value its sign before
its written magnitude. NaN has no sign. -/
def signed (x : Binary64) (magnitude : List Char) : String :=
  let sign := if x.negative then ['-'] else []
  if x.isNaN then "NaN"
  else if x.isFinite then String.ofList (sign ++ magnitude)
  else String.ofList (sign ++ ['i', 'n', 'f'])

/-- The fewest digits that read back, positionally, with no point where none is needed. -/
def text (x : Binary64) : String := x.signed (x.shortest.positional [])

/-- The fewest digits that read back, marked as a floating point value. -/
def dump (x : Binary64) : String := x.signed x.shortest.dump

/-! ## A fixed number of places -/

/-- The magnitude of a finite value times `10 ^ places`, rounded to an integer
with a half going to the even one. -/
def scaledTo (x : Binary64) (places : Nat) : Nat :=
  roundHalfEven (x.significand * twoPow x.scale.toNat * tenPow places) (twoPow (-x.scale).toNat)

/-- The exact value rounded to a number of places that is not zero. -/
def fixed (x : Binary64) (places : Nat) : String :=
  let n := x.scaledTo places
  x.signed (digitText (n / tenPow places) ++ '.' :: paddedDigits places (n % tenPow places))

end Binary64

end PipeScript
