import PipeScript.Number.Binary64

/-!
The fewest decimal digits that read back to a floating point value.

A finite value `m * 2 ^ q` stands for an interval of reals: those that round to
it, from halfway to the value below to halfway to the value above, the ends
included when `m` is even. `shortest` tries decimal grids from coarse to fine.
On each it tests the value's two neighbours, and the first grid with a
neighbour inside the interval wins; of two, the nearer one, and the upper one
on an exact tie. The finest grid that is tried holds the value itself, so the
search ends in the interval by construction.
-/

namespace PipeScript

/-! ## Decimal numbers -/

/-- The non-negative number `digits * 10 ^ exponent`. -/
structure Decimal where
  digits : Nat
  exponent : Int
deriving DecidableEq

/-- How many decimal digits a natural number is written with. -/
def decimalLength (n : Nat) : Nat := (Nat.toDigits 10 n).length

/-! ## The interval of a value -/

/-- The positive rational `num / den`, with the ends of the interval that rounds
to it, over the same denominator. -/
structure Interval where
  below : Nat
  value : Nat
  above : Nat
  den : Nat
  /-- Whether the two ends belong to the interval. -/
  closed : Bool

namespace Interval

/-- The interval of a finite value that is not zero, in quarters of its last
place. -/
def ofBinary64 (x : Binary64) : Interval :=
  let m := x.significand
  let up := twoPow x.scale.toNat
  { below := (if x.narrowBelow then 4 * m - 1 else 4 * m - 2) * up
    value := 4 * m * up
    above := (4 * m + 2) * up
    den := 4 * twoPow (-x.scale).toNat
    closed := m % 2 = 0 }

/-- The width of the grid `10 ^ e`, over the interval's denominator scaled by
`refine e`. -/
def step (i : Interval) (e : Int) : Nat := i.den * tenPow e.toNat

/-- The factor that brings the interval's numbers to the grid `10 ^ e`. -/
def refine (e : Int) : Nat := tenPow (-e).toNat

/-- Whether `d * 10 ^ e` lies in the interval. -/
def contains (i : Interval) (d : Nat) (e : Int) : Bool :=
  let point := d * i.step e
  let low := i.below * refine e
  let high := i.above * refine e
  if i.closed then low ≤ point ∧ point ≤ high else low < point ∧ point < high

/-- The multiple of `10 ^ e` at or just below the value. -/
def floorOn (i : Interval) (e : Int) : Nat := i.value * refine e / i.step e

/-- The best point of the grid `10 ^ e` in the interval, if one of the value's
two neighbours on it lies there. -/
def nearestOn? (i : Interval) (e : Int) : Option Nat :=
  let low := i.floorOn e
  match i.contains low e, i.contains (low + 1) e with
  | false, false => none
  | true, false => some low
  | false, true => some (low + 1)
  | true, true =>
    if 2 * (i.value * refine e) < (2 * low + 1) * i.step e then some low else some (low + 1)

/-- The least `k` with the value below `10 ^ k`. -/
def magnitude (i : Interval) : Int :=
  if i.den ≤ i.value then
    decimalLength (i.value / i.den)
  else
    1 - (decimalLength ((i.den - 1) / i.value) : Int)

/-- The first grid with a point in the interval, from `10 ^ (e + tries)` down to
`10 ^ e`. The caller chooses `e` so that the value lies on the last grid. -/
def search (i : Interval) (e : Int) : Nat → Decimal
  | 0 => ⟨i.floorOn e, e⟩
  | tries + 1 =>
    match i.nearestOn? (e + (tries + 1)) with
    | some d => ⟨d, e + (tries + 1)⟩
    | none => search i e tries

end Interval

/-- The fewest digits that read back to a finite value, its sign left aside. -/
def Binary64.shortest (x : Binary64) : Decimal :=
  if x.significand = 0 then
    ⟨0, 0⟩
  else
    let i := Interval.ofBinary64 x
    let finest := if x.scale < 0 then x.scale else 0
    i.search finest (i.magnitude - finest).toNat

end PipeScript
