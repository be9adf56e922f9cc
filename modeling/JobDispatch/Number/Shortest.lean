import JobDispatch.Number.Double

/-!
# Shortest digits

The fewest decimal digits that still name one double among all.  The decimals that round to a double
fill an interval around it; the digits come from the coarsest grid of multiples of a power of ten
that has a point in that interval, and of its points the nearest one.

## Main definitions

* `Decimal` — a natural number times a power of ten.
* `Double.shortest` — the shortest decimal of a finite double's magnitude.
-/

namespace JobDispatch

/-- The number `digits * 10 ^ exponent`. -/
structure Decimal where
  digits : Nat
  exponent : Int
  deriving DecidableEq

/-- Which of two equally near decimals is taken. -/
inductive Tie
  /-- The one whose last digit is even. -/
  | toEven
  /-- The larger one. -/
  | upward
  deriving DecidableEq

/-- The decimals that round to one double: those from `low` to `high`, with the ends if `closed`,
around `centre`.  The three are over one common denominator. -/
structure RoundingInterval where
  low : Nat
  centre : Nat
  high : Nat
  closed : Bool

namespace RoundingInterval

/-- Whether a value over the common denominator lies in the interval. -/
def contains (i : RoundingInterval) (v : Nat) : Bool :=
  if i.closed then decide (i.low ≤ v ∧ v ≤ i.high) else decide (i.low < v ∧ v < i.high)

/-- The multiple of `step` in the interval that is nearest to its centre.  If the interval holds any
multiple of `step`, it holds one of the two around the centre. -/
def nearestMultiple? (tie : Tie) (i : RoundingInterval) (step : Nat) : Option Nat :=
  let t := i.centre / step
  match i.contains (t * step), i.contains ((t + 1) * step) with
  | true, false => some t
  | false, true => some (t + 1)
  | false, false => none
  | true, true =>
    let below := 2 * (i.centre - t * step)
    if below < step then some t
    else if step < below then some (t + 1)
    else match tie with
      | .toEven => some (if t % 2 = 0 then t else t + 1)
      | .upward => some (t + 1)

end RoundingInterval

namespace Double

/-- The common denominator of a double's interval is `4 * unitsPerOne`: the interval ends half way
to the neighbours, and the neighbour below a power of two is only half as far away. -/
def roundingInterval (x : Double) : RoundingInterval :=
  let m := x.significand
  let gap := if m = Nat.pow 2 52 ∧ 0 < x.scale then 1 else 2
  let unit := Nat.pow 2 x.scale
  ⟨(4 * m - gap) * unit, 4 * m * unit, (4 * m + 2) * unit, m % 2 == 0⟩

/-- The nearest multiple of `10 ^ k` that rounds to `x`. -/
def onGrid? (tie : Tie) (x : Double) (k : Int) : Option Nat :=
  let i := x.roundingInterval
  let up := Nat.pow 10 (-k).toNat
  let scaled : RoundingInterval := ⟨i.low * up, i.centre * up, i.high * up, i.closed⟩
  scaled.nearestMultiple? tie (4 * unitsPerOne * Nat.pow 10 k.toNat)

/-- The first grid with a hit among `n` grids from `10 ^ k` downwards. -/
def firstGrid? (tie : Tie) (x : Double) : Nat → Int → Option Decimal
  | 0, _ => none
  | n + 1, k =>
    match onGrid? tie x k with
    | some t => some ⟨t, k⟩
    | none => firstGrid? tie x n (k - 1)

/-- An exponent whose power of ten exceeds the finite double `x`. -/
def decimalCeiling (x : Double) : Int :=
  (((x.significand.log2 : Int) + x.scale - 1073) * 30103) / 100000 + 2

/-- **The shortest decimal that rounds to the magnitude of `x`**, for a finite `x` other than zero.
Seventeen digits always suffice, so the search ends at a hit; the exact expansion stands in for the
case that cannot arise. -/
def shortest (tie : Tie) (x : Double) : Decimal :=
  (firstGrid? tie x 24 x.decimalCeiling).getD ⟨x.units * Nat.pow 5 unitHalvings, -unitHalvings⟩

end Double

end JobDispatch
