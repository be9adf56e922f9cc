import JobDispatch.Number.Rounding

/-!
# Double-precision numbers

A double is given by its 64 bits: a sign, eleven exponent bits and 52 fraction bits.  Every finite
double is a whole multiple of the smallest positive one, `2 ^ -1074`, so its magnitude is a natural
number of such *units* and all arithmetic below is exact until one final rounding.

## Main definitions

* `Double.units` — the magnitude of a finite double, in units.
* `Double.nearest` — the double nearest to a quotient of natural numbers.
* `Double.orderKey` — the place of a double in the total order of all 64-bit patterns.
* `Double.isPositive` — the doubles greater than zero.
-/

namespace JobDispatch

/-- A double-precision number, by its bits. -/
structure Double where
  /-- Sign bit, eleven exponent bits and 52 fraction bits, the sign bit highest. -/
  bits : UInt64
  deriving DecidableEq, Inhabited

namespace Double

/-- How many times one is halved to come to a unit. -/
def unitHalvings : Nat := 1074

/-- How many units one is: a unit is `2 ^ -1074`. -/
def unitsPerOne : Nat := Nat.pow 2 unitHalvings

/-- The bits of infinity without its sign: all exponent bits are set. -/
def infinityBits : Nat := 2047 * Nat.pow 2 52

/-- A double from its sign and the 63 bits below the sign. -/
def ofSignMagnitude (negative : Bool) (magnitude : Nat) : Double :=
  ⟨UInt64.ofNat (if negative then Nat.pow 2 63 + magnitude else magnitude)⟩

/-- Whether the sign bit is set. -/
def isNegative (x : Double) : Bool := decide (Nat.pow 2 63 ≤ x.bits.toNat)

/-- The bits below the sign bit. -/
def magnitudeBits (x : Double) : Nat := x.bits.toNat % Nat.pow 2 63

/-- Neither infinite nor a NaN. -/
def isFinite (x : Double) : Bool := decide (x.magnitudeBits < infinityBits)

/-- Not a number. -/
def isNaN (x : Double) : Bool := decide (infinityBits < x.magnitudeBits)

/-- Zero of either sign. -/
def isZero (x : Double) : Bool := x.magnitudeBits == 0

/-- Greater than zero; a NaN is not. -/
def isPositive (x : Double) : Bool := !x.isNegative && !x.isZero && !x.isNaN

/-- The significand of a finite double: `significand * 2 ^ scale` units. -/
def significand (x : Double) : Nat :=
  if x.magnitudeBits < Nat.pow 2 52 then x.magnitudeBits
  else Nat.pow 2 52 + x.magnitudeBits % Nat.pow 2 52

/-- The binary scale of a finite double, over units. -/
def scale (x : Double) : Nat := x.magnitudeBits / Nat.pow 2 52 - 1

/-- The magnitude of a finite double, in units. -/
def units (x : Double) : Nat := x.significand * Nat.pow 2 x.scale

/-- The value of a finite double, in units. -/
def value (x : Double) : Int := if x.isNegative then -(x.units : Int) else x.units

/-- Zero. -/
def zero : Double := ⟨0⟩

/-- Zero with its sign bit set. -/
def negZero : Double := ofSignMagnitude true 0

/-- Infinity of the given sign. -/
def infinity (negative : Bool) : Double := ofSignMagnitude negative infinityBits

/-- The quiet NaN of the given sign. -/
def nan (negative : Bool) : Double := ofSignMagnitude negative (infinityBits + Nat.pow 2 51)

/-! ### Rounding to a double -/

/-- The bits, without sign, of the double nearest to `n / d` units: the significand is cut to 53
bits, a tie goes to the even one, and what exceeds the largest finite double is infinite. -/
def nearestUnits (n d : Nat) : Nat :=
  let q := (n / d).log2 + 1 - 53
  min (q * Nat.pow 2 52 + roundDiv n (d * Nat.pow 2 q)) infinityBits

/-- The double nearest to `n / d`, with the given sign. -/
def nearest (negative : Bool) (n d : Nat) : Double :=
  ofSignMagnitude negative (nearestUnits (n * unitsPerOne) d)

/-- The double nearest to a whole number; zero has no sign. -/
def ofInt (i : Int) : Double := nearest (decide (i < 0)) i.natAbs 1

/-- The double nearest to a natural number. -/
def ofNat (n : Nat) : Double := nearest false n 1

/-- The product of finite doubles. -/
def mul (x y : Double) : Double :=
  ofSignMagnitude (x.isNegative != y.isNegative) (nearestUnits (x.units * y.units) unitsPerOne)

/-- The quotient of finite doubles; the divisor is not zero. -/
def div (x y : Double) : Double :=
  ofSignMagnitude (x.isNegative != y.isNegative) (nearestUnits (x.units * unitsPerOne) y.units)

/-- The sum of finite doubles. -/
def add (x y : Double) : Double :=
  let sum := x.value + y.value
  ofSignMagnitude (if sum = 0 then x.isNegative && y.isNegative else decide (sum < 0))
    (nearestUnits sum.natAbs 1)

/-- The double with the opposite sign. -/
def neg (x : Double) : Double := ofSignMagnitude (!x.isNegative) x.magnitudeBits

/-! ### Order -/

/-- The place of a double in the total order: NaNs with their sign bit set come first, then minus
infinity, the negative numbers, the two zeros, the positive numbers, infinity, and the other NaNs
last. -/
def orderKey (x : Double) : Int :=
  if x.isNegative then -(x.magnitudeBits : Int) - 1 else x.magnitudeBits

/-- The doubles below `y` as numbers: a NaN is below nothing and nothing is below it, and the zeros
are not below each other. -/
def lessThan (x y : Double) : Bool :=
  !x.isNaN && !y.isNaN && !(x.isZero && y.isZero) && decide (x.orderKey < y.orderKey)

/-- The number one. -/
def one : Double := ofNat 1

end Double

end JobDispatch
