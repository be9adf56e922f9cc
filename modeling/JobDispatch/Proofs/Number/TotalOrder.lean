import JobDispatch.Number.Double
import Mathlib.Order.Monotone.Defs
import Mathlib.Tactic.Ring

/-!
# The total order of doubles

IEEE 754 orders all doubles in section 5.10 by what they are: numbers by their values, minus zero
before zero, NaNs outside the numbers on the side of their sign and by their payloads.  The place of a
double by its bits, `Double.orderKey`, gives the same order.  For the numbers this rests on the units
growing strictly with the bits below the sign: inside one scale the significand grows, and the smallest
significand of a scale is beyond the largest of the scale before.

## Main definitions

* `Double.Below` — less than, as numbers, with the infinities.
* `Double.nanLe` — the order of NaNs of one sign, signaling before quiet and then by payload.
* `Double.TotalLe` — the total order, by what the doubles are.

## Main results

* `Double.units_lt_units` — the units grow strictly with the bits below the sign.
* `Double.totalLe_iff` — **the total order is the order of the places.**
-/

namespace JobDispatch

namespace Double

/-! ### The order, by what doubles are -/

/-- Less than, as numbers: minus infinity is below everything else, infinity above.  A NaN is not
asked about. -/
def Below (x y : Double) : Prop :=
  if x.isFinite then
    if y.isFinite then x.value < y.value else y.isNegative = false
  else
    x.isNegative = true ∧ ¬ (y.isFinite = false ∧ y.isNegative = true)

/-- Whether a NaN is quiet: the first of its fraction bits is set. -/
def isQuiet (x : Double) : Bool := decide (2 ^ 51 ≤ x.magnitudeBits % 2 ^ 52)

/-- The payload of a NaN: the fraction bits after the first. -/
def payload (x : Double) : Nat := x.magnitudeBits % 2 ^ 51

/-- The order of positive NaNs: signaling ones before quiet ones, then by the payload. -/
def nanLe (x y : Double) : Prop :=
  (x.isQuiet = false ∧ y.isQuiet = true) ∨ (x.isQuiet = y.isQuiet ∧ x.payload ≤ y.payload)

/-- The total order of all doubles.  Numbers stand by their values, and of equal numbers the one with
its sign bit set first; NaNs stand outside on the side of their sign, the negative ones in reverse. -/
def TotalLe (x y : Double) : Prop :=
  if x.isNaN then
    if y.isNaN then
      if x.isNegative = y.isNegative then (if x.isNegative then nanLe y x else nanLe x y)
      else x.isNegative = true
    else x.isNegative = true
  else if y.isNaN then y.isNegative = false
  else Below x y ∨ (¬ Below y x ∧ (y.isNegative = true → x.isNegative = true))

/-! ### Units and bits -/

theorem magnitudeBits_lt (x : Double) : x.magnitudeBits < 2 ^ 63 :=
  Nat.mod_lt _ (Nat.two_pow_pos 63)

/-- Below the first scale the units are the bits. -/
theorem units_of_lt {x : Double} (h : x.magnitudeBits < 2 ^ 52) : x.units = x.magnitudeBits := by
  have hscale : x.scale = 0 := by
    rw [scale, Nat.pow_eq, Nat.div_eq_of_lt h]
  have hsignificand : x.significand = x.magnitudeBits := if_pos h
  rw [units, hscale, hsignificand, Nat.pow_eq, Nat.pow_zero, Nat.mul_one]

/-- From the first scale on, a leading bit stands before the fraction. -/
theorem units_of_le {x : Double} (h : 2 ^ 52 ≤ x.magnitudeBits) :
    x.units = (2 ^ 52 + x.magnitudeBits % 2 ^ 52) * 2 ^ (x.magnitudeBits / 2 ^ 52 - 1) := by
  have hsignificand : x.significand = 2 ^ 52 + x.magnitudeBits % 2 ^ 52 := if_neg (Nat.not_lt.mpr h)
  rw [units, hsignificand]
  rfl

/-- **The units grow strictly with the bits below the sign.** -/
theorem units_lt_units {x y : Double} (h : x.magnitudeBits < y.magnitudeBits) :
    x.units < y.units := by
  rcases Nat.lt_or_ge y.magnitudeBits (2 ^ 52) with hy | hy
  · -- both below the first scale
    rw [units_of_lt (Nat.lt_trans h hy), units_of_lt hy]
    exact h
  have hyscaled := units_of_le hy
  rcases Nat.lt_or_ge x.magnitudeBits (2 ^ 52) with hx | hx
  · -- only the second has a leading bit, which is beyond all bits of the first
    rw [units_of_lt hx, hyscaled]
    calc x.magnitudeBits < 2 ^ 52 := hx
      _ ≤ 2 ^ 52 + y.magnitudeBits % 2 ^ 52 := Nat.le_add_right _ _
      _ ≤ _ := Nat.le_mul_of_pos_right _ (Nat.two_pow_pos _)
  have hxscaled := units_of_le hx
  rw [hxscaled, hyscaled]
  have hfraction : x.magnitudeBits % 2 ^ 52 < 2 ^ 52 := Nat.mod_lt _ (Nat.two_pow_pos _)
  have hpositive : 0 < x.magnitudeBits / 2 ^ 52 := Nat.div_pos hx (Nat.two_pow_pos _)
  rcases (Nat.div_le_div_right (c := 2 ^ 52) (Nat.le_of_lt h)).eq_or_lt with hsame | hnext
  · -- one scale: the fraction decides
    rw [hsame]
    have hparts : x.magnitudeBits % 2 ^ 52 < y.magnitudeBits % 2 ^ 52 := by omega
    exact Nat.mul_lt_mul_of_pos_right (Nat.add_lt_add_left hparts _) (Nat.two_pow_pos _)
  · -- two scales: the first number is less than twice its leading bit
    have hdouble : 2 * 2 ^ (x.magnitudeBits / 2 ^ 52 - 1) = 2 ^ (x.magnitudeBits / 2 ^ 52) := by
      rw [← Nat.pow_succ', Nat.succ_eq_add_one, Nat.sub_add_cancel hpositive]
    have hscale : 2 ^ (x.magnitudeBits / 2 ^ 52) ≤ 2 ^ (y.magnitudeBits / 2 ^ 52 - 1) :=
      Nat.pow_le_pow_right (Nat.succ_pos 1) (Nat.le_sub_one_of_lt hnext)
    calc (2 ^ 52 + x.magnitudeBits % 2 ^ 52) * 2 ^ (x.magnitudeBits / 2 ^ 52 - 1)
        < (2 ^ 52 + 2 ^ 52) * 2 ^ (x.magnitudeBits / 2 ^ 52 - 1) :=
          Nat.mul_lt_mul_of_pos_right (Nat.add_lt_add_left hfraction _) (Nat.two_pow_pos _)
      _ = 2 ^ 52 * 2 ^ (x.magnitudeBits / 2 ^ 52) := by rw [← hdouble]; ring
      _ ≤ 2 ^ 52 * 2 ^ (y.magnitudeBits / 2 ^ 52 - 1) := Nat.mul_le_mul_left _ hscale
      _ ≤ _ := Nat.mul_le_mul_right _ (Nat.le_add_right _ _)

/-- Units and bits have the same order. -/
theorem units_lt_units_iff {x y : Double} :
    x.units < y.units ↔ x.magnitudeBits < y.magnitudeBits := by
  refine ⟨fun h => ?_, units_lt_units⟩
  rcases Nat.lt_trichotomy x.magnitudeBits y.magnitudeBits with hlt | heq | hgt
  · exact hlt
  · have hunits : x.units = y.units := by
      rw [units, units, significand, significand, scale, scale, heq]
    omega
  · have hunits := units_lt_units hgt
    omega

/-! ### Numbers and their places -/

/-- A number of units is zero exactly for the zeros. -/
theorem units_pos_iff (x : Double) : 0 < x.units ↔ 0 < x.magnitudeBits := by
  have hzero : zero.units = 0 := by decide
  have hbits : zero.magnitudeBits = 0 := by decide
  have hiff := units_lt_units_iff (x := zero) (y := x)
  rwa [hzero, hbits] at hiff

/-- Values and places have the same strict order, but for the zeros, which have one value. -/
theorem value_lt_value_iff (x y : Double) :
    x.value < y.value ↔
      x.orderKey < y.orderKey ∧ ¬ (x.magnitudeBits = 0 ∧ y.magnitudeBits = 0) := by
  have hlt := units_lt_units_iff (x := x) (y := y)
  have hgt := units_lt_units_iff (x := y) (y := x)
  have hxpos := units_pos_iff x
  have hypos := units_pos_iff y
  cases hx : x.isNegative with
  | false =>
    cases hy : y.isNegative with
    | false => simp only [value, orderKey, hx, hy, Bool.false_eq_true, if_false]; omega
    | true => simp only [value, orderKey, hx, hy, Bool.false_eq_true, if_false, if_true]; omega
  | true =>
    cases hy : y.isNegative with
    | false => simp only [value, orderKey, hx, hy, Bool.false_eq_true, if_false, if_true]; omega
    | true => simp only [value, orderKey, hx, hy, if_true]; omega

/-- Among numbers, being below is being at an earlier place, but for the zeros. -/
theorem below_iff {x y : Double} (hx : x.isNaN = false) (hy : y.isNaN = false) :
    Below x y ↔
      x.orderKey < y.orderKey ∧ ¬ (x.magnitudeBits = 0 ∧ y.magnitudeBits = 0) := by
  have hxle : x.magnitudeBits ≤ infinityBits := Nat.not_lt.mp (of_decide_eq_false hx)
  have hyle : y.magnitudeBits ≤ infinityBits := Nat.not_lt.mp (of_decide_eq_false hy)
  have hpos : 0 < infinityBits := by decide
  unfold Below
  cases hxf : x.isFinite with
  | true =>
    have hxlt : x.magnitudeBits < infinityBits := of_decide_eq_true hxf
    cases hyf : y.isFinite with
    | true => simpa using value_lt_value_iff x y
    | false =>
      -- an infinity is above or below all finite numbers, by its sign
      have hyge : ¬ y.magnitudeBits < infinityBits := of_decide_eq_false hyf
      cases hys : y.isNegative <;> cases hxs : x.isNegative <;>
        simp [orderKey, hxs, hys] <;> omega
  | false =>
    have hxge : ¬ x.magnitudeBits < infinityBits := of_decide_eq_false hxf
    cases hyf : y.isFinite with
    | true =>
      have hylt : y.magnitudeBits < infinityBits := of_decide_eq_true hyf
      cases hys : y.isNegative <;> cases hxs : x.isNegative <;>
        simp [orderKey, hxs, hys] <;> omega
    | false =>
      have hyge : ¬ y.magnitudeBits < infinityBits := of_decide_eq_false hyf
      cases hys : y.isNegative <;> cases hxs : x.isNegative <;>
        simp [orderKey, hxs, hys] <;> omega

/-- Of NaNs, the order by quietness and payload is the order of the bits below the sign. -/
theorem nanLe_iff {x y : Double} (hx : x.isNaN = true) (hy : y.isNaN = true) :
    nanLe x y ↔ x.magnitudeBits ≤ y.magnitudeBits := by
  have hxlt := magnitudeBits_lt x
  have hylt := magnitudeBits_lt y
  have hinf : infinityBits = 2047 * 2 ^ 52 := rfl
  have hxgt : 2047 * 2 ^ 52 < x.magnitudeBits := hinf ▸ of_decide_eq_true hx
  have hygt : 2047 * 2 ^ 52 < y.magnitudeBits := hinf ▸ of_decide_eq_true hy
  unfold nanLe isQuiet payload
  by_cases hxq : 2 ^ 51 ≤ x.magnitudeBits % 2 ^ 52
  · by_cases hyq : 2 ^ 51 ≤ y.magnitudeBits % 2 ^ 52
    · simp only [decide_eq_true hxq, decide_eq_true hyq, reduceCtorEq, false_and, false_or, true_and]
      omega
    · simp only [decide_eq_true hxq, decide_eq_false hyq, reduceCtorEq, false_and, or_false, false_iff]
      omega
  · by_cases hyq : 2 ^ 51 ≤ y.magnitudeBits % 2 ^ 52
    · simp only [decide_eq_false hxq, decide_eq_true hyq, and_self, true_or, true_iff]
      omega
    · simp only [decide_eq_false hxq, decide_eq_false hyq, reduceCtorEq, and_false, false_or, true_and]
      omega

/-- **The total order is the order of the places.** -/
theorem totalLe_iff (x y : Double) : TotalLe x y ↔ x.orderKey ≤ y.orderKey := by
  unfold TotalLe
  cases hx : x.isNaN with
  | true =>
    have hxgt : infinityBits < x.magnitudeBits := of_decide_eq_true hx
    cases hy : y.isNaN with
    | true =>
      have hnan := nanLe_iff hx hy
      have hnan' := nanLe_iff hy hx
      cases hxs : x.isNegative <;> cases hys : y.isNegative
      all_goals
        simp only [orderKey, hxs, hys, hnan, hnan', if_true, if_false, Bool.false_eq_true, reduceCtorEq,
          true_iff, false_iff]
        omega
    | false =>
      have hyle : ¬ infinityBits < y.magnitudeBits := of_decide_eq_false hy
      cases hxs : x.isNegative <;> cases hys : y.isNegative <;>
        simp [orderKey, hxs, hys] <;> omega
  | false =>
    have hxle : ¬ infinityBits < x.magnitudeBits := of_decide_eq_false hx
    cases hy : y.isNaN with
    | true =>
      have hygt : infinityBits < y.magnitudeBits := of_decide_eq_true hy
      cases hxs : x.isNegative <;> cases hys : y.isNegative <;>
        simp [orderKey, hxs, hys] <;> omega
    | false =>
      -- two numbers: equal values are equal bits but for the zeros, whose signs decide
      have hbelow := below_iff hx hy
      have habove := below_iff hy hx
      cases hxs : x.isNegative <;> cases hys : y.isNegative <;>
        simp [orderKey, hxs, hys, hbelow, habove] <;> omega

instance (x y : Double) : Decidable (TotalLe x y) := decidable_of_iff _ (totalLe_iff x y).symm

/-- The two zeros and the infinities in their places. -/
example : TotalLe (infinity true) negZero ∧ TotalLe negZero zero ∧ ¬ TotalLe zero negZero ∧
    TotalLe (nan true) (infinity true) ∧ TotalLe (infinity false) (nan false) := by decide

end Double

end JobDispatch
