import Mathlib.Tactic.Ring
import JobDispatch.Proofs.Number.TotalOrder

/-!
# How far rounding goes

A quotient that is rounded to a double stays finite as long as it is below the point half way between
the largest double and the next power of two, and a whole number that is rounded grows by at most one
part in `2 ^ 53`.

## Main definitions

* `Double.roundingScale`, `Double.roundedSignificand` — the two parts of a rounded quotient.
* `Double.topScale` — the scale of the largest doubles.

## Main results

* `Double.nearestUnits_lt_infinityBits` — **what is below the half-way point stays finite.**
* `Double.units_of_parts` — the units of a double whose bits are put together from scale and significand.
* `Double.units_ofNat_mul_le` — **a rounded whole number is too large by one part in `2 ^ 53` at most.**
-/

namespace JobDispatch

/-! ### Rounding a quotient -/

/-- A rounded quotient is at most half a divisor too large. -/
theorem roundDiv_mul_le (n d : Nat) : 2 * (roundDiv n d * d) ≤ 2 * n + d := by
  have hparts : d * (n / d) + n % d = n := Nat.div_add_mod n d
  unfold roundDiv
  split
  · rw [Nat.mul_comm (n / d) d]
    omega
  · next h =>
    -- what is rounded up has a remainder of at least half a divisor
    have hhalf : d ≤ 2 * (n % d) := by
      rcases Nat.lt_or_ge (2 * (n % d)) d with hlt | hge
      · exact absurd (Or.inl hlt) h
      · exact hge
    have hup : (n / d + 1) * d = d * (n / d) + d := by ring
    omega

/-- A quotient below the middle between two whole numbers is not rounded up to the second. -/
theorem roundDiv_le_of_lt {n d b : Nat} (h : 2 * n < d * (2 * b + 1)) : roundDiv n d ≤ b := by
  have hround := roundDiv_mul_le n d
  have hlt : roundDiv n d * d < (b + 1) * d := by
    have hexpand : 2 * ((b + 1) * d) = d * (2 * b + 1) + d := by ring
    omega
  exact Nat.le_of_lt_succ (Nat.lt_of_mul_lt_mul_right hlt)

namespace Double

theorem unitsPerOne_pos : 0 < unitsPerOne := by decide +kernel

/-- The binary scale to which a quotient is rounded. -/
def roundingScale (n d : Nat) : Nat := (n / d).log2 + 1 - 53

/-- The significand to which a quotient is rounded; it may have one bit more than a double has. -/
def roundedSignificand (n d : Nat) : Nat := roundDiv n (d * 2 ^ roundingScale n d)

theorem nearestUnits_eq (n d : Nat) :
    nearestUnits n d
      = min (roundingScale n d * 2 ^ 52 + roundedSignificand n d) infinityBits := rfl

/-- The quotient has no more bits than the significand and its scale. -/
theorem div_lt_two_pow (n d : Nat) : n / d < 2 ^ (53 + roundingScale n d) := by
  have hlog : n / d < 2 ^ ((n / d).log2 + 1) := Nat.lt_log2_self
  have hexp : (n / d).log2 + 1 ≤ 53 + roundingScale n d := by
    unfold roundingScale
    omega
  exact Nat.lt_of_lt_of_le hlog (Nat.pow_le_pow_right (by decide) hexp)

theorem roundedSignificand_le (n d : Nat) : roundedSignificand n d ≤ 2 ^ 53 := by
  have hscaled : n / (d * 2 ^ roundingScale n d) < 2 ^ 53 := by
    rw [← Nat.div_div_eq_div_mul, Nat.div_lt_iff_lt_mul (Nat.two_pow_pos _), ← Nat.pow_add]
    exact div_lt_two_pow n d
  exact Nat.le_trans (roundDiv_le_div_add_one _ _) hscaled

/-- Below the point half way to `2 ^ (53 + k)` the bits stay below those of the scale `k + 2`. -/
theorem rounded_lt {n d k : Nat} (hd : 0 < d) (h : 2 * n < d * 2 ^ k * (2 ^ 54 - 1)) :
    roundingScale n d * 2 ^ 52 + roundedSignificand n d < (k + 2) * 2 ^ 52 := by
  have hround := roundedSignificand_le n d
  have hscale : roundingScale n d ≤ k := by
    -- a larger scale would need a quotient of more bits
    by_contra hgt
    have hlog : 53 + k ≤ (n / d).log2 := by
      unfold roundingScale at hgt
      omega
    have hne : n / d ≠ 0 := by
      intro hzero
      rw [hzero, Nat.log2_zero] at hlog
      omega
    have hlow : 2 ^ (53 + k) ≤ n / d :=
      Nat.le_trans (Nat.pow_le_pow_right (by decide) hlog) (Nat.log2_self_le hne)
    have hmul : 2 ^ (53 + k) * d ≤ n := (Nat.le_div_iff_mul_le hd).mp hlow
    have hexpand : 2 * (2 ^ (53 + k) * d) = d * 2 ^ k * 2 ^ 54 := by ring
    have hless : d * 2 ^ k * (2 ^ 54 - 1) ≤ d * 2 ^ k * 2 ^ 54 := Nat.mul_le_mul_left _ (by decide)
    omega
  rcases Nat.lt_or_ge (roundingScale n d) k with hlt | hge
  · omega
  · have hsame : roundingScale n d = k := by omega
    have hsmall : roundedSignificand n d ≤ 2 ^ 53 - 1 := by
      rw [roundedSignificand, hsame]
      exact roundDiv_le_of_lt h
    omega

/-- The scale of the largest doubles. -/
def topScale : Nat := 2045

/-- **What is below the half-way point stays finite.** -/
theorem nearestUnits_lt_infinityBits {n d : Nat} (hd : 0 < d)
    (h : 2 * n < d * 2 ^ topScale * (2 ^ 54 - 1)) : nearestUnits n d < infinityBits := by
  have hinf : infinityBits = (topScale + 2) * 2 ^ 52 := rfl
  rw [nearestUnits_eq, hinf]
  exact Nat.lt_of_le_of_lt (Nat.min_le_left _ _) (rounded_lt hd h)

/-! ### Units -/

theorem magnitudeBits_ofSignMagnitude {m : Nat} (negative : Bool) (h : m < 2 ^ 63) :
    (ofSignMagnitude negative m).magnitudeBits = m := by
  cases negative <;> simp [ofSignMagnitude, magnitudeBits] <;> omega

/-- A double is its sign and the bits below it. -/
theorem ofSignMagnitude_magnitudeBits (x : Double) :
    ofSignMagnitude x.isNegative x.magnitudeBits = x := by
  have hlt := x.bits.toNat_lt
  have hbits : (if x.isNegative then Nat.pow 2 63 + x.magnitudeBits else x.magnitudeBits)
      = x.bits.toNat := by
    simp only [isNegative, magnitudeBits, Nat.pow_eq, decide_eq_true_eq]
    split <;> omega
  rw [ofSignMagnitude, hbits, UInt64.ofNat_toNat]

/-- **The units of a double whose bits are put together from scale and significand.** -/
theorem units_of_parts {x : Double} {q r : Nat} (hx : x.magnitudeBits = q * 2 ^ 52 + r)
    (hr : r ≤ 2 ^ 53) (hq : q = 0 ∨ 2 ^ 52 ≤ r) : x.units = r * 2 ^ q := by
  rcases Nat.lt_or_ge r (2 ^ 52) with hsmall | hlead
  · -- below the first scale
    have hzero : q = 0 := by omega
    subst hzero
    rw [units_of_lt (by omega), hx]
    omega
  · rw [units_of_le (by omega)]
    rcases Nat.lt_or_ge r (2 ^ 53) with hfit | hcarry
    · have hmod : x.magnitudeBits % 2 ^ 52 = r - 2 ^ 52 := by omega
      have hdiv : x.magnitudeBits / 2 ^ 52 - 1 = q := by omega
      rw [hmod, hdiv, Nat.add_sub_cancel' hlead]
    · -- a carry into the scale leaves no fraction
      have hmod : x.magnitudeBits % 2 ^ 52 = 0 := by omega
      have hdiv : x.magnitudeBits / 2 ^ 52 - 1 = q + 1 := by omega
      have hr : r = 2 ^ 53 := Nat.le_antisymm hr hcarry
      rw [hmod, hdiv, hr]
      ring

/-- A rounded number of units is too large by one part in `2 ^ 53` at most. -/
theorem units_nearestUnits_mul_le {n : Nat} (negative : Bool) (h : 2 * n < 2 ^ topScale * (2 ^ 54 - 1)) :
    (ofSignMagnitude negative (nearestUnits n 1)).units * 2 ^ 53 ≤ n * (2 ^ 53 + 1) := by
  have hfinite : nearestUnits n 1 < infinityBits :=
    nearestUnits_lt_infinityBits Nat.one_pos (by rwa [Nat.one_mul])
  have hparts : nearestUnits n 1 = roundingScale n 1 * 2 ^ 52 + roundedSignificand n 1 := by
    rw [nearestUnits_eq] at hfinite ⊢
    omega
  have hinf : infinityBits < 2 ^ 63 := by decide
  have hbits := magnitudeBits_ofSignMagnitude negative (Nat.lt_trans hfinite hinf)
  have hround : roundedSignificand n 1 ≤ 2 ^ 53 := roundedSignificand_le n 1
  have hnear := roundDiv_mul_le n (1 * 2 ^ roundingScale n 1)
  rw [Nat.one_mul] at hnear
  have hsignificand : roundedSignificand n 1 = roundDiv n (2 ^ roundingScale n 1) := by
    rw [roundedSignificand, Nat.one_mul]
  rcases Nat.eq_zero_or_pos (roundingScale n 1) with hzero | hpos
  · -- all bits fit, and nothing is rounded
    have hexact : roundedSignificand n 1 = n := by
      rw [hsignificand, hzero, Nat.pow_zero, roundDiv_of_dvd Nat.one_pos (one_dvd n), Nat.div_one]
    rw [units_of_parts (hbits.trans hparts) hround (Or.inl hzero), hzero, hexact]
    omega
  · have hlog : (n / 1).log2 = roundingScale n 1 + 52 := by
      unfold roundingScale at hpos ⊢
      omega
    have hne : n ≠ 0 := by
      rintro rfl
      rw [Nat.zero_div, Nat.log2_zero] at hlog
      omega
    -- the unit of the scale is one part in `2 ^ 52` of the number
    have hlow : 2 ^ (roundingScale n 1 + 52) ≤ n := by
      rw [← hlog, Nat.div_one]
      exact Nat.log2_self_le hne
    have hlead : 2 ^ 52 ≤ roundedSignificand n 1 := by
      refine Nat.le_trans ?_ (hsignificand ▸ div_le_roundDiv n _)
      rw [Nat.le_div_iff_mul_le (Nat.two_pow_pos _), ← Nat.pow_add, Nat.add_comm]
      exact hlow
    rw [units_of_parts (hbits.trans hparts) hround (Or.inr hlead), hsignificand]
    have hsplit : 2 ^ (roundingScale n 1 + 52) = 2 ^ roundingScale n 1 * 2 ^ 52 := Nat.pow_add _ _ _
    calc roundDiv n (2 ^ roundingScale n 1) * 2 ^ roundingScale n 1 * 2 ^ 53
        = 2 * (roundDiv n (2 ^ roundingScale n 1) * 2 ^ roundingScale n 1) * 2 ^ 52 := by ring
      _ ≤ (2 * n + 2 ^ roundingScale n 1) * 2 ^ 52 := Nat.mul_le_mul_right _ hnear
      _ = n * 2 ^ 53 + 2 ^ (roundingScale n 1 + 52) := by rw [hsplit]; ring
      _ ≤ n * 2 ^ 53 + n := Nat.add_le_add_left hlow _
      _ = n * (2 ^ 53 + 1) := by ring

/-- **A rounded whole number is too large by one part in `2 ^ 53` at most.** -/
theorem units_ofNat_mul_le {n : Nat} (h : 2 * (n * unitsPerOne) < 2 ^ topScale * (2 ^ 54 - 1)) :
    (ofNat n).units * 2 ^ 53 ≤ n * unitsPerOne * (2 ^ 53 + 1) :=
  units_nearestUnits_mul_le false h

end Double

end JobDispatch
