import Mathlib.Algebra.Order.Field.Power
import Mathlib.Algebra.Order.Field.Rat
import Mathlib.Tactic.FieldSimp
import JobDispatch.Proofs.Number.Rounding
import JobDispatch.Proofs.Number.Shortest

/-!
# The shortest decimal names its double

The intervals of two neighbouring doubles meet in one point, the half-way point between them, and of two
neighbours just one has an even significand and holds the ends of its interval.  So no number lies in the
intervals of two doubles, and the decimal that is found in the interval of one is not found for another.

## Main definitions

* `Decimal.value` — the number that a decimal is.
* `RoundingInterval.Holds` — a number lies in an interval.

## Main results

* `Double.holds_shortest` — the shortest decimal of a double lies in its interval.
* `Double.low_eq_high_of_succ` — the interval of a double begins where that of its neighbour ends.
* `Double.magnitudeBits_eq_of_holds` — **no number lies in the intervals of two doubles.**
-/

namespace JobDispatch

/-- The number that a decimal is. -/
def Decimal.value (d : Decimal) : ℚ := d.digits * 10 ^ d.exponent

/-- The factor by which a power of ten is made whole. -/
theorem ten_zpow_mul_pow (k : Int) : (10 : ℚ) ^ k * 10 ^ (-k).toNat = 10 ^ k.toNat := by
  rw [← zpow_natCast, ← zpow_natCast, ← zpow_add₀ (by decide)]
  congr 1
  omega

/-! ### Numbers in an interval -/

namespace RoundingInterval

/-- A number lies in an interval. -/
def Holds (i : RoundingInterval) (v : ℚ) : Prop :=
  if i.closed then (i.low : ℚ) ≤ v ∧ v ≤ i.high else (i.low : ℚ) < v ∧ v < i.high

/-- What a scaled interval contains lies in the interval. -/
theorem holds_of_contains {i : RoundingInterval} {v : ℚ} {scale centre n : Nat} (hscale : 0 < scale)
    (hv : v * scale = n)
    (h : contains ⟨i.low * scale, centre, i.high * scale, i.closed⟩ n = true) : i.Holds v := by
  have hpos : (0 : ℚ) < scale := by exact_mod_cast hscale
  unfold contains at h
  unfold Holds
  cases hclosed : i.closed with
  | true =>
    simp only [hclosed, if_true, decide_eq_true_eq] at h ⊢
    refine ⟨le_of_mul_le_mul_right ?_ hpos, le_of_mul_le_mul_right ?_ hpos⟩
    · rw [hv]
      exact_mod_cast h.1
    · rw [hv]
      exact_mod_cast h.2
  | false =>
    simp only [hclosed, Bool.false_eq_true, if_false, decide_eq_true_eq] at h ⊢
    refine ⟨lt_of_mul_lt_mul_right ?_ hpos.le, lt_of_mul_lt_mul_right ?_ hpos.le⟩
    · rw [hv]
      exact_mod_cast h.1
    · rw [hv]
      exact_mod_cast h.2

theorem Holds.le {i : RoundingInterval} {v : ℚ} (h : i.Holds v) : (i.low : ℚ) ≤ v ∧ v ≤ i.high := by
  unfold Holds at h
  split at h
  · exact h
  · exact ⟨h.1.le, h.2.le⟩

theorem Holds.lt {i : RoundingInterval} {v : ℚ} (h : i.Holds v) (hopen : i.closed = false) :
    (i.low : ℚ) < v ∧ v < i.high := by
  rwa [Holds, if_neg (by simp [hopen])] at h

end RoundingInterval

namespace Double

/-! ### The shortest decimal in its interval -/

/-- A number over the common denominator of an interval. -/
def overDenominator (v : ℚ) : ℚ := v * (4 * unitsPerOne)

/-- The point of a grid that is found lies in the interval. -/
theorem holds_of_onGrid? {tie : Tie} {x : Double} {k : Int} {t : Nat} (h : onGrid? tie x k = some t) :
    x.roundingInterval.Holds (overDenominator (Decimal.value ⟨t, k⟩)) := by
  have hten : 0 < Nat.pow 10 (-k).toNat := Nat.pow_pos (by decide)
  refine RoundingInterval.holds_of_contains hten ?_ (RoundingInterval.contains_of_nearestMultiple? h)
  have hscaled := ten_zpow_mul_pow k
  simp only [Decimal.value, overDenominator, Nat.pow_eq, Nat.cast_pow, Nat.cast_mul, Nat.cast_ofNat]
  calc (t * 10 ^ k * (4 * unitsPerOne) * 10 ^ (-k).toNat : ℚ)
      = t * (4 * unitsPerOne * (10 ^ k * 10 ^ (-k).toNat)) := by ring
    _ = t * (4 * unitsPerOne * 10 ^ k.toNat) := by rw [hscaled]

/-- Every other double is held by its interval with the ends. -/
theorem closed_roundingInterval (x : Double) :
    x.roundingInterval.closed = (x.magnitudeBits % 2 == 0) := by
  have heven : Nat.pow 2 52 % 2 = 0 := by decide
  show (x.significand % 2 == 0) = _
  unfold significand
  split
  · rfl
  · simp only [Nat.pow_eq] at *
    congr 1
    omega

/-- The double itself lies in its interval. -/
theorem holds_centre (x : Double) : x.roundingInterval.Holds (4 * x.units) := by
  have hpow : 0 < Nat.pow 2 x.scale := Nat.pow_pos (by decide)
  have hcentre : (4 * x.units : ℚ) = (4 * x.significand * Nat.pow 2 x.scale : Nat) := by
    rw [units]
    push_cast
    ring
  rw [hcentre]
  unfold RoundingInterval.Holds
  cases hclosed : x.roundingInterval.closed with
  | true =>
    simp only [if_true, Nat.cast_le]
    exact ⟨Nat.mul_le_mul_right _ (Nat.sub_le _ _), Nat.mul_le_mul_right _ (Nat.le_add_right _ _)⟩
  | false =>
    -- an odd significand is not zero
    have hodd : (x.significand % 2 == 0) = false := hclosed
    have hpos : 0 < x.significand := by
      rcases Nat.eq_zero_or_pos x.significand with h | h
      · rw [h] at hodd
        cases hodd
      · exact h
    simp only [Bool.false_eq_true, if_false, Nat.cast_lt]
    refine ⟨Nat.mul_lt_mul_of_pos_right ?_ hpow, Nat.mul_lt_mul_of_pos_right (by omega) hpow⟩
    split <;> omega

/-- **The shortest decimal of a double lies in its interval.** -/
theorem holds_shortest (tie : Tie) (x : Double) :
    x.roundingInterval.Holds (overDenominator (x.shortest tie).value) := by
  rcases shortest_cases tie x with hgrid | ⟨k, hone, hexact⟩
  · exact holds_of_onGrid? hgrid
  · -- the exact expansion is the double itself
    have hvalue : overDenominator (x.shortest tie).value = 4 * x.units := by
      have hten : (10 : ℚ) ^ k = 5 ^ k * 2 ^ k := by rw [← mul_pow]; norm_num
      rw [hexact, overDenominator, Decimal.value, hone]
      simp only [Nat.pow_eq, Nat.cast_mul, Nat.cast_pow, Nat.cast_ofNat, zpow_neg, zpow_natCast, hten]
      field_simp
    rw [hvalue]
    exact holds_centre x

/-! ### The intervals of two doubles -/

/-- **The interval of a double begins where that of its neighbour ends.** -/
theorem low_eq_high_of_succ {x y : Double} (h : y.magnitudeBits = x.magnitudeBits + 1) :
    y.roundingInterval.low = x.roundingInterval.high := by
  show (4 * y.significand - if y.significand = Nat.pow 2 52 ∧ 0 < y.scale then 1 else 2)
      * Nat.pow 2 y.scale = (4 * x.significand + 2) * Nat.pow 2 x.scale
  have hx : x.scale = x.magnitudeBits / 2 ^ 52 - 1 := rfl
  have hy : y.scale = y.magnitudeBits / 2 ^ 52 - 1 := rfl
  by_cases hcarry : 2 ^ 52 ≤ x.magnitudeBits ∧ y.magnitudeBits % 2 ^ 52 = 0
  · -- the significand starts again in the next scale, and the neighbour below is half as far away
    have hscale : y.scale = x.scale + 1 := by omega
    have hsmall : y.significand = 2 ^ 52 := by
      unfold significand
      simp only [Nat.pow_eq]
      split <;> omega
    have hlarge : x.significand = 2 ^ 53 - 1 := by
      unfold significand
      simp only [Nat.pow_eq]
      split <;> omega
    rw [hsmall, hlarge, hscale, if_pos ⟨rfl, Nat.succ_pos _⟩, Nat.pow_eq, Nat.pow_eq, Nat.pow_succ]
    ring
  · have hscale : y.scale = x.scale := by omega
    have hsignificand : y.significand = x.significand + 1 := by
      unfold significand
      simp only [Nat.pow_eq]
      split <;> split <;> omega
    have hgap : ¬ (y.significand = Nat.pow 2 52 ∧ 0 < y.scale) := by
      intro hgap
      have hbits := hgap.1
      unfold significand at hbits
      simp only [Nat.pow_eq] at hbits hgap
      split at hbits <;> omega
    rw [if_neg hgap, hscale, hsignificand]
    congr 1

theorem low_lt_high (x : Double) : x.roundingInterval.low < x.roundingInterval.high := by
  refine Nat.mul_lt_mul_of_pos_right ?_ (Nat.pow_pos (by decide))
  omega

/-- The interval of a larger double comes behind, and right behind only if it is a neighbour. -/
theorem high_le_low {n : Nat} {x y : Double} (h : y.magnitudeBits = x.magnitudeBits + (n + 1)) :
    x.roundingInterval.high ≤ y.roundingInterval.low ∧
      (0 < n → x.roundingInterval.high < y.roundingInterval.low) := by
  induction n generalizing y with
  | zero => exact ⟨(low_eq_high_of_succ h).ge, fun h => absurd h (Nat.lt_irrefl 0)⟩
  | succ n ih =>
    have hlt := magnitudeBits_lt y
    obtain ⟨z, hz⟩ : ∃ z : Double, z.magnitudeBits = x.magnitudeBits + (n + 1) :=
      ⟨ofSignMagnitude false (x.magnitudeBits + (n + 1)), magnitudeBits_ofSignMagnitude false (by omega)⟩
    have hnext := low_eq_high_of_succ (x := z) (y := y) (by omega)
    have hbefore := Nat.lt_of_le_of_lt (ih hz).1 (low_lt_high z)
    rw [hnext]
    exact ⟨hbefore.le, fun _ => hbefore⟩

/-- **No number lies in the intervals of two doubles.** -/
theorem magnitudeBits_eq_of_holds {x y : Double} {v : ℚ} (hx : x.roundingInterval.Holds v)
    (hy : y.roundingInterval.Holds v) : x.magnitudeBits = y.magnitudeBits := by
  -- a smaller double leaves no room
  have hnot : ∀ {x y : Double}, x.roundingInterval.Holds v → y.roundingInterval.Holds v →
      ¬ x.magnitudeBits < y.magnitudeBits := by
    intro x y hx hy hlt
    obtain ⟨n, hn⟩ := Nat.exists_eq_add_of_lt hlt
    obtain ⟨hle, hfar⟩ := high_le_low (n := n) (x := x) (y := y) (by omega)
    have hmeet : (y.roundingInterval.low : ℚ) ≤ x.roundingInterval.high := hy.le.1.trans hx.le.2
    obtain rfl : n = 0 := by
      rcases Nat.eq_zero_or_pos n with h | h
      · exact h
      · exact absurd (hfar h) (Nat.not_lt.mpr (by exact_mod_cast hmeet))
    have hsame : (x.roundingInterval.high : ℚ) = y.roundingInterval.low := by
      exact_mod_cast (low_eq_high_of_succ (x := x) (y := y) (by omega)).symm
    -- of neighbours just one holds the ends
    rcases Nat.mod_two_eq_zero_or_one x.magnitudeBits with h | h
    · have hopen : y.roundingInterval.closed = false := by
        rw [closed_roundingInterval, hn]
        simp only [beq_eq_false_iff_ne, ne_eq]
        omega
      exact absurd (hy.lt hopen).1 (not_lt.mpr (hsame ▸ hx.le.2))
    · have hopen : x.roundingInterval.closed = false := by
        rw [closed_roundingInterval, h]
        rfl
      exact absurd (hx.lt hopen).2 (not_lt.mpr (hsame ▸ hy.le.1))
  exact Nat.le_antisymm (Nat.le_of_not_lt (hnot hy hx)) (Nat.le_of_not_lt (hnot hx hy))

end Double

end JobDispatch
