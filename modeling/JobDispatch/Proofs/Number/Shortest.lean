import JobDispatch.Number.Shortest

/-!
# The shortest decimal lies around its double

Whatever grid the digits come from, the decimal is one of the multiples of a power of ten that lie in
the interval around the double, or it is the double itself.

## Main results

* `Double.shortest_cases` — **where the shortest decimal comes from.**
* `Double.digits_shortest_pos` — the shortest decimal of a double that is not zero is not zero.
-/

namespace JobDispatch

/-- The multiple that is found lies in the interval. -/
theorem RoundingInterval.contains_of_nearestMultiple? {tie : Tie} {i : RoundingInterval}
    {step t : Nat} (h : i.nearestMultiple? tie step = some t) : i.contains (t * step) = true := by
  unfold nearestMultiple? at h
  simp only at h
  split at h
  · next hbelow _ => exact Option.some.inj h ▸ hbelow
  · next _ habove => exact Option.some.inj h ▸ habove
  · exact absurd h (by simp)
  · next hbelow habove =>
    -- both are in the interval, so it does not matter which one is taken
    have hboth : t = i.centre / step ∨ t = i.centre / step + 1 := by
      split at h
      · exact Or.inl (Option.some.inj h).symm
      · split at h
        · exact Or.inr (Option.some.inj h).symm
        · cases tie with
          | toEven =>
            have h := (Option.some.inj h).symm
            split at h
            · exact Or.inl h
            · exact Or.inr h
          | upward => exact Or.inr (Option.some.inj h).symm
    rcases hboth with rfl | rfl
    · exact hbelow
    · exact habove

theorem RoundingInterval.le_of_contains {i : RoundingInterval} {v : Nat} (h : i.contains v = true) :
    i.low ≤ v ∧ v ≤ i.high := by
  rw [contains] at h
  split at h
  · exact of_decide_eq_true h
  · have hstrict := of_decide_eq_true h
    exact ⟨Nat.le_of_lt hstrict.1, Nat.le_of_lt hstrict.2⟩

namespace Double

/-- A hit on the grid of `10 ^ k` lies between the ends of the interval. -/
theorem le_of_onGrid? {tie : Tie} {x : Double} {k : Int} {t : Nat} (h : onGrid? tie x k = some t) :
    x.roundingInterval.low * Nat.pow 10 (-k).toNat ≤ t * (4 * unitsPerOne * Nat.pow 10 k.toNat) ∧
      t * (4 * unitsPerOne * Nat.pow 10 k.toNat) ≤ x.roundingInterval.high * Nat.pow 10 (-k).toNat :=
  RoundingInterval.le_of_contains (RoundingInterval.contains_of_nearestMultiple? h)

theorem onGrid?_of_firstGrid? {tie : Tie} {x : Double} {n : Nat} {k : Int} {d : Decimal}
    (h : firstGrid? tie x n k = some d) : onGrid? tie x d.exponent = some d.digits := by
  induction n generalizing k with
  | zero => exact absurd h (by simp [firstGrid?])
  | succ n ih =>
    rw [firstGrid?] at h
    split at h
    · next t ht =>
      obtain rfl := Option.some.inj h
      exact ht
    · exact ih h

/-- **Where the shortest decimal comes from**: a hit on a grid, or the double itself. -/
theorem shortest_cases (tie : Tie) (x : Double) :
    onGrid? tie x (x.shortest tie).exponent = some (x.shortest tie).digits ∨
      ∃ k : Nat, unitsPerOne = Nat.pow 2 k ∧ x.shortest tie = ⟨x.units * Nat.pow 5 k, -(k : Int)⟩ := by
  rw [shortest]
  cases h : firstGrid? tie x 24 x.decimalCeiling with
  | some d => exact Or.inl (onGrid?_of_firstGrid? h)
  | none => exact Or.inr ⟨unitHalvings, by unfold unitsPerOne; rfl, Option.getD_none⟩

theorem significand_pos {x : Double} (h : x.isZero = false) : 0 < x.significand := by
  have hbits : x.magnitudeBits ≠ 0 := by simpa [isZero] using h
  have hpow : 0 < Nat.pow 2 52 := by decide
  unfold significand
  split <;> omega

/-- The interval around a double that is not zero is above zero. -/
theorem low_roundingInterval_pos {x : Double} (h : x.isZero = false) : 0 < x.roundingInterval.low := by
  have hm := significand_pos h
  have hgap : 0 < 4 * x.significand - if x.significand = Nat.pow 2 52 ∧ 0 < x.scale then 1 else 2 := by
    split <;> omega
  exact Nat.mul_pos hgap (Nat.pow_pos (by decide))

/-- **The shortest decimal of a double that is not zero is not zero.** -/
theorem digits_shortest_pos {x : Double} (tie : Tie) (h : x.isZero = false) :
    0 < (x.shortest tie).digits := by
  rcases shortest_cases tie x with hgrid | ⟨k, -, hexact⟩
  · have hlow := (le_of_onGrid? hgrid).1
    have hpos : 0 < x.roundingInterval.low * Nat.pow 10 (-(x.shortest tie).exponent).toNat :=
      Nat.mul_pos (low_roundingInterval_pos h) (Nat.pow_pos (by decide))
    exact Nat.pos_of_mul_pos_right (Nat.lt_of_lt_of_le hpos hlow)
  · rw [hexact]
    have hunits : 0 < x.units := Nat.mul_pos (significand_pos h) (Nat.pow_pos (by decide))
    exact Nat.mul_pos hunits (Nat.pow_pos (by decide))

end Double

end JobDispatch
