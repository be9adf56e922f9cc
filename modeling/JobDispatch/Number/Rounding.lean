/-!
# Rounding a quotient

## Main definitions

* `roundDiv n d` — the whole number nearest to `n / d`, the even one of two equally near.
-/

namespace JobDispatch

/-- The whole number nearest to `n / d`; of two equally near ones the even one. -/
def roundDiv (n d : Nat) : Nat :=
  if 2 * (n % d) < d ∨ (2 * (n % d) = d ∧ n / d % 2 = 0) then n / d else n / d + 1

theorem div_le_roundDiv (n d : Nat) : n / d ≤ roundDiv n d := by
  unfold roundDiv; split <;> omega

theorem roundDiv_le_div_add_one (n d : Nat) : roundDiv n d ≤ n / d + 1 := by
  unfold roundDiv; split <;> omega

/-- A quotient without remainder is not changed. -/
theorem roundDiv_of_dvd {n d : Nat} (hd : 0 < d) (h : d ∣ n) : roundDiv n d = n / d := by
  have hmod : n % d = 0 := Nat.mod_eq_zero_of_dvd h
  simp [roundDiv, hmod, hd]

/-- A tie goes to the even neighbour. -/
theorem roundDiv_tie_even {n d : Nat} (h : 2 * (n % d) = d) : roundDiv n d % 2 = 0 := by
  unfold roundDiv
  split <;> omega

end JobDispatch
