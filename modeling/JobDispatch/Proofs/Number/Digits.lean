import JobDispatch.Json.Reader

/-!
# Runs of digits

The digits of a natural number form a run of their own, without a needless zero in front, and mean
the number again.  Taking them up one by one loses none while the number has 64 bits.

## Main results

* `Numeral.digitRun_append_of_isDigit` — a run of digits ends where no digit follows.
* `Numeral.ofDigits_toDigits` — the digits of a number mean it.
* `Json.takeWhole_of_le`, `Json.takeFraction_spec` — digits that are taken up.
-/

namespace JobDispatch

/-- Whether a text begins with a digit. -/
def Numeral.startsWithDigit : List Char → Bool
  | [] => false
  | c :: _ => c.isDigit

namespace Numeral

/-- **A run of digits ends where no digit follows.** -/
theorem digitRun_append_of_isDigit {ds r : List Char} (hd : ∀ c ∈ ds, c.isDigit = true)
    (hr : startsWithDigit r = false) : digitRun (ds ++ r) = (ds, r) := by
  induction ds with
  | nil =>
    cases r with
    | nil => rfl
    | cons c r =>
      have hc : c.isDigit = false := hr
      simp [digitRun, hc]
  | cons c ds ih =>
    have hc : c.isDigit = true := hd c List.mem_cons_self
    have hrest := ih fun a ha => hd a (List.mem_cons_of_mem c ha)
    simp only [digitRun, Prod.mk.injEq] at hrest
    simp [digitRun, hc, hrest.1, hrest.2]

theorem isDigit_toDigits {n : Nat} : ∀ c ∈ Nat.toDigits 10 n, c.isDigit = true :=
  fun _ hc => Nat.isDigit_of_mem_toDigits (by decide) (by decide) hc

theorem toDigits_ne_nil (n : Nat) : Nat.toDigits 10 n ≠ [] :=
  List.ne_nil_of_length_pos Nat.length_toDigits_pos

/-- The digits of a number mean it. -/
theorem ofDigits_toDigits (n : Nat) : ofDigits (Nat.toDigits 10 n) = n :=
  Nat.ofDigitChars_toDigits (by decide) (by decide)

/-- Only zero is written with a zero in front. -/
theorem head?_toDigits_ne_zero {n : Nat} (h : 0 < n) : (Nat.toDigits 10 n).head? ≠ some '0' := by
  induction n using Nat.strongRecOn with
  | _ n ih =>
    rw [Nat.toDigits_eq_if (by decide)]
    split
    · next hlt =>
      have hdigit : ∀ m < 10, 0 < m → Nat.digitChar m ≠ '0' := by decide
      simpa using hdigit n hlt h
    · next hge =>
      have hfirst := ih (n / 10) (by omega) (by omega)
      obtain ⟨c, cs, hc⟩ := List.exists_cons_of_ne_nil (toDigits_ne_nil (n / 10))
      rw [hc] at hfirst ⊢
      exact hfirst

/-- A zero in front of the digits of a number stands alone. -/
theorem length_toDigits_of_head? {n : Nat} (h : (Nat.toDigits 10 n).head? = some '0') :
    (Nat.toDigits 10 n).length = 1 := by
  have hn : n = 0 := Nat.eq_zero_of_not_pos fun hpos => head?_toDigits_ne_zero hpos h
  subst hn
  rfl

end Numeral

namespace Json

/-- Digits never make a number smaller. -/
theorem le_ofDigitChars (n : Nat) (cs : List Char) : n ≤ Nat.ofDigitChars 10 cs n := by
  rw [Nat.ofDigitChars_eq_ofDigitChars_zero]
  have hpow : 1 ≤ 10 ^ cs.length := Nat.one_le_pow _ _ (by decide)
  have hmul : 1 * n ≤ 10 ^ cs.length * n := Nat.mul_le_mul_right n hpow
  omega

/-- No digit of a number of 64 bits is left over. -/
theorem takeWhole_of_le {n : Nat} {cs : List Char} (h : Nat.ofDigitChars 10 cs n ≤ maxNat64) :
    takeWhole n cs = (Nat.ofDigitChars 10 cs n, 0) := by
  induction cs generalizing n with
  | nil => rfl
  | cons c cs ih =>
    rw [Nat.ofDigitChars_cons] at h ⊢
    have hfit : 10 * n + Numeral.digitValue c ≤ maxNat64 := Nat.le_trans (le_ofDigitChars _ cs) h
    rw [takeWhole]
    simp only [hfit, if_true]
    exact ih h

/-- Of the digits after the point some are taken up, as if the others were not there. -/
theorem takeFraction_spec (n : Nat) (cs : List Char) :
    takeFraction n cs
      = (Nat.ofDigitChars 10 (cs.take (takeFraction n cs).2) n, (takeFraction n cs).2) := by
  induction cs generalizing n with
  | nil => rfl
  | cons c cs ih =>
    rw [takeFraction]
    simp only
    split
    · rw [List.take_succ_cons, Nat.ofDigitChars_cons]
      exact congrArg (fun p => (p.1, p.2 + 1)) (ih _)
    · rfl

end Json

end JobDispatch
