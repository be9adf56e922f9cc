import JobDispatch.Proofs.Number.Rounding
import JobDispatch.Time.Span

/-!
# Numbers of seconds

A number of seconds makes a span of time if it rounds, on its exact value, to a number of nanoseconds that
a span can have.  That the check is made on whole seconds does no harm: a double as large as that has no
part of a second.

## Main definitions

* `Double.nanos` — the whole number of nanoseconds nearest to a number of seconds.

## Main results

* `Double.units_cases` — a double is a whole number or small.
* `Double.rounded_le_longest`, `Double.longest_lt_rounded` — what rounds to a span and what does not.
* `Span.ofSeconds?_pos_iff` — **the numbers of seconds that make a span which is not empty.**
-/

namespace JobDispatch

/-- The whole number of nanoseconds nearest to a finite number of seconds. -/
def Double.nanos (x : Double) : Int :=
  let n := roundDiv (x.units * 1000000000) unitsPerOne
  if x.isNegative then -(n : Int) else n

namespace Double

variable {x : Double}

theorem nanos_of_isNegative_eq_false (h : x.isNegative = false) :
    x.nanos = (roundDiv (x.units * 1000000000) unitsPerOne : Nat) := by
  simp only [nanos, h, Bool.false_eq_true, if_false]

/-- A significand has at most 53 bits. -/
theorem significand_lt (x : Double) : x.significand < 2 ^ 53 := by
  rw [significand]
  split <;>
    · simp only [Nat.pow_eq] at *
      omega

/-- **A double is a whole number or small.** -/
theorem units_cases (x : Double) :
    (∃ n, x.units = n * unitsPerOne) ∨ x.units < 2 ^ 53 * unitsPerOne := by
  obtain ⟨k, hone⟩ : ∃ k, unitsPerOne = Nat.pow 2 k := by
    unfold unitsPerOne
    exact ⟨_, rfl⟩
  rw [units, hone, Nat.pow_eq, Nat.pow_eq]
  rcases Nat.le_total k x.scale with h | h
  · refine .inl ⟨x.significand * 2 ^ (x.scale - k), ?_⟩
    rw [Nat.mul_assoc, ← Nat.pow_add, Nat.sub_add_cancel h]
  · have hscale : 2 ^ x.scale ≤ 2 ^ k := Nat.pow_le_pow_right (by decide) h
    exact .inr (Nat.lt_of_le_of_lt (Nat.mul_le_mul_left _ hscale)
      (Nat.mul_lt_mul_of_pos_right x.significand_lt (Nat.two_pow_pos k)))

/-- **What is less than `2 ^ 64` seconds rounds to a span.** -/
theorem rounded_le_longest (h : x.units < 2 ^ 64 * unitsPerOne) :
    roundDiv (x.units * 1000000000) unitsPerOne ≤ Span.longest.nanos := by
  rcases x.units_cases with ⟨n, hn⟩ | hsmall
  · have hn64 : n < 2 ^ 64 := by
      rw [hn] at h
      exact Nat.lt_of_mul_lt_mul_right h
    have hexact : x.units * 1000000000 = n * 1000000000 * unitsPerOne := by
      rw [hn]
      ring
    rw [hexact, roundDiv_of_dvd unitsPerOne_pos (Nat.dvd_mul_left ..),
      Nat.mul_div_cancel _ unitsPerOne_pos]
    simp only [Span.longest, Nat.pow_eq]
    omega
  · -- a number with a part of a second is far below the limit
    have hlt : x.units * 1000000000 < 2 ^ 53 * 1000000000 * unitsPerOne := by
      calc x.units * 1000000000 < 2 ^ 53 * unitsPerOne * 1000000000 :=
            Nat.mul_lt_mul_of_pos_right hsmall (by decide)
        _ = 2 ^ 53 * 1000000000 * unitsPerOne := by ring
    have hdiv := (Nat.div_lt_iff_lt_mul unitsPerOne_pos).mpr hlt
    have hround := roundDiv_le_div_add_one (x.units * 1000000000) unitsPerOne
    simp only [Span.longest, Nat.pow_eq]
    omega

/-- What is `2 ^ 64` seconds or more does not. -/
theorem longest_lt_rounded (h : 2 ^ 64 * unitsPerOne ≤ x.units) :
    Span.longest.nanos < roundDiv (x.units * 1000000000) unitsPerOne := by
  have hle : 2 ^ 64 * 1000000000 * unitsPerOne ≤ x.units * 1000000000 := by
    calc 2 ^ 64 * 1000000000 * unitsPerOne = 2 ^ 64 * unitsPerOne * 1000000000 := by ring
      _ ≤ x.units * 1000000000 := Nat.mul_le_mul_right _ h
  have hdiv := (Nat.le_div_iff_mul_le unitsPerOne_pos).mpr hle
  have hround := div_le_roundDiv (x.units * 1000000000) unitsPerOne
  simp only [Span.longest, Nat.pow_eq]
  omega

end Double

namespace Span

variable {x : Double} {d : Span}

/-- A number of seconds that is not negative makes a span unless it is too large. -/
theorem ofSeconds?_of_finite (hfinite : x.isFinite = true) (hsign : x.isNegative = false) :
    ofSeconds? x = if 2 ^ 64 * Double.unitsPerOne ≤ x.units then none
      else some ⟨roundDiv (x.units * 1000000000) Double.unitsPerOne⟩ := by
  simp only [ofSeconds?, hfinite, hsign, Bool.not_true, Bool.false_and, Bool.or_false,
    Bool.false_eq_true, if_false, Nat.pow_eq]

/-- A negative number makes no span, or the empty one. -/
theorem nanos_of_isNegative (hsign : x.isNegative = true) (h : ofSeconds? x = some d) :
    d.nanos = 0 := by
  rw [ofSeconds?] at h
  split at h
  · cases h
  · next hzero =>
    -- what is left is the zero with a sign
    have hbits : x.magnitudeBits = 0 := by
      simpa [hsign, Double.isZero] using (not_or.mp (mt Bool.or_eq_true_iff.mpr hzero)).2
    have hunits : x.units = 0 := by
      have hpositive := Double.units_pos_iff x
      omega
    split at h
    · cases h
    · obtain rfl := Option.some.inj h
      simp [hunits, roundDiv_of_dvd Double.unitsPerOne_pos]

/-- **The numbers of seconds that make a span which is not empty**: those that round to between one
nanosecond and the longest span. -/
theorem ofSeconds?_pos_iff : ofSeconds? x = some d ∧ d.nanos ≠ 0 ↔
    x.isFinite = true ∧ x.nanos = d.nanos ∧ 1 ≤ d.nanos ∧ d.nanos ≤ longest.nanos := by
  cases hfinite : x.isFinite with
  | false => simp [ofSeconds?, hfinite]
  | true =>
    cases hsign : x.isNegative with
    | true =>
      refine iff_of_false (fun h => h.2 (nanos_of_isNegative hsign h.1)) ?_
      rintro ⟨-, hd, hpos, -⟩
      simp only [Double.nanos, hsign, if_true] at hd
      omega
    | false =>
      rw [ofSeconds?_of_finite hfinite hsign, Double.nanos_of_isNegative_eq_false hsign]
      obtain ⟨nanos⟩ := d
      split
      · next hlarge =>
        have hspan := Double.longest_lt_rounded hlarge
        simp only [reduceCtorEq, false_and, false_iff]
        omega
      · next hlarge =>
        have hspan := Double.rounded_le_longest (Nat.lt_of_not_le hlarge)
        simp only [Option.some.injEq, mk.injEq, true_and]
        omega

end Span

end JobDispatch
