import JobDispatch.Proofs.Json.Numbers
import JobDispatch.Proofs.Number.Rounding

/-!
# Every finite double is legible

A number with a point is read in two roundings, and so a double near the largest could be read as
infinite, which is no number.  The shortest decimal of a double goes half a unit in its last place
beyond it at most, and the two roundings add one part in `2 ^ 53` each: that is too little to leave the
finite doubles, but for the two largest ones, whose texts are read one by one.

## Main definitions

* `Double.Legible` — the text of a double is read as a number.

## Main results

* `Double.two_mul_leading_le` — the leading digits of a shortest decimal stay near their double.
* `Json.isSome_mulPowerOfTen?` — digits that stay below the largest doubles are scaled to a double.
* `Double.legible_of_isFinite` — **every finite double is legible.**
-/

namespace JobDispatch

namespace Json

/-! ### Digits -/

theorem takeFraction_le_length (n : Nat) (cs : List Char) : (takeFraction n cs).2 ≤ cs.length := by
  induction cs generalizing n with
  | nil => exact Nat.le_refl 0
  | cons c cs ih =>
    rw [takeFraction]
    simp only
    split
    · exact Nat.succ_le_succ (ih _)
    · exact Nat.zero_le _

/-- The digits that are taken up are no more than all of them. -/
theorem takeFraction_mul_le (n : Nat) (cs : List Char) :
    (takeFraction n cs).1 * 10 ^ (cs.length - (takeFraction n cs).2) ≤ Nat.ofDigitChars 10 cs n := by
  have hspec := congrArg Prod.fst (takeFraction_spec n cs)
  have hall : Nat.ofDigitChars 10 cs n
      = Nat.ofDigitChars 10 (cs.drop (takeFraction n cs).2) (takeFraction n cs).1 := by
    rw [hspec, ← Nat.ofDigitChars_append, List.take_append_drop]
  rw [hall, Nat.ofDigitChars_eq_ofDigitChars_zero, List.length_drop, Nat.mul_comm]
  exact Nat.le_add_right _ _

/-- A digit is at most nine. -/
theorem digitValue_le {c : Char} (hc : c.isDigit = true) : Numeral.digitValue c ≤ 9 := by
  have hrange : 48 ≤ c.toNat ∧ c.toNat ≤ 57 := by
    simpa [Char.isDigit, UInt32.le_iff_toNat_le] using hc
  unfold Numeral.digitValue
  omega

theorem digitValue_pos {c : Char} (hc : c.isDigit = true) (h : c ≠ '0') :
    0 < Numeral.digitValue c := by
  have hrange : 48 ≤ c.toNat ∧ c.toNat ≤ 57 := by
    simpa [Char.isDigit, UInt32.le_iff_toNat_le] using hc
  have hne : c.toNat ≠ 48 := fun e => h (Char.toNat_inj.mp e)
  unfold Numeral.digitValue
  omega

/-- A run of digits means a number of at most as many digits. -/
theorem ofDigitChars_lt {cs : List Char} (hcs : ∀ c ∈ cs, c.isDigit = true) (n : Nat) :
    Nat.ofDigitChars 10 cs n < (n + 1) * 10 ^ cs.length := by
  induction cs generalizing n with
  | nil => simp [Nat.ofDigitChars]
  | cons c cs ih =>
    have hdigit := digitValue_le (hcs c List.mem_cons_self)
    have hrest := ih (fun a ha => hcs a (List.mem_cons_of_mem c ha)) (10 * n + Numeral.digitValue c)
    have hstep : 10 * n + Numeral.digitValue c + 1 ≤ (n + 1) * 10 := by omega
    rw [Nat.ofDigitChars_cons, List.length_cons]
    calc Nat.ofDigitChars 10 cs (10 * n + Numeral.digitValue c)
        < (10 * n + Numeral.digitValue c + 1) * 10 ^ cs.length := hrest
      _ ≤ (n + 1) * 10 * 10 ^ cs.length := Nat.mul_le_mul_right _ hstep
      _ = (n + 1) * 10 ^ (cs.length + 1) := by ring

/-- Of the digits after the point at least one is taken up if there is room for it. -/
theorem takeFraction_pos {n : Nat} {cs : List Char} (hcs : ∀ c ∈ cs, c.isDigit = true) (hne : cs ≠ [])
    (h : 10 * n + 9 ≤ maxNat64) : 0 < (takeFraction n cs).2 := by
  obtain ⟨c, rest, rfl⟩ := List.exists_cons_of_ne_nil hne
  have hdigit := digitValue_le (hcs c List.mem_cons_self)
  have hfit : 10 * n + Numeral.digitValue c ≤ maxNat64 := by omega
  rw [takeFraction]
  simp only [hfit, if_true]
  exact Nat.succ_pos _

theorem le_takeFraction (n : Nat) (cs : List Char) : n ≤ (takeFraction n cs).1 := by
  rw [takeFraction_spec]
  exact le_ofDigitChars n _

/-! ### Scaling -/

open Double (unitsPerOne unitsPerOne_pos topScale nearestUnits_lt_infinityBits units_ofNat_mul_le
  magnitudeBits_ofSignMagnitude)

/-- A power of ten that is not beyond the doubles is at most the largest power among them. -/
theorem le_maxPowerOfTen {e : Nat} (h : 2 * (10 ^ e * unitsPerOne) < 2 ^ topScale * (2 ^ 54 - 1)) :
    e ≤ maxPowerOfTen := by
  have hlarge : 2 ^ topScale * (2 ^ 54 - 1) ≤ 2 * (10 ^ 309 * unitsPerOne) := by decide +kernel
  have hmono : ∀ k ≤ e, 2 * (10 ^ k * unitsPerOne) ≤ 2 * (10 ^ e * unitsPerOne) := fun k hk =>
    Nat.mul_le_mul_left 2 (Nat.mul_le_mul_right _ (Nat.pow_le_pow_right (by decide) hk))
  refine Nat.le_of_not_lt fun hgt => ?_
  have hmul := hmono 309 hgt
  omega

/-- Two factors that are rounded up by one part in `2 ^ 53` each stay below the half-way point if their
product stays two units below it. -/
theorem two_mul_mul_lt {a b n p : Nat} (ha : a * 2 ^ 53 ≤ n * unitsPerOne * (2 ^ 53 + 1))
    (hb : b * 2 ^ 53 ≤ p * unitsPerOne * (2 ^ 53 + 1))
    (h : 2 * (n * p * unitsPerOne) ≤ 2 ^ topScale * (2 ^ 54 - 5)) :
    2 * (a * b) < unitsPerOne * 2 ^ topScale * (2 ^ 54 - 1) := by
  have hunits : 0 < unitsPerOne := unitsPerOne_pos
  have hmargin : (2 ^ 54 - 5) * ((2 ^ 53 + 1) * (2 ^ 53 + 1)) < (2 ^ 54 - 1) * 2 ^ 106 := by decide
  have hscaled : 2 * (a * b) * 2 ^ 106 < unitsPerOne * 2 ^ topScale * (2 ^ 54 - 1) * 2 ^ 106 := by
    calc 2 * (a * b) * 2 ^ 106 = 2 * ((a * 2 ^ 53) * (b * 2 ^ 53)) := by ring
      _ ≤ 2 * ((n * unitsPerOne * (2 ^ 53 + 1)) * (p * unitsPerOne * (2 ^ 53 + 1))) :=
          Nat.mul_le_mul_left 2 (Nat.mul_le_mul ha hb)
      _ = 2 * (n * p * unitsPerOne) * (unitsPerOne * ((2 ^ 53 + 1) * (2 ^ 53 + 1))) := by ring
      _ ≤ 2 ^ topScale * (2 ^ 54 - 5) * (unitsPerOne * ((2 ^ 53 + 1) * (2 ^ 53 + 1))) :=
          Nat.mul_le_mul_right _ h
      _ = unitsPerOne * 2 ^ topScale * ((2 ^ 54 - 5) * ((2 ^ 53 + 1) * (2 ^ 53 + 1))) := by ring
      _ < unitsPerOne * 2 ^ topScale * ((2 ^ 54 - 1) * 2 ^ 106) :=
          Nat.mul_lt_mul_of_pos_left hmargin (Nat.mul_pos hunits (Nat.two_pow_pos _))
      _ = unitsPerOne * 2 ^ topScale * (2 ^ 54 - 1) * 2 ^ 106 := by ring
  exact Nat.lt_of_mul_lt_mul_right hscaled

/-- **Digits that stay below the largest doubles are scaled to a double.** -/
theorem isSome_mulPowerOfTen? {n e : Nat} (hn : 0 < n)
    (h : 2 * (n * 10 ^ e * unitsPerOne) ≤ 2 ^ topScale * (2 ^ 54 - 5)) :
    (mulPowerOfTen? (Double.ofNat n) e).isSome = true := by
  have hten : 0 < 10 ^ e := Nat.pow_pos (by decide)
  have hroom : 2 ^ topScale * (2 ^ 54 - 5) < 2 ^ topScale * (2 ^ 54 - 1) :=
    Nat.mul_lt_mul_of_pos_left (by decide) (Nat.two_pow_pos _)
  -- neither factor is beyond the doubles, since the other is at least one
  have hdigits : 2 * (n * unitsPerOne) < 2 ^ topScale * (2 ^ 54 - 1) := by
    have hle : n * 1 ≤ n * 10 ^ e := Nat.mul_le_mul_left n hten
    have hmul : n * 1 * unitsPerOne ≤ n * 10 ^ e * unitsPerOne := Nat.mul_le_mul_right _ hle
    rw [Nat.mul_one] at hmul
    omega
  have hpower : 2 * (10 ^ e * unitsPerOne) < 2 ^ topScale * (2 ^ 54 - 1) := by
    have hle : 1 * 10 ^ e ≤ n * 10 ^ e := Nat.mul_le_mul_right _ hn
    have hmul : 1 * 10 ^ e * unitsPerOne ≤ n * 10 ^ e * unitsPerOne := Nat.mul_le_mul_right _ hle
    rw [Nat.one_mul] at hmul
    omega
  have hpow : Nat.pow 10 e = 10 ^ e := rfl
  have hproduct := nearestUnits_lt_infinityBits unitsPerOne_pos
    (two_mul_mul_lt (units_ofNat_mul_le hdigits) (units_ofNat_mul_le hpower) h)
  have hfinite : ((Double.ofNat n).mul (Double.ofNat (Nat.pow 10 e))).isFinite = true := by
    have hinf : Double.infinityBits < 2 ^ 63 := by decide
    rw [Double.isFinite, Double.mul, hpow,
      magnitudeBits_ofSignMagnitude _ (Nat.lt_trans hproduct hinf)]
    exact decide_eq_true hproduct
  rw [mulPowerOfTen?, if_pos (le_maxPowerOfTen hpower)]
  simp only [hfinite, if_true, Option.isSome_some]

/-- A number whose digits before the point have 64 bits is read if its digits can be scaled. -/
theorem WrittenNumber.isSome_value? {w : WrittenNumber} {n : Nat} (hw : takeWhole 0 w.whole = (n, 0))
    (h : (0 : Int) ≤ w.exponent.getD 0 - (takeFraction n w.fraction).2 →
      (mulPowerOfTen? (Double.ofNat (takeFraction n w.fraction).1)
        (w.exponent.getD 0 - (takeFraction n w.fraction).2).toNat).isSome = true) :
    w.value?.isSome = true := by
  rw [value?, hw]
  simp only
  split
  · -- a whole number
    split
    · rfl
    · split <;> rfl
  · have hexp : ((0 : Nat) : Int) - (takeFraction n w.fraction).2 + w.exponent.getD 0
        = w.exponent.getD 0 - (takeFraction n w.fraction).2 := by omega
    rw [hexp, scaled?]
    simp only [Option.isSome_map]
    split
    · next hnonneg => exact h hnonneg
    · rfl

/-- A number with few digits before its point and some behind it is read. -/
theorem WrittenNumber.isSome_value?_of_positional {w : WrittenNumber} (hw : w.Valid)
    (hlen : w.whole.length ≤ 16) (hfraction : w.fraction ≠ []) (hexp : w.exponent = none) :
    w.value?.isSome = true := by
  have hlt : Nat.ofDigitChars 10 w.whole 0 < 10 ^ 16 := by
    have hdigits := ofDigitChars_lt hw.isDigit_whole 0
    have hmono : 10 ^ w.whole.length ≤ 10 ^ 16 := Nat.pow_le_pow_right (by decide) hlen
    omega
  have hmax : 10 * 10 ^ 16 ≤ maxNat64 := by decide
  have hwhole : takeWhole 0 w.whole = (Nat.ofDigitChars 10 w.whole 0, 0) :=
    takeWhole_of_le (by omega)
  have htaken := takeFraction_pos hw.isDigit_fraction hfraction
    (n := Nat.ofDigitChars 10 w.whole 0) (by omega)
  refine isSome_value? hwhole fun hnonneg => ?_
  -- the point makes the exponent negative
  rw [hexp] at hnonneg
  simp only [Option.getD_none] at hnonneg
  omega

end Json

namespace Double

open Json (WrittenNumber takeFraction)

/-! ### The shortest decimal near its double -/

/-- Over a power of five, a power of ten is a power of two. -/
theorem mul_two_pow_le_of_mul_ten_pow_le {a b k : Nat} (h : a * 10 ^ k ≤ b * 5 ^ k) :
    a * 2 ^ k ≤ b := by
  have hten : 10 ^ k = 2 ^ k * 5 ^ k := by rw [← Nat.mul_pow]
  rw [hten, ← Nat.mul_assoc] at h
  exact Nat.le_of_mul_le_mul_right h (Nat.pow_pos (by decide))

/-- **The leading digits of a shortest decimal stay near their double**: they go half a unit in its
last place beyond it at most. -/
theorem two_mul_leading_le {x : Double} {tie : Tie} {n t e : Nat}
    (hn : n * 10 ^ t ≤ (x.shortest tie).digits) (he : (e : Int) = t + (x.shortest tie).exponent) :
    2 * (n * 10 ^ e * unitsPerOne) ≤ 2 * x.units + 2 ^ x.scale := by
  -- over the denominator of the exponent the digits are at most all digits
  have hscaled : n * 10 ^ e * 10 ^ (-(x.shortest tie).exponent).toNat
      ≤ (x.shortest tie).digits * 10 ^ (x.shortest tie).exponent.toNat := by
    have hsum : e + (-(x.shortest tie).exponent).toNat = t + (x.shortest tie).exponent.toNat := by
      omega
    calc n * 10 ^ e * 10 ^ (-(x.shortest tie).exponent).toNat
        = n * 10 ^ (e + (-(x.shortest tie).exponent).toNat) := by rw [Nat.pow_add, Nat.mul_assoc]
      _ = n * 10 ^ t * 10 ^ (x.shortest tie).exponent.toNat := by
          rw [hsum, Nat.pow_add, Nat.mul_assoc]
      _ ≤ _ := Nat.mul_le_mul_right _ hn
  rcases shortest_cases tie x with hgrid | ⟨k, hone, hexact⟩
  · have hhigh := (le_of_onGrid? hgrid).2
    have hten : 0 < 10 ^ (-(x.shortest tie).exponent).toNat := Nat.pow_pos (by decide)
    have hupper : x.roundingInterval.high = 2 * (2 * x.units + 2 ^ x.scale) := by
      show (4 * x.significand + 2) * 2 ^ x.scale = 2 * (2 * (x.significand * 2 ^ x.scale) + 2 ^ x.scale)
      ring
    rw [hupper] at hhigh
    have hbound : 2 * (2 * (n * 10 ^ e * unitsPerOne)) * 10 ^ (-(x.shortest tie).exponent).toNat
        ≤ 2 * (2 * x.units + 2 ^ x.scale) * 10 ^ (-(x.shortest tie).exponent).toNat := by
      calc 2 * (2 * (n * 10 ^ e * unitsPerOne)) * 10 ^ (-(x.shortest tie).exponent).toNat
          = n * 10 ^ e * 10 ^ (-(x.shortest tie).exponent).toNat * (4 * unitsPerOne) := by ring
        _ ≤ (x.shortest tie).digits * 10 ^ (x.shortest tie).exponent.toNat * (4 * unitsPerOne) :=
            Nat.mul_le_mul_right _ hscaled
        _ = (x.shortest tie).digits * (4 * unitsPerOne * 10 ^ (x.shortest tie).exponent.toNat) := by
            ring
        _ ≤ _ := hhigh
    have hcancel := Nat.le_of_mul_le_mul_right hbound hten
    omega
  · -- the exact expansion is the double itself
    have hdown : (-(-(k : Int))).toNat = k := by omega
    have hup : (-(k : Int)).toNat = 0 := by omega
    rw [hexact] at hscaled
    simp only [hdown, hup, Nat.pow_zero, Nat.mul_one] at hscaled
    have hunits := mul_two_pow_le_of_mul_ten_pow_le hscaled
    rw [hone]
    exact Nat.le_add_right_of_le (Nat.mul_le_mul_left 2 hunits)

/-! ### Every finite double -/

/-- All finite doubles but the two largest magnitudes leave room for two roundings. -/
theorem two_mul_units_le {x : Double} (h : x.magnitudeBits + 2 < infinityBits) :
    2 * x.units + 2 ^ x.scale ≤ 2 ^ topScale * (2 ^ 54 - 5) := by
  have hinf : infinityBits = 2047 * 2 ^ 52 := rfl
  have htop : topScale = 2045 := rfl
  have hscale : x.scale = x.magnitudeBits / 2 ^ 52 - 1 := rfl
  have hunits : 2 * x.units + 2 ^ x.scale = (2 * x.significand + 1) * 2 ^ x.scale := by
    rw [units, Nat.pow_eq]
    ring
  rw [hunits, Nat.mul_comm]
  rcases Nat.lt_or_ge x.scale topScale with hlow | hhigh
  · -- a smaller scale leaves half the room
    have hsignificand : 2 * x.significand + 1 ≤ 2 ^ 54 := by
      have hfraction : x.magnitudeBits % 2 ^ 52 < 2 ^ 52 := Nat.mod_lt _ (by decide)
      unfold significand
      split <;> simp only [Nat.pow_eq] at * <;> omega
    have hpow : 2 ^ x.scale * 2 ≤ 2 ^ topScale := by
      rw [← Nat.pow_succ]
      exact Nat.pow_le_pow_right (by decide) hlow
    calc 2 ^ x.scale * (2 * x.significand + 1) ≤ 2 ^ x.scale * 2 ^ 54 := Nat.mul_le_mul_left _ hsignificand
      _ ≤ 2 ^ x.scale * (2 * (2 ^ 54 - 5)) := Nat.mul_le_mul_left _ (by decide)
      _ = 2 ^ x.scale * 2 * (2 ^ 54 - 5) := by rw [Nat.mul_assoc]
      _ ≤ _ := Nat.mul_le_mul_right _ hpow
  · have hbits : x.magnitudeBits / 2 ^ 52 = 2046 := by omega
    have hsame : x.scale = topScale := by omega
    have hsignificand : 2 * x.significand + 1 ≤ 2 ^ 54 - 5 := by
      unfold significand
      split <;> simp only [Nat.pow_eq] at * <;> omega
    rw [hsame]
    exact Nat.mul_le_mul_left _ hsignificand

/-- The text of a double is read as a number. -/
def Legible (x : Double) : Prop := x.written.value?.isSome = true

/-- The text of zero is read. -/
theorem legible_of_isZero {x : Double} (h : x.isZero = true) : x.Legible := by
  refine WrittenNumber.isSome_value?_of_positional x.valid_written ?_ ?_ ?_ <;>
    simp [written, h]

/-- Digits in their places are read. -/
theorem isSome_value?_positionalWritten {d : Decimal} (hd : 0 < d.digits)
    (he : d.leadingExponent < 16) (negative : Bool) :
    (d.positionalWritten negative).value?.isSome = true := by
  have hlen : 0 < d.digitChars.length := List.length_pos_iff.mpr d.digitChars_ne_nil
  unfold Decimal.leadingExponent at he
  refine WrittenNumber.isSome_value?_of_positional (Decimal.valid_positionalWritten hd negative) ?_
    (d.fraction_positionalWritten_ne_nil negative) ?_
  · unfold Decimal.positionalWritten
    simp only
    split
    · rw [List.length_append, List.length_replicate]
      omega
    · split
      · rw [List.length_take]
        omega
      · exact Nat.le_of_ble_eq_true rfl
  · unfold Decimal.positionalWritten
    simp only
    split
    · rfl
    · split <;> rfl

/-- The digits of the shortest decimal with an exponent are read, but for the two largest doubles. -/
theorem isSome_value?_scientificWritten {x : Double} (hz : x.isZero = false)
    (hx : x.magnitudeBits + 2 < infinityBits) (tie : Tie) (negative : Bool) :
    ((x.shortest tie).scientificWritten negative).value?.isSome = true := by
  have hpos := digits_shortest_pos tie hz
  have hdigits := (x.shortest tie).isDigit_digitChars
  have hhead : (x.shortest tie).digitChars.head? ≠ some '0' := Numeral.head?_toDigits_ne_zero hpos
  have hall : Nat.ofDigitChars 10 (x.shortest tie).digitChars 0 = (x.shortest tie).digits :=
    Numeral.ofDigits_toDigits _
  obtain ⟨c, cs, hc⟩ := List.exists_cons_of_ne_nil (x.shortest tie).digitChars_ne_nil
  have hexponent : (x.shortest tie).leadingExponent = cs.length + (x.shortest tie).exponent := by
    rw [Decimal.leadingExponent, hc, List.length_cons]
    omega
  rw [hc] at hdigits hhead hall
  have hbehind : Nat.ofDigitChars 10 cs (Numeral.digitValue c) = (x.shortest tie).digits := by
    rwa [Nat.ofDigitChars_cons, Nat.mul_zero, Nat.zero_add] at hall
  have hcdigit := Json.digitValue_le (hdigits c List.mem_cons_self)
  have hmax : 9 ≤ Json.maxNat64 := by decide
  have hwhole : Json.takeWhole 0 [c] = (Numeral.digitValue c, 0) := by
    simp only [Json.takeWhole, Nat.mul_zero, Nat.zero_add, Nat.le_trans hcdigit hmax, if_true]
  -- the first digit is not zero, so something is scaled
  have hc0 : 0 < Numeral.digitValue c :=
    Json.digitValue_pos (hdigits c List.mem_cons_self) fun h => hhead (congrArg some h)
  refine WrittenNumber.isSome_value? (n := Numeral.digitValue c) ?_ ?_
  · simpa [Decimal.scientificWritten, hc] using hwhole
  · simp only [Decimal.scientificWritten, hc, List.drop_succ_cons, List.drop_zero, Option.getD_some]
    intro hnonneg
    have htaken := Json.takeFraction_le_length (Numeral.digitValue c) cs
    have hlead := Json.takeFraction_mul_le (Numeral.digitValue c) cs
    rw [hbehind] at hlead
    refine Json.isSome_mulPowerOfTen? (Nat.lt_of_lt_of_le hc0 (Json.le_takeFraction _ cs)) ?_
    exact Nat.le_trans (two_mul_leading_le hlead (by omega)) (two_mul_units_le hx)

/-- **Every finite double is legible.** -/
theorem legible_of_isFinite {x : Double} (h : x.isFinite = true) : x.Legible := by
  have hfinite : x.magnitudeBits < infinityBits := of_decide_eq_true h
  cases hz : x.isZero with
  | true => exact legible_of_isZero hz
  | false =>
    rcases Nat.lt_or_ge (x.magnitudeBits + 2) infinityBits with hx | hx
    · unfold Legible written
      simp only [hz, Bool.false_eq_true, if_false]
      split
      · next hplaces => exact isSome_value?_positionalWritten (digits_shortest_pos _ hz) hplaces.2 _
      · exact isSome_value?_scientificWritten hz hx _ _
    · -- the two largest magnitudes, of either sign
      have htop : x.magnitudeBits = infinityBits - 2 ∨ x.magnitudeBits = infinityBits - 1 := by omega
      have hmax : ∀ negative : Bool, (ofSignMagnitude negative (infinityBits - 2)).Legible ∧
          (ofSignMagnitude negative (infinityBits - 1)).Legible := by
        unfold Legible
        decide +kernel
      rw [← ofSignMagnitude_magnitudeBits x]
      rcases htop with h | h <;> rw [h]
      · exact (hmax x.isNegative).1
      · exact (hmax x.isNegative).2

end Double

end JobDispatch
