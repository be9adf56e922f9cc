import JobDispatch.Proofs.Json.Documents
import JobDispatch.Proofs.Number.Intervals

/-!
# A written value is written for no other value

What is written is not always read back: the reader rounds in two steps and may come to another double.
Yet no two values are written alike.  The digits of a number mean a decimal exactly, and the shortest
decimal names its double; a whole number has neither a point nor an exponent, and a double has one of
them.  So the document that a text writes determines the value, level by level.

## Main definitions

* `WrittenNumber.exact` — the decimal that digits mean, without rounding.

## Main results

* `Double.holds_written` — the digits of a double mean a number in its interval.
* `JsonNumber.written_injective` — **no two numbers are written alike.**
* `Json.document_injective` — **no two values write one document.**
* `Json.chars_injective` — **no two values have one text.**
-/

namespace JobDispatch

open Json (WrittenNumber)

/-! ### Numbers -/

/-- The decimal that digits mean, without rounding and without their sign. -/
def Json.WrittenNumber.exact (w : WrittenNumber) : Decimal :=
  ⟨Numeral.ofDigits (w.whole ++ w.fraction), w.exponent.getD 0 - w.fraction.length⟩

namespace Decimal

/-- Zeros behind the digits and a lower exponent leave the number. -/
theorem value_mul_pow (n k : Nat) (e : Int) : value ⟨n * 10 ^ k, e - k⟩ = value ⟨n, e⟩ := by
  have hten : (10 : ℚ) ^ k * 10 ^ (e - k) = 10 ^ e := by
    rw [← zpow_natCast, ← zpow_add₀ (by decide)]
    congr 1
    omega
  simp only [value, Nat.cast_mul, Nat.cast_pow, Nat.cast_ofNat]
  rw [mul_assoc, hten]

theorem ofDigits_digitChars (d : Decimal) : Numeral.ofDigits d.digitChars = d.digits :=
  Numeral.ofDigits_toDigits d.digits

/-- Zeros behind digits multiply what they mean. -/
theorem ofDigits_append_zeros (cs : List Char) (k : Nat) :
    Numeral.ofDigits (cs ++ List.replicate k '0') = Numeral.ofDigits cs * 10 ^ k := by
  show Nat.ofDigitChars 10 _ 0 = Nat.ofDigitChars 10 cs 0 * 10 ^ k
  rw [Nat.ofDigitChars_append, Nat.ofDigitChars_replicate_zero, Nat.mul_comm]

/-- Zeros in front of digits mean nothing. -/
theorem ofDigits_zeros_append (cs : List Char) (k : Nat) :
    Numeral.ofDigits (List.replicate k '0' ++ cs) = Numeral.ofDigits cs := by
  show Nat.ofDigitChars 10 _ 0 = Nat.ofDigitChars 10 cs 0
  rw [Nat.ofDigitChars_append, Nat.ofDigitChars_replicate_zero, Nat.mul_zero]

/-- Digits in their places mean the decimal. -/
theorem value_exact_positionalWritten (d : Decimal) (negative : Bool) :
    (d.positionalWritten negative).exact.value = d.value := by
  unfold positionalWritten WrittenNumber.exact
  simp only
  split
  · next hnonneg =>
    -- the zeros up to the point and one behind it
    have hzeros : d.digitChars ++ List.replicate d.exponent.toNat '0' ++ ['0']
        = d.digitChars ++ List.replicate (d.exponent.toNat + 1) '0' := by
      rw [List.append_assoc, List.replicate_succ']
    have hexponent : (none : Option Int).getD 0 - (['0'].length : Int)
        = d.exponent - (d.exponent.toNat + 1 : Nat) := by
      simp only [Option.getD_none, List.length_singleton]
      omega
    rw [hzeros, ofDigits_append_zeros, ofDigits_digitChars, hexponent, value_mul_pow]
  · next hneg =>
    split
    · next hlt =>
      have hexponent : (none : Option Int).getD 0
          - ((d.digitChars.drop (d.digitChars.length - d.exponent.natAbs)).length : Int)
          = d.exponent := by
        rw [List.length_drop, Option.getD_none]
        omega
      rw [List.take_append_drop, ofDigits_digitChars, hexponent]
    · next hge =>
      have hzeros : ['0'] ++ (List.replicate (d.exponent.natAbs - d.digitChars.length) '0' ++ d.digitChars)
          = List.replicate (d.exponent.natAbs - d.digitChars.length + 1) '0' ++ d.digitChars := by
        rw [List.replicate_succ]
        rfl
      have hexponent : (none : Option Int).getD 0
          - ((List.replicate (d.exponent.natAbs - d.digitChars.length) '0' ++ d.digitChars).length : Int)
          = d.exponent := by
        rw [List.length_append, List.length_replicate, Option.getD_none]
        omega
      rw [hzeros, ofDigits_zeros_append, ofDigits_digitChars, hexponent]

/-- Digits with an exponent mean the decimal. -/
theorem value_exact_scientificWritten (d : Decimal) (negative : Bool) :
    (d.scientificWritten negative).exact.value = d.value := by
  have hpos := List.length_pos_iff.mpr d.digitChars_ne_nil
  have hexponent : d.leadingExponent - ((d.digitChars.drop 1).length : Int) = d.exponent := by
    rw [leadingExponent, List.length_drop]
    omega
  unfold scientificWritten WrittenNumber.exact
  simp only [Option.getD_some]
  rw [List.take_append_drop, ofDigits_digitChars, hexponent]

end Decimal

namespace Double

/-- The digits of a double mean a number in its interval. -/
theorem holds_written (x : Double) :
    x.roundingInterval.Holds (overDenominator x.written.exact.value) := by
  unfold written
  cases hz : x.isZero with
  | true =>
    -- the digits of zero mean zero
    have hbits : x.magnitudeBits = 0 := by simpa [isZero] using hz
    have hunits : x.units = 0 := by
      rw [units_of_lt (by omega), hbits]
    have hzero : overDenominator (WrittenNumber.exact ⟨x.isNegative, ['0'], ['0'], none⟩).value
        = 4 * x.units := by
      have hdigits : Numeral.ofDigits (['0'] ++ ['0']) = 0 := rfl
      rw [hunits, overDenominator, Decimal.value, WrittenNumber.exact]
      simp only [hdigits, Nat.cast_zero, zero_mul, mul_zero]
    rw [if_pos rfl, hzero]
    exact holds_centre x
  | false =>
    simp only [Bool.false_eq_true, if_false]
    split
    · rw [Decimal.value_exact_positionalWritten]
      exact holds_shortest _ x
    · rw [Decimal.value_exact_scientificWritten]
      exact holds_shortest _ x

theorem negative_written (x : Double) : x.written.negative = x.isNegative := by
  unfold written
  simp only
  split
  · rfl
  · split
    · exact Decimal.negative_positionalWritten _ _
    · rfl

/-- **No two doubles are written alike.** -/
theorem written_injective : Function.Injective written := by
  intro x y h
  have hsign : x.isNegative = y.isNegative := by
    rw [← negative_written, ← negative_written, h]
  have hbits : x.magnitudeBits = y.magnitudeBits :=
    magnitudeBits_eq_of_holds (holds_written x) (h ▸ holds_written y)
  rw [← ofSignMagnitude_magnitudeBits x, ← ofSignMagnitude_magnitudeBits y, hsign, hbits]

/-- A double is written with a point or with an exponent. -/
theorem fraction_or_exponent_written (x : Double) :
    x.written.fraction ≠ [] ∨ x.written.exponent ≠ none := by
  unfold written
  simp only
  split
  · exact .inl (List.cons_ne_nil _ _)
  · split
    · exact .inl (Decimal.fraction_positionalWritten_ne_nil _ _)
    · exact .inr (Option.some_ne_none _)

end Double

namespace JsonNumber

/-- **No two numbers are written alike.** -/
theorem written_injective {n m : JsonNumber} (hn : n.WellFormed) (hm : m.WellFormed)
    (h : n.written = m.written) : n = m := by
  -- a whole number has neither a point nor an exponent
  have hne : ∀ (i : Int) (x : Double), Json.intWritten i ≠ x.written := by
    intro i x he
    rcases x.fraction_or_exponent_written with hx | hx
    · exact hx (he ▸ rfl)
    · exact hx (he ▸ rfl)
  cases n with
  | int i =>
    cases m with
    | int j =>
      have hvalue := Json.value?_intWritten hn
      have h : Json.intWritten i = Json.intWritten j := h
      rw [h, Json.value?_intWritten hm] at hvalue
      exact (Option.some.inj hvalue).symm
    | double y => exact absurd h (hne i y)
  | double x =>
    cases m with
    | int j => exact absurd h.symm (hne j x)
    | double y => exact congrArg double (Double.written_injective h)

end JsonNumber

/-! ### Values -/

namespace Json

theorem document_number {n : JsonNumber} (hn : (Json.number n).WellFormed) :
    (Json.number n).document = .number n.written := by
  rw [WellFormed] at hn
  rw [document]
  cases n with
  | int i => rfl
  | double x => exact if_pos hn

/-- Only a number is written as one. -/
theorem eq_number_of_document {v : Json} {w : WrittenNumber} (h : v.document = .number w) :
    ∃ n, v = .number n := by
  cases v with
  | number n => exact ⟨n, rfl⟩
  | _ => simp [document] at h

/-- No two strings are scanned as the same pieces. -/
theorem pieces_injective {s s' : String} (h : s.toList.map pieceOf = s'.toList.map pieceOf) : s = s' := by
  have hread := decodePieces?_written s.toList
  rw [h, decodePieces?_written] at hread
  exact String.toList_inj.mp (Option.some.inj hread).symm

mutual

/-- **No two values write one document.** -/
theorem document_injective : ∀ {v w : Json} (_ : v.WellFormed) (_ : w.WellFormed)
    (_ : v.document = w.document), v = w
  | .null, w, _, hw, h => by
    cases w with
    | null => rfl
    | number n => simpa using eq_number_of_document (h.trans (document_number hw))
    | _ => simp [document] at h
  | .bool a, w, _, hw, h => by
    cases w with
    | bool b => simpa [document] using h
    | number n => simpa using eq_number_of_document (h.trans (document_number hw))
    | _ => simp [document] at h
  | .number n, w, hv, hw, h => by
    rw [document_number hv] at h
    obtain ⟨m, rfl⟩ := eq_number_of_document h.symm
    rw [document_number hw] at h
    rw [WellFormed] at hv hw
    rw [JsonNumber.written_injective hv hw (Document.number.inj h)]
  | .string s, w, _, hw, h => by
    cases w with
    | string s' =>
      rw [document, document] at h
      rw [pieces_injective (Document.string.inj h)]
    | number n => simpa using eq_number_of_document (h.trans (document_number hw))
    | _ => simp [document] at h
  | .array vs, w, hv, hw, h => by
    cases w with
    | array ws =>
      rw [WellFormed] at hv hw
      rw [document, document] at h
      rw [itemsDocument_injective hv hw (Document.array.inj h)]
    | number n => simpa using eq_number_of_document (h.trans (document_number hw))
    | _ => simp [document] at h
  | .object fs, w, hv, hw, h => by
    cases w with
    | object gs =>
      rw [WellFormed] at hv hw
      rw [document, document] at h
      rw [fieldsDocument_injective hv.2 hw.2 (Document.object.inj h)]
    | number n => simpa using eq_number_of_document (h.trans (document_number hw))
    | _ => simp [document] at h

/-- The same for items. -/
theorem itemsDocument_injective : ∀ {vs ws : List Json} (_ : ItemsWellFormed vs) (_ : ItemsWellFormed ws)
    (_ : itemsDocument vs = itemsDocument ws), vs = ws
  | [], ws, _, _, h => by
    cases ws with
    | nil => rfl
    | cons w ws => simp [itemsDocument] at h
  | v :: vs, ws, hv, hw, h => by
    cases ws with
    | nil => simp [itemsDocument] at h
    | cons w ws =>
      rw [ItemsWellFormed] at hv hw
      rw [itemsDocument, itemsDocument] at h
      obtain ⟨hfirst, hrest⟩ := List.cons.inj h
      rw [document_injective hv.1 hw.1 hfirst, itemsDocument_injective hv.2 hw.2 hrest]

/-- The same for the names and values of fields. -/
theorem fieldsDocument_injective : ∀ {fs gs : List (String × Json)} (_ : FieldsWellFormed fs)
    (_ : FieldsWellFormed gs) (_ : fieldsDocument fs = fieldsDocument gs), fs = gs
  | [], gs, _, _, h => by
    cases gs with
    | nil => rfl
    | cons g gs =>
      obtain ⟨name, w⟩ := g
      simp [fieldsDocument] at h
  | (name, v) :: fs, gs, hv, hw, h => by
    cases gs with
    | nil => simp [fieldsDocument] at h
    | cons g gs =>
      obtain ⟨name', w⟩ := g
      rw [FieldsWellFormed] at hv hw
      rw [fieldsDocument, fieldsDocument] at h
      obtain ⟨hfirst, hrest⟩ := List.cons.inj h
      obtain ⟨hname, hvalue⟩ := Prod.mk.inj hfirst
      rw [pieces_injective hname, document_injective hv.1 hw.1 hvalue,
        fieldsDocument_injective hv.2 hw.2 hrest]

end

/-- **No two values have one text.** -/
theorem chars_injective {v w : Json} (hv : v.WellFormed) (hw : w.WellFormed) (h : v.chars = w.chars) :
    v = w := by
  refine document_injective hv hw (Option.some.inj ?_)
  rw [← ofChars?_chars, ← ofChars?_chars, h]

end Json

end JobDispatch
