import JobDispatch.Json.Printer
import JobDispatch.Proofs.Number.Digits
import JobDispatch.Proofs.Number.Shortest

/-!
# Written numbers are scanned back

Every number is written by its sign, the digits before and after its point, and its exponent, and is
scanned as just these, provided that what follows cannot belong to a number.  For whole numbers the
digits are those of the number; for doubles they are those of the shortest decimal, which is never
zero for a double that is not.

## Main definitions

* `WrittenNumber.chars` — the text of a written number.
* `WrittenNumber.Valid` — digits in both places, and no needless zero in front.
* `Json.Ends` — the texts in front of which a number ends.
* `JsonNumber.written` — how a number is written.

## Main results

* `Token.next?_writtenChars` — **a valid written number is one token.**
* `Double.jsonChars_eq`, `Double.valid_written` — how doubles are written.
* `Json.value?_intWritten` — **a whole number of 64 bits is read back.**
-/

namespace JobDispatch

namespace Json

/-! ### The text of a written number -/

namespace WrittenNumber

/-- The digits after a point; without digits there is no point. -/
def fractionChars : List Char → List Char
  | [] => []
  | ds => '.' :: ds

/-- An exponent with its sign. -/
def exponentChars : Option Int → List Char
  | none => []
  | some e => 'e' :: (if e < 0 then '-' else '+') :: Nat.toDigits 10 e.natAbs

/-- The text without the sign of the number. -/
def magnitudeChars (w : WrittenNumber) : List Char :=
  w.whole ++ (fractionChars w.fraction ++ exponentChars w.exponent)

/-- The text of a written number. -/
def chars (w : WrittenNumber) : List Char :=
  if w.negative then '-' :: w.magnitudeChars else w.magnitudeChars

/-- Digits in both places, and no needless zero in front. -/
structure Valid (w : WrittenNumber) : Prop where
  whole_ne_nil : w.whole ≠ []
  isDigit_whole : ∀ c ∈ w.whole, c.isDigit = true
  isDigit_fraction : ∀ c ∈ w.fraction, c.isDigit = true
  /-- A zero in front stands alone. -/
  leadingZero : w.whole.head? = some '0' → w.whole.length = 1

/-- A valid written number does not begin with a blank. -/
theorem exists_chars_eq_cons {w : WrittenNumber} (hw : w.Valid) :
    ∃ c cs, w.chars = c :: cs ∧ isSpace c = false := by
  unfold chars
  cases w.negative with
  | true => exact ⟨'-', w.magnitudeChars, rfl, rfl⟩
  | false =>
    obtain ⟨c, ds, hwhole⟩ := List.exists_cons_of_ne_nil hw.whole_ne_nil
    have hc : c.isDigit = true := hw.isDigit_whole c (hwhole ▸ List.mem_cons_self)
    refine ⟨c, ds ++ (fractionChars w.fraction ++ exponentChars w.exponent), ?_, ?_⟩
    · simp [magnitudeChars, hwhole]
    · have hne : ∀ b : Char, b.isDigit = false → c ≠ b := by
        rintro b hb rfl
        exact absurd hc (by simp [hb])
      simp [isSpace, hne ' ' rfl, hne '\n' rfl, hne '\r' rfl, hne '\t' rfl]

end WrittenNumber

/-- The texts in front of which a number ends. -/
def Ends : List Char → Prop
  | [] => True
  | c :: _ => c.isDigit = false ∧ c ≠ '.' ∧ c ≠ 'e' ∧ c ≠ 'E'

theorem Ends.startsWithDigit {r : List Char} (h : Ends r) : Numeral.startsWithDigit r = false := by
  cases r with
  | nil => rfl
  | cons c r => exact h.1

namespace Token

open WrittenNumber (fractionChars exponentChars)

/-- An exponent is scanned as itself. -/
theorem exponent?_exponentChars (e : Option Int) {r : List Char} (hr : Ends r) :
    exponent? (exponentChars e ++ r) = some (e, r) := by
  cases e with
  | none =>
    cases r with
    | nil => rfl
    | cons c r =>
      obtain ⟨-, -, he, hE⟩ := hr
      simp [exponentChars, exponent?, he, hE]
  | some e =>
    have hrun : Numeral.digitRun (Nat.toDigits 10 e.natAbs ++ r) = (Nat.toDigits 10 e.natAbs, r) :=
      Numeral.digitRun_append_of_isDigit Numeral.isDigit_toDigits hr.startsWithDigit
    have hne := Numeral.toDigits_ne_nil e.natAbs
    have hvalue := Numeral.ofDigits_toDigits e.natAbs
    generalize hn : e.natAbs = n at hrun hne hvalue
    by_cases hneg : e < 0
    · simp [exponentChars, exponent?, hneg, Numeral.signed, hn, hrun, hne, hvalue]
      omega
    · simp [exponentChars, exponent?, hneg, Numeral.signed, hn, hrun, hne, hvalue]
      omega

/-- What stands behind the digits of a number is no digit. -/
theorem startsWithDigit_exponentChars (e : Option Int) {r : List Char} (hr : Ends r) :
    Numeral.startsWithDigit (exponentChars e ++ r) = false := by
  cases e with
  | none => exact hr.startsWithDigit
  | some e => rfl

/-- The digits after a point are scanned as themselves. -/
theorem fraction?_fractionChars {ds : List Char} (hd : ∀ c ∈ ds, c.isDigit = true) (e : Option Int)
    {r : List Char} (hr : Ends r) :
    fraction? (fractionChars ds ++ (exponentChars e ++ r)) = some (ds, exponentChars e ++ r) := by
  cases ds with
  | nil =>
    -- neither an exponent nor what follows the number begins with a point
    have hpoint : ∀ s, exponentChars e ++ r ≠ '.' :: s := by
      intro s h
      cases e with
      | none =>
        have h : r = '.' :: s := h
        subst h
        exact hr.2.1 rfl
      | some e => simp [exponentChars] at h
    simp only [fractionChars, List.nil_append]
    rw [fraction?]
    exact hpoint
  | cons c ds =>
    have hrun := Numeral.digitRun_append_of_isDigit hd (startsWithDigit_exponentChars e hr)
    simp only [fractionChars, List.cons_append] at hrun ⊢
    rw [fraction?, hrun]
    simp

/-- A valid written number is scanned as itself, apart from its sign. -/
theorem number?_magnitudeChars {w : WrittenNumber} (hw : w.Valid) {r : List Char} (hr : Ends r) :
    number? w.negative (w.magnitudeChars ++ r) = some (w, r) := by
  have hbehind : Numeral.startsWithDigit (fractionChars w.fraction ++ (exponentChars w.exponent ++ r))
      = false := by
    cases w.fraction with
    | nil => exact startsWithDigit_exponentChars w.exponent hr
    | cons c ds => rfl
  have hrun := Numeral.digitRun_append_of_isDigit hw.isDigit_whole hbehind
  have hzero : (w.whole.isEmpty || w.whole.head? == some '0' && w.whole.length != 1) = false := by
    have hlead := hw.leadingZero
    have hne := hw.whole_ne_nil
    by_cases h : w.whole.head? = some '0'
    · simp [h, hlead h, hne]
    · simp [h, hne]
  rw [number?, WrittenNumber.magnitudeChars, List.append_assoc, List.append_assoc, hrun]
  simp only [hzero, Bool.false_eq_true, if_false, Option.bind_eq_bind, Option.bind_some,
    fraction?_fractionChars hw.isDigit_fraction w.exponent hr, exponent?_exponentChars w.exponent hr]
  rfl

/-- A text that begins with a digit begins with a number. -/
theorem next?_of_isDigit {c : Char} (hc : c.isDigit = true) (s : List Char) :
    next? (c :: s) = (number? false (c :: s)).map fun p => (.number p.1, p.2) := by
  rw [next?]
  all_goals
    intro r h
    obtain ⟨rfl, -⟩ := List.cons.inj h
    exact absurd hc (by decide)

/-- **A valid written number is one token.** -/
theorem next?_writtenChars {w : WrittenNumber} (hw : w.Valid) {r : List Char} (hr : Ends r) :
    next? (w.chars ++ r) = some (.number w, r) := by
  have hscan := number?_magnitudeChars hw hr
  unfold WrittenNumber.chars
  cases hneg : w.negative with
  | true =>
    rw [hneg] at hscan
    rw [if_pos rfl, List.cons_append, next?, hscan, Option.map_some]
  | false =>
    rw [hneg] at hscan
    obtain ⟨c, ds, hwhole⟩ := List.exists_cons_of_ne_nil hw.whole_ne_nil
    have hc : c.isDigit = true := hw.isDigit_whole c (hwhole ▸ List.mem_cons_self)
    have hshape : w.magnitudeChars ++ r
        = c :: (ds ++ (fractionChars w.fraction ++ exponentChars w.exponent) ++ r) := by
      simp [WrittenNumber.magnitudeChars, hwhole]
    rw [if_neg (by simp), hshape, next?_of_isDigit hc, ← hshape, hscan, Option.map_some]

end Token

/-! ### Whole numbers -/

/-- How a whole number is written. -/
def intWritten (i : Int) : WrittenNumber := ⟨decide (i < 0), Nat.toDigits 10 i.natAbs, [], none⟩

theorem intChars_eq (i : Int) : intChars i = (intWritten i).chars := by
  by_cases h : i < 0 <;>
    simp [intChars, intWritten, WrittenNumber.chars, WrittenNumber.magnitudeChars,
      WrittenNumber.fractionChars, WrittenNumber.exponentChars, h]

theorem valid_intWritten (i : Int) : (intWritten i).Valid where
  whole_ne_nil := Numeral.toDigits_ne_nil i.natAbs
  isDigit_whole := Numeral.isDigit_toDigits
  isDigit_fraction := fun _ hc => absurd hc List.not_mem_nil
  leadingZero := Numeral.length_toDigits_of_head?

/-- **A whole number of 64 bits is read back.** -/
theorem value?_intWritten {i : Int} (h : JsonNumber.WellFormed (.int i)) :
    (intWritten i).value? = some (.int i) := by
  obtain ⟨hlow, hhigh⟩ := h
  have hdigits : Nat.ofDigitChars 10 (Nat.toDigits 10 i.natAbs) 0 = i.natAbs :=
    Numeral.ofDigits_toDigits i.natAbs
  have hfit : Nat.ofDigitChars 10 (Nat.toDigits 10 i.natAbs) 0 ≤ maxNat64 := by
    rw [hdigits]
    simp only [Nat.pow_eq, maxNat64] at hlow hhigh ⊢
    omega
  have htake : takeWhole 0 (Nat.toDigits 10 i.natAbs) = (i.natAbs, 0) := by
    rw [takeWhole_of_le hfit, hdigits]
  rw [WrittenNumber.value?]
  simp only [intWritten, htake]
  generalize hn : i.natAbs = n
  by_cases hneg : i < 0
  · have hbits : 0 < n ∧ n ≤ Nat.pow 2 63 := by
      simp only [Nat.pow_eq] at hlow ⊢
      omega
    have habs : -(n : Int) = i := by omega
    simp [hneg, hbits, habs]
  · have habs : (n : Int) = i := by omega
    simp [hneg, habs]

end Json

/-! ### Decimals -/

namespace Decimal

open Json (WrittenNumber)

/-- How a decimal is written with all digits in their places. -/
def positionalWritten (negative : Bool) (d : Decimal) : WrittenNumber :=
  let cs := d.digitChars
  if 0 ≤ d.exponent then ⟨negative, cs ++ List.replicate d.exponent.toNat '0', ['0'], none⟩
  else
    let places := d.exponent.natAbs
    if places < cs.length then
      ⟨negative, cs.take (cs.length - places), cs.drop (cs.length - places), none⟩
    else ⟨negative, ['0'], List.replicate (places - cs.length) '0' ++ cs, none⟩

/-- How a decimal is written with one digit before the point and an exponent. -/
def scientificWritten (negative : Bool) (d : Decimal) : WrittenNumber :=
  ⟨negative, d.digitChars.take 1, d.digitChars.drop 1, some d.leadingExponent⟩

theorem digitChars_ne_nil (d : Decimal) : d.digitChars ≠ [] := Numeral.toDigits_ne_nil d.digits

theorem isDigit_digitChars (d : Decimal) : ∀ c ∈ d.digitChars, c.isDigit = true :=
  Numeral.isDigit_toDigits

theorem negative_positionalWritten (d : Decimal) (negative : Bool) :
    (d.positionalWritten negative).negative = negative := by
  unfold positionalWritten
  simp only
  split
  · rfl
  · split <;> rfl

theorem positional_eq (d : Decimal) (negative : Bool) :
    d.positional ['.', '0'] = (d.positionalWritten negative).magnitudeChars := by
  have hne := d.digitChars_ne_nil
  unfold positional positionalWritten
  simp only
  split
  · simp [WrittenNumber.magnitudeChars, WrittenNumber.fractionChars, WrittenNumber.exponentChars]
  · next hneg =>
    split
    · next hlt =>
      -- there is a digit after the point
      have hdrop : d.digitChars.drop (d.digitChars.length - d.exponent.natAbs) ≠ [] := by
        apply List.ne_nil_of_length_pos
        rw [List.length_drop]
        omega
      obtain ⟨c, ds, hc⟩ := List.exists_cons_of_ne_nil hdrop
      simp [WrittenNumber.magnitudeChars, WrittenNumber.fractionChars, WrittenNumber.exponentChars, hc]
    · obtain ⟨c, ds, hc⟩ := List.exists_cons_of_ne_nil
        (List.append_ne_nil_of_right_ne_nil
          (List.replicate (d.exponent.natAbs - d.digitChars.length) '0') hne)
      simp [WrittenNumber.magnitudeChars, WrittenNumber.fractionChars, WrittenNumber.exponentChars, hc]

theorem scientific_eq (d : Decimal) (negative : Bool) :
    d.scientific = (d.scientificWritten negative).magnitudeChars := by
  have hne := d.digitChars_ne_nil
  unfold scientific scientificWritten
  match hd : d.digitChars with
  | [] => exact absurd hd hne
  | [c] => simp [WrittenNumber.magnitudeChars, WrittenNumber.fractionChars, WrittenNumber.exponentChars]
  | c :: b :: ds =>
    simp [WrittenNumber.magnitudeChars, WrittenNumber.fractionChars, WrittenNumber.exponentChars]

/-- The digits of a decimal that is not zero do not begin with a zero. -/
theorem head?_digitChars_append_ne_zero {d : Decimal} (h : 0 < d.digits) (r : List Char) :
    (d.digitChars ++ r).head? ≠ some '0' := by
  have hhead : d.digitChars.head? ≠ some '0' := Numeral.head?_toDigits_ne_zero h
  obtain ⟨c, cs, hc⟩ := List.exists_cons_of_ne_nil d.digitChars_ne_nil
  rw [hc] at hhead ⊢
  exact hhead

theorem isDigit_replicate_zero (n : Nat) : ∀ c ∈ List.replicate n '0', c.isDigit = true := by
  intro c hc
  rw [List.eq_of_mem_replicate hc]
  decide

/-- Digits in their places have some behind the point. -/
theorem fraction_positionalWritten_ne_nil (d : Decimal) (negative : Bool) :
    (d.positionalWritten negative).fraction ≠ [] := by
  unfold positionalWritten
  simp only
  split
  · exact List.cons_ne_nil _ _
  · split
    · next hneg hlt =>
      apply List.ne_nil_of_length_pos
      rw [List.length_drop]
      omega
    · exact List.append_ne_nil_of_right_ne_nil _ d.digitChars_ne_nil

theorem valid_positionalWritten {d : Decimal} (h : 0 < d.digits) (negative : Bool) :
    (d.positionalWritten negative).Valid := by
  have hlead := head?_digitChars_append_ne_zero h
  unfold positionalWritten
  simp only
  split
  · refine ⟨List.append_ne_nil_of_left_ne_nil d.digitChars_ne_nil _, ?_,
      isDigit_replicate_zero 1,
      fun hz => absurd hz (hlead _)⟩
    intro c hc
    rcases List.mem_append.mp hc with hc | hc
    · exact d.isDigit_digitChars c hc
    · exact isDigit_replicate_zero _ c hc
  · split
    · next hneg hlt =>
      have hsplit := List.take_append_drop (d.digitChars.length - d.exponent.natAbs) d.digitChars
      have hne : d.digitChars.take (d.digitChars.length - d.exponent.natAbs) ≠ [] := by
        apply List.ne_nil_of_length_pos
        rw [List.length_take]
        omega
      refine ⟨hne, fun c hc => d.isDigit_digitChars c (List.mem_of_mem_take hc),
        fun c hc => d.isDigit_digitChars c (List.mem_of_mem_drop hc), fun hz => ?_⟩
      -- the digits before the point begin as all the digits do
      refine absurd ?_ (hlead [])
      obtain ⟨c, cs, hc⟩ := List.exists_cons_of_ne_nil hne
      rw [List.append_nil, ← hsplit, hc]
      rw [hc] at hz
      exact hz
    · refine ⟨by simp, isDigit_replicate_zero 1, ?_, fun _ => rfl⟩
      intro c hc
      rcases List.mem_append.mp hc with hc | hc
      · exact isDigit_replicate_zero _ c hc
      · exact d.isDigit_digitChars c hc

theorem valid_scientificWritten (d : Decimal) (negative : Bool) :
    (d.scientificWritten negative).Valid := by
  obtain ⟨c, cs, hc⟩ := List.exists_cons_of_ne_nil d.digitChars_ne_nil
  have hdigit := d.isDigit_digitChars
  rw [hc] at hdigit
  refine ⟨by simp [scientificWritten, hc], ?_, ?_, fun _ => by simp [scientificWritten, hc]⟩
  · intro a ha
    rw [scientificWritten, hc] at ha
    exact hdigit a (List.mem_of_mem_take ha)
  · intro a ha
    rw [scientificWritten, hc] at ha
    exact hdigit a (List.mem_of_mem_drop ha)

end Decimal

/-! ### Doubles -/

namespace Double

open Json (WrittenNumber)

/-- How a finite double is written. -/
def written (x : Double) : WrittenNumber :=
  if x.isZero then ⟨x.isNegative, ['0'], ['0'], none⟩
  else
    let d := x.shortest .toEven
    let e := d.leadingExponent
    if -5 ≤ e ∧ e < 16 then d.positionalWritten x.isNegative else d.scientificWritten x.isNegative

theorem valid_written (x : Double) : x.written.Valid := by
  unfold written
  cases hz : x.isZero with
  | true =>
    exact ⟨by simp, Decimal.isDigit_replicate_zero 1, Decimal.isDigit_replicate_zero 1, fun _ => rfl⟩
  | false =>
    have hpos := digits_shortest_pos .toEven hz
    simp only [Bool.false_eq_true, if_false]
    split
    · exact Decimal.valid_positionalWritten hpos x.isNegative
    · exact Decimal.valid_scientificWritten _ x.isNegative

/-- The sign does not matter for the digits. -/
theorem chars_eq_signChars_append {x : Double} {w : WrittenNumber} {cs : List Char}
    (hneg : w.negative = x.isNegative) (h : w.magnitudeChars = cs) :
    w.chars = x.signChars ++ cs := by
  unfold WrittenNumber.chars signChars
  rw [hneg, h]
  cases x.isNegative <;> rfl

/-- **A finite double is written by its digits.** -/
theorem jsonChars_eq (x : Double) : x.jsonChars = x.written.chars := by
  symm
  unfold jsonChars written
  cases hz : x.isZero with
  | true => exact chars_eq_signChars_append rfl rfl
  | false =>
    simp only [Bool.false_eq_true, if_false]
    split
    · exact chars_eq_signChars_append (Decimal.negative_positionalWritten _ _)
        (Decimal.positional_eq _ _).symm
    · exact chars_eq_signChars_append rfl (Decimal.scientific_eq _ _).symm

end Double

namespace JsonNumber

/-- How a number is written, if it is not a double that has no number. -/
def written : JsonNumber → Json.WrittenNumber
  | .int i => Json.intWritten i
  | .double x => x.written

theorem valid_written : ∀ n : JsonNumber, n.written.Valid
  | .int i => Json.valid_intWritten i
  | .double x => x.valid_written

end JsonNumber

end JobDispatch
