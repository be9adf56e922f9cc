import JobDispatch.Time.Calendar

/-!
# Points in time

A timestamp counts seconds and nanoseconds in universal time.  Its text is a date, a `T`, a time of
day and a `Z`; the fraction of the second is written with as many groups of three digits as it needs.

## Main definitions

* `Timestamp` — seconds since the first of January 1970 and a fraction in nanoseconds.
* `Timestamp.text` — the written form.
-/

namespace JobDispatch

/-- A point in time. -/
structure Timestamp where
  /-- Whole seconds since the first of January 1970, universal time. -/
  seconds : Int
  /-- Nanoseconds within the second; in a leap second, counted on beyond the second before it. -/
  fraction : Nat
  deriving DecidableEq, Inhabited

namespace Timestamp

/-- Not later than. -/
def le (a b : Timestamp) : Bool :=
  decide (a.seconds < b.seconds ∨ (a.seconds = b.seconds ∧ a.fraction ≤ b.fraction))

instance : LE Timestamp := ⟨fun a b => a.le b = true⟩

instance (a b : Timestamp) : Decidable (a ≤ b) := inferInstanceAs (Decidable (a.le b = true))

theorem le_def {a b : Timestamp} :
    a ≤ b ↔ a.seconds < b.seconds ∨ (a.seconds = b.seconds ∧ a.fraction ≤ b.fraction) := by
  change a.le b = true ↔ _
  unfold Timestamp.le
  exact decide_eq_true_iff

theorem le_refl (a : Timestamp) : a ≤ a := le_def.mpr (by omega)

theorem le_trans {a b c : Timestamp} (hab : a ≤ b) (hbc : b ≤ c) : a ≤ c := by
  rw [le_def] at hab hbc ⊢
  omega

theorem le_total (a b : Timestamp) : a ≤ b ∨ b ≤ a := by
  rw [le_def, le_def]
  omega

/-- The nanoseconds from one point in time to another, negative if it lies before. -/
def nanosSince (t start : Timestamp) : Int :=
  (t.seconds - start.seconds) * 1000000000 + ((t.fraction : Int) - start.fraction)

/-- The point a number of milliseconds after the first of January 1970. -/
def ofMillis (ms : Int) : Timestamp := ⟨ms / 1000, (ms % 1000).toNat * 1000000⟩

/-- The date, in universal time. -/
def date (t : Timestamp) : Date := Date.ofDayNumber (t.seconds / 86400)

/-! ### Writing -/

/-- A number in at least `width` decimal digits. -/
def padded (width n : Nat) : List Char :=
  let ds := Nat.toDigits 10 n
  List.replicate (width - ds.length) '0' ++ ds

/-- A year: four digits, with a sign if that is not enough or the year is negative. -/
def yearChars (y : Int) : List Char :=
  if 0 ≤ y ∧ y ≤ 9999 then padded 4 y.toNat
  else (if y < 0 then '-' else '+') :: padded 4 y.natAbs

/-- The fraction of a second in none, three, six or nine digits after a point. -/
def fractionChars (n : Nat) : List Char :=
  if n = 0 then []
  else if n % 1000000 = 0 then '.' :: padded 3 (n / 1000000)
  else if n % 1000 = 0 then '.' :: padded 6 (n / 1000)
  else '.' :: padded 9 n

/-- The written form, in universal time. -/
def chars (t : Timestamp) : List Char :=
  let date := t.date
  let second := (t.seconds % 86400).toNat
  let leap := 1000000000 ≤ t.fraction
  yearChars date.year ++ '-' :: padded 2 date.month.toNat ++ '-' :: padded 2 date.day.toNat ++
    'T' :: padded 2 (second / 3600) ++ ':' :: padded 2 (second / 60 % 60) ++
    ':' :: padded 2 (second % 60 + if leap then 1 else 0) ++
    fractionChars (if leap then t.fraction - 1000000000 else t.fraction) ++ ['Z']

/-- The written form, in universal time. -/
def text (t : Timestamp) : String := String.ofList t.chars

end Timestamp

end JobDispatch
