import Mathlib.Algebra.Group.Nat.Defs
import JobDispatch.Job.Written
import JobDispatch.Proofs.Json.Strings
import JobDispatch.Proofs.Number.Digits
import JobDispatch.Proofs.Time.Calendar

/-!
# Written points in time are read back

The text of a point in time has a date, a time of day with as many digits after the point as it needs,
and the mark of universal time.  Reading it part by part gives each part again, and the parts make the
point in time: to the nanosecond, in every year that is kept, leap seconds included.

## Main definitions

* `Timestamp.Proper` — the points in time that have a text of their own.
* `Timestamp.secondOfDay`, `Timestamp.secondOfMinute`, `Timestamp.ownFraction` — the parts of the time of
  day.

## Main results

* `Timestamp.year?_yearChars`, `Timestamp.pair?_padded`, `Timestamp.fraction?_fractionChars` — the parts
  are read back.
* `Timestamp.ofParts?_of_proper` — the parts make the point in time.
* `Timestamp.ofChars?_chars` — **a written point in time is read back.**
-/

namespace JobDispatch

namespace Text

/-- No digit is a blank. -/
theorem isBlank_of_isDigit {c : Char} (h : c.isDigit = true) : isBlank c = false := by
  have hrange : 48 ≤ c.toNat ∧ c.toNat ≤ 57 := by
    simp only [Char.isDigit, Bool.and_eq_true, decide_eq_true_eq, ge_iff_le, UInt32.le_iff_toNat_le]
      at h
    exact h
  simp only [isBlank, Bool.or_eq_false_iff, Bool.and_eq_false_iff, decide_eq_false_iff_not,
    beq_eq_false_iff_ne]
  omega

/-- Digits stay when blanks are trimmed off. -/
theorem trimLeft_digits {ds : List Char} (hne : ds ≠ []) (hd : ∀ c ∈ ds, c.isDigit = true)
    (r : List Char) : trimLeft (ds ++ r) = ds ++ r := by
  obtain ⟨c, cs, rfl⟩ := List.exists_cons_of_ne_nil hne
  exact trimLeft_cons_of_not_isBlank (isBlank_of_isDigit (hd c List.mem_cons_self))

end Text

namespace Timestamp

open Numeral (startsWithDigit)

variable {width n most : Nat} {ds r : List Char}

/-! ### Padded numbers -/

theorem isDigit_padded : ∀ c ∈ padded width n, c.isDigit = true := by
  intro c hc
  rcases List.mem_append.mp hc with hc | hc
  · rw [List.eq_of_mem_replicate hc]
    rfl
  · exact Numeral.isDigit_toDigits c hc

theorem length_padded (hw : 0 < width) (hn : n < 10 ^ width) : (padded width n).length = width := by
  have hfit := (Nat.length_toDigits_le_iff (by decide) hw).mpr hn
  rw [padded, List.length_append, List.length_replicate]
  omega

/-- Zeros in front of the digits of a number do not change it. -/
theorem ofDigits_padded (width n : Nat) : Numeral.ofDigits (padded width n) = n := by
  have hall : Nat.ofDigitChars 10 (padded width n) 0 = n := by
    rw [padded, Nat.ofDigitChars_append, Nat.ofDigitChars_replicate_zero, Nat.mul_zero,
      Nat.ofDigitChars_ten_toDigits]
  exact hall

theorem padded_ne_nil (width n : Nat) : padded width n ≠ [] :=
  List.append_ne_nil_of_right_ne_nil _ (Numeral.toDigits_ne_nil n)

/-- Digits are read as far as they go, or as far as is asked for. -/
theorem number?_append (hne : ds ≠ []) (hd : ∀ c ∈ ds, c.isDigit = true) (hlen : ds.length ≤ most)
    (hr : ds.length = most ∨ startsWithDigit r = false) :
    number? most (ds ++ r) = some (Numeral.ofDigits ds, r) := by
  have hrest : startsWithDigit (r.take (most - ds.length)) = false := by
    rcases hr with rfl | hr
    · rw [Nat.sub_self, List.take_zero]
      rfl
    · cases r with
      | nil => rw [List.take_nil]; rfl
      | cons c r => cases most - ds.length with
        | zero => rfl
        | succ k => exact hr
  have hrun := congrArg Prod.fst (Numeral.digitRun_append_of_isDigit hd hrest)
  simp only [Numeral.digitRun] at hrun
  simp only [number?, List.take_append, List.take_of_length_le hlen, hrun, List.isEmpty_iff, hne,
    if_false, List.drop_left]

/-- A number of two digits is read back. -/
theorem pair?_padded (hn : n < 100) (r : List Char) : pair? (padded 2 n ++ r) = some (n, r) := by
  have hlen : (padded 2 n).length = 2 := length_padded (by decide) hn
  rw [pair?, Text.trimLeft_digits (padded_ne_nil 2 n) isDigit_padded,
    number?_append (padded_ne_nil 2 n) isDigit_padded (by omega) (.inl hlen), ofDigits_padded]

/-- A mark that is no blank is read back. -/
theorem mark?_cons {c : Char} (h : Text.isBlank c = false) (r : List Char) :
    mark? c (c :: r) = some r := by
  rw [mark?, Text.trimLeft_cons_of_not_isBlank h]
  exact if_pos rfl

/-! ### Years -/

/-- A year with a sign in front: its digits are followed by something else. -/
theorem number?_signed (hr : startsWithDigit r = false) :
    number? (padded 4 n ++ r).length (padded 4 n ++ r) = some (n, r) := by
  rw [number?_append (padded_ne_nil 4 n) isDigit_padded (by simp) (.inr hr), ofDigits_padded]

/-- **A year is read back**, with its sign if it has one. -/
theorem year?_yearChars (y : Int) (hr : startsWithDigit r = false) :
    year? (yearChars y ++ r) = some (y, r) := by
  rw [yearChars]
  split
  · next h =>
    have hlen : (padded 4 y.toNat).length = 4 := length_padded (by decide) (by omega)
    obtain ⟨c, cs, hc⟩ := List.exists_cons_of_ne_nil (padded_ne_nil 4 y.toNat)
    have hdigit : c.isDigit = true := isDigit_padded c (hc ▸ List.mem_cons_self)
    have hminus : c ≠ '-' := by rintro rfl; cases hdigit
    have hplus : c ≠ '+' := by rintro rfl; cases hdigit
    have hread : number? 4 (padded 4 y.toNat ++ r) = some (y.toNat, r) := by
      rw [number?_append (padded_ne_nil 4 _) isDigit_padded (by omega) (.inl hlen), ofDigits_padded]
    rw [year?, Text.trimLeft_digits (padded_ne_nil 4 _) isDigit_padded]
    rw [hc, List.cons_append] at hread ⊢
    split
    · next he => exact absurd (List.cons.inj he).1 hminus
    · next he => exact absurd (List.cons.inj he).1 hplus
    · simp only [hread, Option.map_some, Int.toNat_of_nonneg h.1]
  · split
    · next hneg =>
      rw [List.cons_append, year?, Text.trimLeft_cons_of_not_isBlank (by decide)]
      simp only [number?_signed hr, Option.map_some]
      congr
      omega
    · next hneg =>
      rw [List.cons_append, year?, Text.trimLeft_cons_of_not_isBlank (by decide)]
      simp only [number?_signed hr, Option.map_some]
      congr
      omega

/-! ### Fractions -/

/-- Digits after a point are read back as a fraction. -/
theorem fraction?_padded (hw : 0 < width) (hw' : width ≤ 9) (hn : n < 10 ^ width)
    (hr : startsWithDigit r = false) :
    fraction? ('.' :: (padded width n ++ r)) = some (n * 10 ^ (9 - width), r) := by
  have hdigits : ∀ c ∈ padded width n, c.isDigit = true := isDigit_padded
  have hrun := Numeral.digitRun_append_of_isDigit hdigits hr
  have hds := congrArg Prod.fst hrun
  have hrest := congrArg Prod.snd hrun
  simp only [Numeral.digitRun] at hds hrest
  have hlen := length_padded hw hn
  have hall : (padded width n).take 9 = padded width n := List.take_of_length_le (by omega)
  simp only [fraction?, hds, hrest, List.isEmpty_iff, padded_ne_nil, if_false, hall, ofDigits_padded,
    hlen, Nat.pow_eq]

/-- **A fraction of a second is read back**, whatever the number of its digits. -/
theorem fraction?_fractionChars (hn : n < 1000000000) (hr : startsWithDigit r = false)
    (hpoint : r.head? ≠ some '.') : fraction? (fractionChars n ++ r) = some (n, r) := by
  rw [fractionChars]
  split
  · next h =>
    rw [List.nil_append, fraction?.eq_2, h]
    rintro s rfl
    exact hpoint rfl
  split
  · next h =>
    rw [List.cons_append, fraction?_padded (by decide) (by decide) (by omega) hr]
    congr
    omega
  split
  · next h =>
    rw [List.cons_append, fraction?_padded (by decide) (by decide) (by omega) hr]
    congr
    omega
  · next h =>
    rw [List.cons_append, fraction?_padded (by decide) (by decide) hn hr]
    simp

/-! ### Points in time -/

/-- **The points in time that have a text of their own**: the date is one that is kept, and the fraction
lies within its second, or in a leap second behind the last one of a minute. -/
structure Proper (t : Timestamp) : Prop where
  year : inYearRange t.date.year = true
  fraction : t.fraction < 1000000000 ∨ t.seconds % 60 = 59 ∧ t.fraction < 2000000000

/-- The points in time of the years of four digits, to the nanosecond. -/
theorem proper_of_year {t : Timestamp} (hfirst : 0 ≤ t.date.year) (hlast : t.date.year ≤ 9999)
    (hf : t.fraction < 1000000000) : t.Proper where
  year := by
    rw [inYearRange, decide_eq_true_eq]
    omega
  fraction := .inl hf

/-- The time of day, in whole seconds. -/
def secondOfDay (t : Timestamp) : Nat := (t.seconds % 86400).toNat

/-- The second of a minute; a leap second is the sixtieth. -/
def secondOfMinute (t : Timestamp) : Nat :=
  t.secondOfDay % 60 + if 1000000000 ≤ t.fraction then 1 else 0

/-- The fraction within its second. -/
def ownFraction (t : Timestamp) : Nat :=
  if 1000000000 ≤ t.fraction then t.fraction - 1000000000 else t.fraction

theorem secondOfDay_eq (t : Timestamp) : (t.secondOfDay : Int) = t.seconds % 86400 :=
  Int.toNat_of_nonneg (by omega)

/-- The sixtieth second of a minute is a leap second, and no other is. -/
theorem secondOfMinute_cases {t : Timestamp} (ht : t.Proper) :
    t.secondOfMinute = 60 ∧ t.secondOfDay % 60 = 59 ∧ t.fraction = t.ownFraction + 1000000000 ∨
      t.secondOfMinute = t.secondOfDay % 60 ∧ t.fraction = t.ownFraction := by
  have hsecond := t.secondOfDay_eq
  have hfraction := ht.fraction
  rw [secondOfMinute, ownFraction]
  split <;> omega

theorem ownFraction_lt {t : Timestamp} (ht : t.Proper) : t.ownFraction < 1000000000 := by
  have hfraction := ht.fraction
  rw [ownFraction]
  split <;> omega

/-- **A point in time is put together from its parts.** -/
theorem ofParts?_of_proper {t : Timestamp} (ht : t.Proper) :
    ofParts? t.date (t.secondOfDay / 3600) (t.secondOfDay / 60 % 60) t.secondOfMinute t.ownFraction 0
      = some t := by
  have hday : t.date.dayNumber = t.seconds / 86400 := Date.dayNumber_ofDayNumber _
  have hsecond := t.secondOfDay_eq
  have hcases := secondOfMinute_cases ht
  have hparts : (t.date.isValid && inYearRange t.date.year && decide (t.secondOfDay / 3600 < 24) &&
      decide (t.secondOfDay / 60 % 60 < 60) && decide (t.secondOfMinute ≤ 60) &&
      decide ((0 : Int).natAbs < 86400)) = true := by
    have hvalid : t.date.isValid = true := Date.isValid_ofDayNumber _
    simp only [hvalid, ht.year, Bool.true_and, Bool.and_eq_true, decide_eq_true_eq]
    exact ⟨⟨⟨by omega, by omega⟩, by omega⟩, by decide⟩
  have hkept : ∀ u : Timestamp, u = t → u.kept? = some t := by
    rintro u rfl
    exact if_pos ht.year
  rw [ofParts?, if_pos hparts]
  refine hkept _ ?_
  show _ = Timestamp.mk t.seconds t.fraction
  rw [Timestamp.mk.injEq]
  rcases hcases with ⟨hsixty, hlast, hfraction⟩ | ⟨hminute, hfraction⟩
  · simp only [hsixty, if_true]
    omega
  · have hless : t.secondOfMinute ≠ 60 := by omega
    simp only [if_neg hless]
    omega

/-- A reader goes on behind a part that is read. -/
theorem bind_of_eq_some {α β : Type} {x : Option α} {a : α} (h : x = some a) (f : α → Option β) :
    (x >>= f) = f a := by
  rw [h]
  rfl

theorem chars_eq (t : Timestamp) : t.chars
    = yearChars t.date.year ++ ('-' :: (padded 2 t.date.month.toNat ++
        ('-' :: (padded 2 t.date.day.toNat ++ ('T' :: (padded 2 (t.secondOfDay / 3600) ++
          (':' :: (padded 2 (t.secondOfDay / 60 % 60) ++ (':' :: (padded 2 t.secondOfMinute ++
            (fractionChars t.ownFraction ++ ['Z']))))))))))) := by
  simp only [chars, secondOfMinute, secondOfDay, ownFraction, List.append_assoc, List.cons_append]

/-- **A written point in time is read back.** -/
theorem ofChars?_chars {t : Timestamp} (ht : t.Proper) : ofChars? t.chars = some t := by
  have hmonth : 1 ≤ t.date.month ∧ t.date.month ≤ 12 := Date.month_ofDayNumber _
  have hday : 1 ≤ t.date.day ∧ t.date.day ≤ 31 := Date.day_ofDayNumber _
  have hdate : (⟨t.date.year, t.date.month.toNat, t.date.day.toNat⟩ : Date) = t.date := by
    rw [Int.toNat_of_nonneg (show 0 ≤ t.date.month by omega),
      Int.toNat_of_nonneg (show 0 ≤ t.date.day by omega)]
  have hsecond := t.secondOfDay_eq
  have hcases := secondOfMinute_cases ht
  have hmonth' : t.date.month.toNat < 100 := by omega
  have hday' : t.date.day.toNat < 100 := by omega
  have hhour : t.secondOfDay / 3600 < 100 := by omega
  have hminute : t.secondOfDay / 60 % 60 < 100 := by omega
  have hsecond' : t.secondOfMinute < 100 := by omega
  -- every part is read up to the mark behind it
  rw [chars_eq, ofChars?]
  refine (bind_of_eq_some (year?_yearChars _ rfl) _).trans ?_
  refine (bind_of_eq_some (mark?_cons (by decide) _) _).trans ?_
  refine (bind_of_eq_some (pair?_padded hmonth' _) _).trans ?_
  refine (bind_of_eq_some (mark?_cons (by decide) _) _).trans ?_
  refine (bind_of_eq_some (pair?_padded hday' _) _).trans ?_
  refine (if_pos (by decide)).trans ?_
  refine (bind_of_eq_some rfl _).trans ?_
  refine (bind_of_eq_some (pair?_padded hhour _) _).trans ?_
  refine (bind_of_eq_some (mark?_cons (by decide) _) _).trans ?_
  refine (bind_of_eq_some (pair?_padded hminute _) _).trans ?_
  refine (bind_of_eq_some (mark?_cons (by decide) _) _).trans ?_
  refine (bind_of_eq_some (pair?_padded hsecond' _) _).trans ?_
  refine (bind_of_eq_some (fraction?_fractionChars (ownFraction_lt ht) rfl (by decide)) _).trans ?_
  refine (bind_of_eq_some rfl _).trans ?_
  rw [hdate]
  exact ofParts?_of_proper ht

/-- The same inside a document. -/
theorem read?_written {t : Timestamp} (ht : t.Proper) :
    read? (.string (t.text.toList.map Json.pieceOf)) = some t := by
  rw [read?, Json.Document.text?, Json.decodePieces?_written, Option.map_some, Option.bind_some,
    String.ofList_toList, ofText?, text, String.toList_ofList, ofChars?_chars ht]

end Timestamp

end JobDispatch
