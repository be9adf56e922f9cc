import JobDispatch.Time.Calendar

/-!
# Days and dates

The date of a day leads back to the day, so every day has a date that occurs in the calendar.

## Main results

* `Date.ofDayNumber_spec` — how the date of a day comes about.
* `Date.dayNumber_ofDayNumber` — **the date of a day leads back to it.**
* `Date.isValid_ofDayNumber` — the date of a day occurs in the calendar.
* `Date.month_ofDayNumber`, `Date.day_ofDayNumber` — its month and day have two digits.
-/

namespace JobDispatch

namespace Date

/-- **The year of a day within its era**: it is one of four hundred, and of its days, which are counted
from the first of March, at most 365 have gone. -/
theorem yearOfEra_bounds {day year : Int} (h0 : 0 ≤ day) (h : day < 146097)
    (hyear : year = (day - day / 1460 + day / 36524 - day / 146096) / 365) :
    (0 ≤ year ∧ year ≤ 399) ∧ 0 ≤ day - (365 * year + year / 4 - year / 100) ∧
      day - (365 * year + year / 4 - year / 100) ≤ 365 := by
  have hfit : 0 ≤ year ∧ year ≤ 399 := by omega
  -- within one century every fourth year has a leap day
  have hdays : day / 36524 = 0 ∨ day / 36524 = 1 ∨ day / 36524 = 2 ∨ day / 36524 = 3 ∨
      day / 36524 = 4 := by omega
  have hcentury : year / 100 = 0 ∨ year / 100 = 1 ∨ year / 100 = 2 ∨ year / 100 = 3 := by omega
  refine ⟨hfit, ?_⟩
  rcases hdays with hd | hd | hd | hd | hd <;> rcases hcentury with hc | hc | hc | hc <;> omega

/-- **How the date of a day comes about**: from the era, the year in the era, the day in the year, and
the month, all counted from March. -/
theorem ofDayNumber_spec (n : Int) : ∃ era year day march : Int,
    n + 719468 = era * 146097 + (year * 365 + year / 4 - year / 100 + day) ∧
      (0 ≤ year ∧ year ≤ 399) ∧ (0 ≤ day ∧ day ≤ 365) ∧ march = (5 * day + 2) / 153 ∧
      ofDayNumber n = ⟨if march < 10 then year + era * 400 else year + era * 400 + 1,
        if march < 10 then march + 3 else march - 9, day - (153 * march + 2) / 5 + 1⟩ := by
  have hlow : 0 ≤ (n + 719468) % 146097 := by omega
  have hhigh : (n + 719468) % 146097 < 146097 := by omega
  obtain ⟨hyear, hday⟩ := yearOfEra_bounds hlow hhigh rfl
  refine ⟨(n + 719468) / 146097, _, _, _, ?_, hyear, hday, rfl, ?_⟩
  · have hera := Int.mul_ediv_add_emod (n + 719468) 146097
    omega
  · simp only [ofDayNumber, Date.mk.injEq, and_true]
    split <;> split <;> omega

/-- **The date of a day leads back to it.** -/
theorem dayNumber_ofDayNumber (n : Int) : (ofDayNumber n).dayNumber = n := by
  obtain ⟨era, year, day, march, hn, hyear, hday, hmarch, hdate⟩ := ofDayNumber_spec n
  rw [hdate, dayNumber]
  have hera : (year + era * 400) / 400 = era := by omega
  have hrest : (year + era * 400) % 400 = year := by omega
  by_cases h : march < 10
  · have hlate : ¬ march + 3 ≤ 2 := by omega
    have hlate' : 2 < march + 3 := by omega
    simp only [if_pos h, if_neg hlate, if_pos hlate', hera, hrest]
    omega
  · -- the first two months belong to the year before, counted from March
    have hearly : march - 9 ≤ 2 := by omega
    have hearly' : ¬ 2 < march - 9 := by omega
    simp only [if_neg h, if_pos hearly, if_neg hearly', Int.add_sub_cancel, hera, hrest]
    omega

/-- The date of a day occurs in the calendar. -/
theorem isValid_ofDayNumber (n : Int) : (ofDayNumber n).isValid = true := by
  rw [isValid, dayNumber_ofDayNumber, beq_self_eq_true]

/-- A leap day occurs, but not in every year. -/
example : ofDayNumber 19782 = ⟨2024, 2, 29⟩ ∧ isValid ⟨2024, 2, 29⟩ = true ∧
    isValid ⟨2023, 2, 29⟩ = false := by decide

theorem month_ofDayNumber (n : Int) : 1 ≤ (ofDayNumber n).month ∧ (ofDayNumber n).month ≤ 12 := by
  obtain ⟨era, year, day, march, -, -, hday, hmarch, hdate⟩ := ofDayNumber_spec n
  rw [hdate]
  simp only
  split <;> omega

theorem day_ofDayNumber (n : Int) : 1 ≤ (ofDayNumber n).day ∧ (ofDayNumber n).day ≤ 31 := by
  obtain ⟨era, year, day, march, -, -, hday, hmarch, hdate⟩ := ofDayNumber_spec n
  rw [hdate]
  simp only
  omega

end Date

end JobDispatch
