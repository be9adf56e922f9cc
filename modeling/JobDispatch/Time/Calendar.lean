/-!
# The calendar

Dates of the Gregorian calendar, extended without end in both directions, as day numbers.  Years are
counted from March, so that a leap day is the last day of its year; 400 such years have 146097 days.

## Main definitions

* `Date` — a year, month and day of the month.
* `Date.ofDayNumber` — the date of a day counted from the first of January 1970.
* `Date.dayNumber` — the day number of a date.
* `Date.isValid` — the dates that occur: those that are the date of their own day number.
-/

namespace JobDispatch

/-- A calendar date. -/
structure Date where
  year : Int
  month : Int
  day : Int
  deriving DecidableEq

namespace Date

/-- The date of a day, counted from the first of January 1970. -/
def ofDayNumber (n : Int) : Date :=
  let z := n + 719468
  let era := z / 146097
  let dayOfEra := z % 146097
  let yearOfEra := (dayOfEra - dayOfEra / 1460 + dayOfEra / 36524 - dayOfEra / 146096) / 365
  let dayOfYear := dayOfEra - (365 * yearOfEra + yearOfEra / 4 - yearOfEra / 100)
  let marchMonth := (5 * dayOfYear + 2) / 153
  let day := dayOfYear - (153 * marchMonth + 2) / 5 + 1
  let month := if marchMonth < 10 then marchMonth + 3 else marchMonth - 9
  let year := yearOfEra + era * 400
  ⟨if month ≤ 2 then year + 1 else year, month, day⟩

/-- The number of a date's day, counted from the first of January 1970. -/
def dayNumber (d : Date) : Int :=
  let year := if d.month ≤ 2 then d.year - 1 else d.year
  let marchMonth := if 2 < d.month then d.month - 3 else d.month + 9
  let era := year / 400
  let yearOfEra := year % 400
  let dayOfYear := (153 * marchMonth + 2) / 5 + d.day - 1
  era * 146097 + (yearOfEra * 365 + yearOfEra / 4 - yearOfEra / 100 + dayOfYear) - 719468

/-- The dates that occur in the calendar. -/
def isValid (d : Date) : Bool := ofDayNumber d.dayNumber == d

end Date

end JobDispatch
