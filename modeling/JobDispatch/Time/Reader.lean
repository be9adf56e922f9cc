import JobDispatch.Number.Numeral
import JobDispatch.Text.Blank
import JobDispatch.Time.Timestamp

/-!
# Reading a point in time

A written point in time is a date, a `T` or a space, a time of day with an optional fraction, and an
offset from universal time: `Z`, `UTC`, or hours and minutes after a sign.  Blanks are allowed
between the parts, months, days and times may have a single digit, and digits of the fraction after
the ninth are dropped.

## Main definitions

* `Timestamp.ofText?` — the point in time that a text names.

## Main results

* `Timestamp.inYearRange_of_ofParts?` — what is put together lies in a year that is kept.
-/

namespace JobDispatch

namespace Timestamp

open Text (trimLeft)

/-- A number of one to `most` digits, and what follows. -/
def number? (most : Nat) (s : List Char) : Option (Nat × List Char) :=
  let ds := (s.take most).takeWhile Char.isDigit
  if ds.isEmpty then none else some (Numeral.ofDigits ds, s.drop ds.length)

/-- A given character after blanks, and what follows. -/
def mark? (c : Char) (s : List Char) : Option (List Char) :=
  match trimLeft s with
  | d :: r => if d = c then some r else none
  | [] => none

/-- A year after blanks: up to four digits, or any number of digits after a sign. -/
def year? (s : List Char) : Option (Int × List Char) :=
  match trimLeft s with
  | '-' :: r => (number? r.length r).map fun (n, r) => (-(n : Int), r)
  | '+' :: r => (number? r.length r).map fun (n, r) => ((n : Int), r)
  | r => (number? 4 r).map fun (n, r) => ((n : Int), r)

/-- A number of one or two digits after blanks. -/
def pair? (s : List Char) : Option (Nat × List Char) := number? 2 (trimLeft s)

/-- The fraction of a second in nanoseconds, if a point follows. -/
def fraction? : List Char → Option (Nat × List Char)
  | '.' :: s =>
    let ds := s.takeWhile Char.isDigit
    if ds.isEmpty then none
    else
      let kept := ds.take 9
      some (Numeral.ofDigits kept * Nat.pow 10 (9 - kept.length), s.dropWhile Char.isDigit)
  | s => some (0, s)

/-- Hours and minutes of an offset, in seconds, and what follows: two digits each, with colons and
blanks allowed between. -/
def offsetDigits? : List Char → Option (Nat × List Char)
  | a :: b :: s =>
    match s.dropWhile fun c => c == ':' || Text.isBlank c with
    | c :: d :: r =>
      if a.isDigit && b.isDigit && c.isDigit && d.isDigit && Numeral.digitValue c < 6 then
        some (Numeral.ofDigits [a, b] * 3600 + Numeral.ofDigits [c, d] * 60, r)
      else none
    | _ => none
  | _ => none

/-- The offset from universal time in seconds, and what follows. -/
def offset? (s : List Char) : Option (Int × List Char) :=
  if Numeral.lowered (s.take 3) == ['u', 't', 'c'] then some (0, s.drop 3)
  else match s with
    | 'Z' :: r => some (0, r)
    | 'z' :: r => some (0, r)
    | '+' :: r => (offsetDigits? r).map fun (n, r) => ((n : Int), r)
    | '-' :: r => (offsetDigits? r).map fun (n, r) => (-(n : Int), r)
    | '\u2212' :: r => (offsetDigits? r).map fun (n, r) => (-(n : Int), r)
    | _ => none

/-- The years for which dates are kept. -/
def inYearRange (y : Int) : Bool := decide (-262143 ≤ y ∧ y ≤ 262142)

/-- A point in time, if its date is kept. -/
def kept? (t : Timestamp) : Option Timestamp := if inYearRange t.date.year then some t else none

/-- A point in time from its parts, if they make a date, a time of day and an offset of less than a
day.  Both the given date and the date in universal time must be in a year that is kept. -/
def ofParts? (date : Date) (hour minute second fraction : Nat) (offset : Int) : Option Timestamp :=
  if date.isValid && inYearRange date.year && hour < 24 && minute < 60 && second ≤ 60 &&
      offset.natAbs < 86400 then
    let leap := second = 60
    kept? ⟨date.dayNumber * 86400 + hour * 3600 + minute * 60 + (if leap then 59 else second : Nat)
        - offset,
      if leap then fraction + 1000000000 else fraction⟩
  else none

theorem eq_of_kept? {t u : Timestamp} (h : t.kept? = some u) :
    t = u ∧ inYearRange u.date.year = true := by
  rw [kept?] at h
  split at h
  · next hy =>
    obtain rfl := Option.some.inj h
    exact ⟨rfl, hy⟩
  · exact absurd h (by simp)

/-- **What is put together lies in a year that is kept.** -/
theorem inYearRange_of_ofParts? {date : Date} {hour minute second fraction : Nat} {offset : Int}
    {t : Timestamp} (h : ofParts? date hour minute second fraction offset = some t) :
    inYearRange t.date.year = true := by
  rw [ofParts?] at h
  split at h
  · exact (eq_of_kept? h).2
  · exact absurd h (by simp)

/-- **The point in time that a text names.** -/
def ofChars? (s : List Char) : Option Timestamp := do
  let (year, s) ← year? s
  let s ← mark? '-' s
  let (month, s) ← pair? s
  let s ← mark? '-' s
  let (day, s) ← pair? s
  let s ← match s with
    | c :: r => if c = 't' || c = 'T' || c = ' ' then some r else none
    | [] => none
  let (hour, s) ← pair? s
  let s ← mark? ':' s
  let (minute, s) ← pair? s
  let s ← mark? ':' s
  let (second, s) ← pair? s
  let (fraction, s) ← fraction? s
  let (offset, s) ← offset? (trimLeft s)
  if (trimLeft s).isEmpty then ofParts? ⟨year, month, day⟩ hour minute second fraction offset
  else none

/-- The point in time that a text names. -/
def ofText? (s : String) : Option Timestamp := ofChars? s.toList

end Timestamp

end JobDispatch
