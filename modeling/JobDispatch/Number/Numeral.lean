import JobDispatch.Number.Double

/-!
# Reading numbers

Numbers written in text: whole numbers with an optional plus sign, and decimals with an optional
sign, point and exponent, which are rounded once to the nearest double.

## Main definitions

* `Numeral.whole?` — a whole number up to a limit.
* `Numeral.double?` — the double nearest to a decimal.
-/

namespace JobDispatch

/-- The double nearest to `digits * 10 ^ exponent`.  Powers of ten that can only lead to infinity or
to zero are not expanded. -/
def Double.ofDecimal (negative : Bool) (digits : Nat) (exponent : Int) : Double :=
  if digits = 0 then ofSignMagnitude negative 0
  else if 310 ≤ exponent then infinity negative
  else if exponent + (digits.log2 : Int) < -1200 then ofSignMagnitude negative 0
  else nearest negative (digits * Nat.pow 10 exponent.toNat) (Nat.pow 10 (-exponent).toNat)

namespace Numeral

/-- The value of a decimal digit. -/
def digitValue (c : Char) : Nat := c.toNat - 48

/-- The number that a run of decimal digits writes. -/
def ofDigits (cs : List Char) : Nat := cs.foldl (fun n c => 10 * n + digitValue c) 0

/-- The leading run of decimal digits and what follows it. -/
def digitRun (s : List Char) : List Char × List Char := (s.takeWhile Char.isDigit, s.dropWhile Char.isDigit)

/-- A whole number of at most `limit`: decimal digits after an optional plus sign. -/
def whole? (limit : Nat) (s : List Char) : Option Nat :=
  let ds := match s with
    | '+' :: r => r
    | _ => s
  if ds.isEmpty || !ds.all Char.isDigit then none
  else if ofDigits ds ≤ limit then some (ofDigits ds) else none

/-- The letters of a text in lower case. -/
def lowered (s : List Char) : List Char := s.map Char.toLower

/-- A sign at the start of a text (whether it is a minus), and what follows. -/
def signed : List Char → Bool × List Char
  | '+' :: r => (false, r)
  | '-' :: r => (true, r)
  | s => (false, s)

/-- The exponent that ends a decimal: nothing, or an `e` and a signed whole number. -/
def exponent? : List Char → Option Int
  | [] => some 0
  | c :: r =>
    if c = 'e' || c = 'E' then
      let (negative, ds) := signed r
      if ds.isEmpty || !ds.all Char.isDigit then none
      else some (if negative then -(ofDigits ds : Int) else ofDigits ds)
    else none

/-- A decimal without its sign: digits with an optional point, at least one digit in all, and an
optional exponent. -/
def magnitude? (negative : Bool) (s : List Char) : Option Double :=
  let (whole, rest) := digitRun s
  let (fraction, rest) := match rest with
    | '.' :: r => digitRun r
    | _ => ([], rest)
  if whole.isEmpty && fraction.isEmpty then none
  else (exponent? rest).map fun e =>
    Double.ofDecimal negative (ofDigits (whole ++ fraction)) (e - fraction.length)

/-- The double that a text names: a signed decimal, `inf`, `infinity` or `nan` in any case. -/
def double? (s : List Char) : Option Double :=
  let (negative, r) := signed s
  if lowered r == ['n', 'a', 'n'] then some (Double.nan negative)
  else if lowered r == ['i', 'n', 'f'] || lowered r == ['i', 'n', 'f', 'i', 'n', 'i', 't', 'y'] then
    some (Double.infinity negative)
  else magnitude? negative r

end Numeral

end JobDispatch
