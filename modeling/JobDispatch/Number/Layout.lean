import JobDispatch.Number.Shortest

/-!
# Layouts of a number

Two texts of a double, both of its shortest digits: the one used inside messages never has an
exponent, the one used inside JSON has one when the number is very large or very small and otherwise
always shows a decimal point.

## Main definitions

* `Double.messageText` — positional, without a point for whole numbers.
* `Double.jsonText` — positional from `1e-5` up to `1e16`, with an exponent outside.
-/

namespace JobDispatch

namespace Decimal

/-- The decimal digits, most significant first. -/
def digitChars (d : Decimal) : List Char := Nat.toDigits 10 d.digits

/-- The exponent of the first digit. -/
def leadingExponent (d : Decimal) : Int := d.digitChars.length + d.exponent - 1

/-- All digits in their places; a whole number ends in `whole`. -/
def positional (whole : List Char) (d : Decimal) : List Char :=
  let cs := d.digitChars
  if 0 ≤ d.exponent then cs ++ List.replicate d.exponent.toNat '0' ++ whole
  else
    let places := d.exponent.natAbs
    if places < cs.length then cs.take (cs.length - places) ++ '.' :: cs.drop (cs.length - places)
    else '0' :: '.' :: (List.replicate (places - cs.length) '0' ++ cs)

/-- One digit before the point, the others after it, and a signed exponent. -/
def scientific (d : Decimal) : List Char :=
  let e := d.leadingExponent
  let tail := (if e < 0 then '-' else '+') :: Nat.toDigits 10 e.natAbs
  match d.digitChars with
  | [] => '0' :: 'e' :: tail
  | [c] => c :: 'e' :: tail
  | c :: cs => c :: '.' :: (cs ++ 'e' :: tail)

end Decimal

namespace Double

/-- A minus sign if the sign bit is set. -/
def signChars (x : Double) : List Char := if x.isNegative then ['-'] else []

/-- The text of a double inside a message. -/
def messageText (x : Double) : String :=
  if x.isNaN then "NaN"
  else if !x.isFinite then String.ofList (x.signChars ++ ['i', 'n', 'f'])
  else if x.isZero then String.ofList (x.signChars ++ ['0'])
  else String.ofList (x.signChars ++ (x.shortest .upward).positional [])

/-- The characters of a finite double inside JSON. -/
def jsonChars (x : Double) : List Char :=
  if x.isZero then x.signChars ++ ['0', '.', '0']
  else
    let d := x.shortest .toEven
    let e := d.leadingExponent
    x.signChars ++ if -5 ≤ e ∧ e < 16 then d.positional ['.', '0'] else d.scientific

/-- The text of a finite double inside JSON. -/
def jsonText (x : Double) : String := String.ofList x.jsonChars

end Double

end JobDispatch
