import JobDispatch.Json.Value
import JobDispatch.Number.Layout
import JobDispatch.Text.Quoted

/-!
# Writing JSON

The compact written form: no blanks, the fields of an object in their order, and an escape in a
string only where one is needed.

## Main definitions

* `Json.stringChars` — a string between double quotes.
* `Json.chars` — the written form of a value.
* `Json.recordChars` — an object with given fields in the given order, whatever their names.
-/

namespace JobDispatch

namespace Json

/-- The escape of a control character by its number. -/
def controlEscape (n : Nat) : List Char :=
  ['\\', 'u', '0', '0', Text.hexDigit (n / 16), Text.hexDigit (n % 16)]

/-- The form of one character inside a string. -/
def stringChar (c : Char) : List Char :=
  if c = '"' then ['\\', '"']
  else if c = '\\' then ['\\', '\\']
  else if c = '\n' then ['\\', 'n']
  else if c = '\r' then ['\\', 'r']
  else if c = '\t' then ['\\', 't']
  else if c = '\x08' then ['\\', 'b']
  else if c = '\x0c' then ['\\', 'f']
  else if c.toNat < 0x20 then controlEscape c.toNat
  else [c]

/-- A string between double quotes. -/
def stringChars (s : String) : List Char := '"' :: s.toList.flatMap stringChar ++ ['"']

/-- A whole number in decimal digits. -/
def intChars (i : Int) : List Char :=
  if i < 0 then '-' :: Nat.toDigits 10 i.natAbs else Nat.toDigits 10 i.natAbs

/-- A double; one that is not finite has no number and is written as null. -/
def doubleChars (x : Double) : List Char :=
  if x.isFinite then x.jsonChars else ['n', 'u', 'l', 'l']

/-- A number. -/
def numberChars : JsonNumber → List Char
  | .int i => intChars i
  | .double x => doubleChars x

mutual

/-- **The written form of a value.** -/
def chars : Json → List Char
  | .null => ['n', 'u', 'l', 'l']
  | .bool true => ['t', 'r', 'u', 'e']
  | .bool false => ['f', 'a', 'l', 's', 'e']
  | .number n => numberChars n
  | .string s => stringChars s
  | .array [] => ['[', ']']
  | .array (v :: vs) => '[' :: (chars v ++ itemsChars vs)
  | .object [] => ['\x7b', '\x7d']
  | .object ((n, v) :: fs) => '\x7b' :: (stringChars n ++ ':' :: (chars v ++ fieldsChars fs))

/-- The items after the first, and the closing bracket. -/
def itemsChars : List Json → List Char
  | [] => [']']
  | v :: vs => ',' :: (chars v ++ itemsChars vs)

/-- The fields after the first, and the closing brace. -/
def fieldsChars : List (String × Json) → List Char
  | [] => ['\x7d']
  | (n, v) :: fs => ',' :: (stringChars n ++ ':' :: (chars v ++ fieldsChars fs))

end

/-- The written form of a value. -/
def text (v : Json) : String := String.ofList v.chars

/-- A field of a record, with the written form of its value. -/
def memberChars (f : String × List Char) : List Char := stringChars f.1 ++ ':' :: f.2

/-- An object whose fields stand in the given order, from the written forms of their values. -/
def recordChars : List (String × List Char) → List Char
  | [] => ['\x7b', '\x7d']
  | f :: fs => '\x7b' :: (memberChars f ++ fs.flatMap (fun g => ',' :: memberChars g) ++ ['\x7d'])

/-- An array from the written forms of its items. -/
def arrayChars : List (List Char) → List Char
  | [] => ['[', ']']
  | v :: vs => '[' :: (v ++ vs.flatMap (fun w => ',' :: w) ++ [']'])

@[simp] theorem chars_null : chars .null = ['n', 'u', 'l', 'l'] := by rw [chars]

@[simp] theorem chars_number (n : JsonNumber) : chars (.number n) = numberChars n := by rw [chars]

@[simp] theorem chars_string (s : String) : chars (.string s) = stringChars s := by rw [chars]

end Json

end JobDispatch
