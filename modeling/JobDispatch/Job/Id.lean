import JobDispatch.Json.Token
import JobDispatch.Text.Quoted

/-!
# Job ids

A job is named by 128 bits.  The text of an id is 32 lower-case hexadecimal digits with hyphens after
the eighth, twelfth, sixteenth and twentieth.

## Main definitions

* `JobId` — an id.
* `JobId.text` — its text.
* `JobId.ofChars?` — the id that a text names: hyphenated or plain digits of either case, the
  hyphenated form also in braces or after `urn:uuid:`.
-/

namespace JobDispatch

/-- The name of a job. -/
structure JobId where
  bits : BitVec 128
  deriving DecidableEq, Inhabited

namespace JobId

/-- The id whose bits are all zero. -/
def nil : JobId := ⟨0⟩

/-- The id with the given number. -/
def ofNat (n : Nat) : JobId := ⟨BitVec.ofNat 128 n⟩

/-- The last `count` hexadecimal digits of a number. -/
def hexChars : Nat → Nat → List Char
  | 0, _ => []
  | count + 1, n => hexChars count (n / 16) ++ [Text.hexDigit (n % 16)]

/-- Sets hyphens into 32 digits. -/
def hyphenate (ds : List Char) : List Char :=
  ds.take 8 ++ '-' :: (ds.drop 8).take 4 ++ '-' :: (ds.drop 12).take 4 ++
    '-' :: (ds.drop 16).take 4 ++ '-' :: ds.drop 20

/-- The text of an id. -/
def chars (id : JobId) : List Char := hyphenate (hexChars 32 id.bits.toNat)

/-- The text of an id. -/
def text (id : JobId) : String := String.ofList id.chars

instance : ToString JobId := ⟨text⟩

/-- The number that hexadecimal digits write. -/
def ofHex? (ds : List Char) : Option Nat :=
  ds.foldlM (fun n c => (Json.hexValue? c).map (16 * n + ·)) 0

/-- The id that 32 digits write. -/
def plain? (ds : List Char) : Option JobId :=
  if ds.length = 32 then (ofHex? ds).map ofNat else none

/-- The id that 36 hyphenated digits write. -/
def hyphenated? (s : List Char) : Option JobId :=
  let ds := s.take 8 ++ (s.drop 9).take 4 ++ (s.drop 14).take 4 ++ (s.drop 19).take 4 ++ s.drop 24
  if s.length = 36 ∧ s[8]? = some '-' ∧ s[13]? = some '-' ∧ s[18]? = some '-' ∧ s[23]? = some '-' then
    plain? ds
  else none

/-- What stands before a hyphenated id that is written as a resource name. -/
def resourceMark : List Char := ['u', 'r', 'n', ':', 'u', 'u', 'i', 'd', ':']

/-- **The id that a text names.** -/
def ofChars? (s : List Char) : Option JobId :=
  if s.length = 32 then plain? s
  else if s.length = 36 then hyphenated? s
  else if s.length = 38 ∧ s.head? = some '\x7b' ∧ s.getLast? = some '\x7d' then
    hyphenated? (s.drop 1).dropLast
  else if s.length = 45 ∧ Numeral.lowered (s.take 9) = resourceMark then hyphenated? (s.drop 9)
  else none

/-- The id that a text names. -/
def ofText? (s : String) : Option JobId := ofChars? s.toList

end JobId

end JobDispatch
