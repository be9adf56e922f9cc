import JobDispatch.Json.Document
import JobDispatch.Json.Value

/-!
# Reading JSON

What a document means: the characters of its strings, the numbers of its digits, and its value,
provided that arrays and objects are not nested too deep.

A number that has a point or an exponent, or too many digits for 64 bits, is read as a double in two
roundings: the leading digits that fit into 64 bits are rounded to a double, and that is multiplied
or divided by a power of ten.

A reader may be built with the option `raw_value`, even if only another part of the program asks for it.
Then an object whose first field has a certain name stands for the value that a text writes.  The text
is the string in that field, which must be the only one; it is read for itself, so its nesting counts from
its own beginning.  Without the option it is an object like any other.

## Main definitions

* `Dialect` — whether the reader is built with that option.
* `Document.maxDepth` — how deep arrays and objects may be nested.
* `WrittenNumber.value?` — the number that digits mean.
* `Document.isEmbedding` — whether an object stands for the value of a text.
* `Document.value?` — the value of a document.
* `Json.ofText?` — the value that a text writes.

## Main results

* `Document.textValue?_succ` — with more levels a text keeps its value.
-/

namespace JobDispatch

namespace Json

/-! ### Strings -/

/-- The characters of a string.  A code unit that is the first half of a pair must be followed by a
second half, and no second half may stand alone. -/
def decodePieces? : List Piece → Option (List Char)
  | [] => some []
  | .char c :: ps => (decodePieces? ps).map (c :: ·)
  | .unit n :: ps =>
    if 0xD800 ≤ n ∧ n < 0xDC00 then
      match ps with
      | .unit m :: rest =>
        if 0xDC00 ≤ m ∧ m < 0xE000 then
          (decodePieces? rest).map
            (Char.ofNat (0x10000 + (n - 0xD800) * 0x400 + (m - 0xDC00)) :: ·)
        else none
      | _ => none
    else if 0xDC00 ≤ n ∧ n < 0xE000 then none
    else (decodePieces? ps).map (Char.ofNat n :: ·)

/-! ### Numbers -/

/-- The largest number of 64 bits. -/
def maxNat64 : Nat := Nat.pow 2 64 - 1

/-- Takes up the digits before the point while the number has 64 bits; gives it and how many digits
are left over. -/
def takeWhole (n : Nat) : List Char → Nat × Nat
  | [] => (n, 0)
  | c :: cs =>
    let m := 10 * n + Numeral.digitValue c
    if m ≤ maxNat64 then takeWhole m cs else (n, cs.length + 1)

/-- Takes up digits after the point while the number has 64 bits; gives it and how many digits were
taken. -/
def takeFraction (n : Nat) : List Char → Nat × Nat
  | [] => (n, 0)
  | c :: cs =>
    let m := 10 * n + Numeral.digitValue c
    if m ≤ maxNat64 then
      let (k, taken) := takeFraction m cs
      (k, taken + 1)
    else (n, 0)

/-- The largest power of ten among doubles is `10 ^ 308`. -/
def maxPowerOfTen : Nat := 308

/-- A double divided by `10 ^ n`, in steps of at most `10 ^ 308`. -/
def divPowerOfTen (x : Double) (n : Nat) : Double :=
  if n ≤ maxPowerOfTen then x.div (Double.ofNat (Nat.pow 10 n))
  else if x.isZero then x
  else divPowerOfTen (x.div (Double.ofNat (Nat.pow 10 maxPowerOfTen))) (n - maxPowerOfTen)
termination_by n
decreasing_by
  simp_all [maxPowerOfTen]
  omega

/-- A double multiplied by `10 ^ n`; nothing if that is too large. -/
def mulPowerOfTen? (x : Double) (n : Nat) : Option Double :=
  if n ≤ maxPowerOfTen then
    let y := x.mul (Double.ofNat (Nat.pow 10 n))
    if y.isFinite then some y else none
  else if x.isZero then some x
  else none

/-- The double for `n * 10 ^ exponent`: `n` is rounded first, then scaled. -/
def scaled? (negative : Bool) (n : Nat) (exponent : Int) : Option Double :=
  let x := Double.ofNat n
  let y := if 0 ≤ exponent then mulPowerOfTen? x exponent.toNat
    else some (divPowerOfTen x exponent.natAbs)
  y.map fun y => if negative then y.neg else y

/-- **The number that digits mean.**  Whole numbers of 64 bits stay whole, except minus zero. -/
def WrittenNumber.value? (w : WrittenNumber) : Option JsonNumber :=
  let (n, extra) := takeWhole 0 w.whole
  if w.fraction.isEmpty && w.exponent.isNone && extra == 0 then
    if !w.negative then some (.int n)
    else if 0 < n ∧ n ≤ Nat.pow 2 63 then some (.int (-(n : Int)))
    else some (.double (Double.ofNat n).neg)
  else
    let (n, taken) := takeFraction n w.fraction
    (scaled? w.negative n ((extra : Int) - taken + w.exponent.getD 0)).map .double

/-! ### Values -/

/-- What a reader makes of objects. -/
class Dialect where
  /-- Whether it is built with the option `raw_value`, by which some objects stand for the value of a
  text. -/
  embeds : Bool

/-- The reader with which the whole program is built: its database part asks for the option. -/
instance Dialect.built : Dialect := ⟨true⟩

section Reading

variable [Dialect]

namespace Document

/-- How deep arrays and objects may be nested within one text. -/
def maxDepth : Nat := 127

/-- The name of the first field of an object that stands for the value of a text. -/
def embeddingName : String := "$serde_json::private::RawValue"

/-- Whether an object with some fields stands for the value of a text. -/
def isEmbedding : List (List Piece × Document) → Bool
  | [] => false
  | (name, _) :: _ => Dialect.embeds && decodePieces? name == some embeddingName.toList

/-- The text of such an object: the string in its only field. -/
def embeddedText? : List (List Piece × Document) → Option (List Char)
  | [(_, .string s)] => decodePieces? s
  | _ => none

mutual

/-- The value of a document in which arrays and objects are nested at most `room` deep, and texts
have the values that `embedded` gives.  Of fields with one name the last counts. -/
def valueWith? (embedded : List Char → Option Json) (room : Nat) : Document → Option Json
  | .null => some .null
  | .bool b => some (.bool b)
  | .number n => n.value?.map .number
  | .string s => (decodePieces? s).map fun cs => .string (String.ofList cs)
  | .array items =>
    if room = 0 then none else (itemsValue? embedded (room - 1) items).map .array
  | .object fields =>
    if room = 0 then none
    else if isEmbedding fields then (embeddedText? fields).bind embedded
    else (fieldsValue? embedded (room - 1) fields).map ofFields

/-- The values of all items. -/
def itemsValue? (embedded : List Char → Option Json) (room : Nat) :
    List Document → Option (List Json)
  | [] => some []
  | v :: vs =>
    match valueWith? embedded room v, itemsValue? embedded room vs with
    | some v, some vs => some (v :: vs)
    | _, _ => none

/-- The names and values of all fields. -/
def fieldsValue? (embedded : List Char → Option Json) (room : Nat) :
    List (List Piece × Document) → Option (List (String × Json))
  | [] => some []
  | (name, v) :: fs =>
    match decodePieces? name, valueWith? embedded room v, fieldsValue? embedded room fs with
    | some name, some v, some fs => some ((String.ofList name, v) :: fs)
    | _, _, _ => none

end

/-- The value that a text writes, with fewer than `levels` texts around one another in it. -/
def textValue? : Nat → List Char → Option Json
  | 0, _ => none
  | levels + 1, s => (ofChars? s).bind (valueWith? (textValue? levels) maxDepth)

/-- **The value of a document** in which arrays and objects are nested at most `room` deep.  A text
is longer than the texts in it, so it has at most as many levels as characters. -/
def value? (room : Nat) (d : Document) : Option Json :=
  d.valueWith? (fun s => textValue? (s.length + 1) s) room

mutual

/-- A document keeps its value when texts get values that had none. -/
theorem valueWith?_mono {f g : List Char → Option Json} (h : ∀ s v, f s = some v → g s = some v)
    {room : Nat} {v : Json} : ∀ d : Document, valueWith? f room d = some v → valueWith? g room d = some v
  | .null, e | .bool _, e | .number _, e | .string _, e => by simpa only [valueWith?] using e
  | .array items, e => by
    rw [valueWith?] at e ⊢
    split at e
    · exact absurd e (by simp)
    · next hr =>
      obtain ⟨vs, hv, rfl⟩ := Option.map_eq_some_iff.mp e
      rw [if_neg hr, itemsValue?_mono h items hv, Option.map_some]
  | .object fields, e => by
    rw [valueWith?] at e ⊢
    split at e
    · exact absurd e (by simp)
    · next hr =>
      rw [if_neg hr]
      split at e
      · next he =>
        obtain ⟨s, hs, hv⟩ := Option.bind_eq_some_iff.mp e
        rw [if_pos he, hs, Option.bind_some, h s v hv]
      · next he =>
        obtain ⟨fs, hf, rfl⟩ := Option.map_eq_some_iff.mp e
        rw [if_neg he, fieldsValue?_mono h fields hf, Option.map_some]

/-- Items keep their values when texts get values that had none. -/
theorem itemsValue?_mono {f g : List Char → Option Json} (h : ∀ s v, f s = some v → g s = some v)
    {room : Nat} : ∀ (items : List Document) {vs : List Json},
      itemsValue? f room items = some vs → itemsValue? g room items = some vs
  | [], _, e => e
  | d :: ds, vs, e => by
    rw [itemsValue?] at e ⊢
    split at e
    · next hv hvs =>
      rw [valueWith?_mono h d hv, itemsValue?_mono h ds hvs]
      exact e
    · exact absurd e (by simp)

/-- Fields keep their values when texts get values that had none. -/
theorem fieldsValue?_mono {f g : List Char → Option Json} (h : ∀ s v, f s = some v → g s = some v)
    {room : Nat} : ∀ (fields : List (List Piece × Document)) {fs : List (String × Json)},
      fieldsValue? f room fields = some fs → fieldsValue? g room fields = some fs
  | [], _, e => e
  | (name, d) :: rest, fs, e => by
    rw [fieldsValue?] at e ⊢
    split at e
    · next hn hv hf =>
      rw [hn, valueWith?_mono h d hv, fieldsValue?_mono h rest hf]
      exact e
    · exact absurd e (by simp)

end

/-- **With more levels a text keeps its value.** -/
theorem textValue?_succ : ∀ (levels : Nat) (s : List Char) (v : Json),
    textValue? levels s = some v → textValue? (levels + 1) s = some v
  | 0, _, _, e => absurd e (by simp [textValue?])
  | levels + 1, s, v, e => by
    rw [textValue?] at e ⊢
    obtain ⟨d, hd, hv⟩ := Option.bind_eq_some_iff.mp e
    rw [hd, Option.bind_some]
    exact valueWith?_mono (textValue?_succ levels) d hv

end Document

/-- **The value that a text writes.** -/
def ofText? (s : String) : Option Json :=
  (Document.ofChars? s.toList).bind (Document.value? Document.maxDepth)

end Reading

end Json

end JobDispatch
