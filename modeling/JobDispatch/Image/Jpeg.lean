import JobDispatch.Image.Basic
import JobDispatch.Image.Bytes

/-!
# Reading JPEG files

A JPEG file is a row of segments, each with a marker.  It is read up to the first segment that begins
a scan of the points; the points themselves are not looked at, so a scan that breaks off does not
matter.  Up to there one segment must tell the size of the image, and others must bring the tables
that the scan refers to.

## Main definitions

* `Jpeg.Tables` — what the segments have told so far.
* `Jpeg.Tables.step?` — what a segment tells.
* `Jpeg.read?` — the image that a file holds.
-/

namespace JobDispatch

namespace Jpeg

/-- A component of the points. -/
structure Component where
  id : Nat
  /-- The place of its quantization table. -/
  quantization : Nat

/-- The size of an image and what its points are made of. -/
structure Frame where
  width : Nat
  height : Nat
  components : List Component

/-- What the segments have told so far. -/
structure Tables where
  frame : Option Frame := none
  /-- Whether the points come in several scans, coarse ones first. -/
  progressive : Bool := false
  /-- The places of the quantization tables. -/
  quantization : List Nat := []
  /-- The classes and places of the codes. -/
  codes : List (Nat × Nat) := []

/-- How many tables of one kind there may be. -/
def placeCount : Nat := 4

/-! ### Frames -/

/-- The components that bytes write, three bytes each: a number, two factors that must be powers of
two, and the place of a table. -/
def components? : List UInt8 → Option (List Component)
  | [] => some []
  | id :: factors :: place :: bytes =>
    let isPower (n : Nat) : Bool := [1, 2, 4, 8].contains n
    if isPower (factors.toNat / 16) && isPower (factors.toNat % 16) && place.toNat < placeCount then
      (components? bytes).map (⟨id.toNat, place.toNat⟩ :: ·)
    else none
  | _ => none

/-- The frame that a segment writes: numbers of eight bits, a height and a width, and one, three or
four components. -/
def Frame.ofBytes? (bytes : List UInt8) : Option Frame := do
  let (precision, bytes) ← Bytes.take? 1 bytes
  let (height, bytes) ← Bytes.take? 2 bytes
  let (width, bytes) ← Bytes.take? 2 bytes
  let (count, bytes) ← Bytes.take? 1 bytes
  guard (precision = 8 ∧ height ≠ 0 ∧ width ≠ 0)
  guard (count ∈ [1, 3, 4] ∧ bytes.length = 3 * count)
  return ⟨width, height, ← components? bytes⟩

/-! ### Tables -/

/-- The places of the quantization tables in a segment: after each place come 64 numbers of one or two
bytes. -/
def quantizationPlaces? : Nat → List UInt8 → Option (List Nat)
  | _, [] => some []
  | 0, _ => none
  | count + 1, head :: bytes =>
    let size := 64 * (head.toNat / 16 + 1)
    if head.toNat / 16 ≤ 1 && head.toNat % 16 < placeCount then
      (Bytes.split? size bytes).bind fun p =>
        (quantizationPlaces? count p.2).map (head.toNat % 16 :: ·)
    else none

/-- Whether there is a code with given numbers of words of one bit, two bits, and so on, in which no
word consists of ones. -/
def isCode (counts : List Nat) : Bool :=
  let used := (counts.reverse.dropWhile (· == 0)).reverse
  (used.zipIdx.foldl (fun (next, fine) (count, n) =>
    let next := 2 * next + count
    (next, fine && decide (next < Nat.pow 2 (n + 1)))) (0, true)).2

/-- The most symbols of a code. -/
def maxSymbols : Nat := 256

/-- The classes and places of the codes in a segment: after each come the numbers of words of one to
sixteen bits, and the symbols.  Those of the first class are less than sixteen. -/
def codePlaces? : Nat → List UInt8 → Option (List (Nat × Nat))
  | _, [] => some []
  | 0, _ => none
  | count + 1, head :: bytes => do
    let (counts, bytes) ← Bytes.split? 16 bytes
    let counts := counts.map UInt8.toNat
    let (symbols, bytes) ← Bytes.split? counts.sum bytes
    guard (head.toNat / 16 ≤ 1 ∧ head.toNat % 16 < placeCount ∧ symbols.length ≤ maxSymbols)
    guard (isCode counts ∧ (head.toNat / 16 = 1 ∨ symbols.all (·.toNat < 16)))
    let places ← codePlaces? count bytes
    return (head.toNat / 16, head.toNat % 16) :: places

/-! ### Scans -/

/-- The numbers of the components of a scan, with the places of their codes. -/
def scanComponents? : List UInt8 → Option (List (Nat × Nat × Nat))
  | [] => some []
  | id :: places :: bytes =>
    (scanComponents? bytes).map ((id.toNat, places.toNat / 16, places.toNat % 16) :: ·)
  | _ => none

/-- Whether a segment begins a scan of a frame: it lists components of the frame, each once, and the
part of the points that comes. -/
def Tables.isScan (t : Tables) (frame : Frame) (bytes : List UInt8) : Bool :=
  match bytes with
  | [] => false
  | count :: bytes =>
    let (listed, part) := (bytes.take (2 * count.toNat), bytes.drop (2 * count.toNat))
    match scanComponents? listed, part with
    | some components, [first, last, steps] =>
      let ids := components.map Prod.fst
      components.length == count.toNat && decide (1 ≤ count.toNat ∧ count.toNat ≤ 4)
        && ids.all (fun id => frame.components.any (·.id == id)) && decide ids.Nodup
        && decide (first.toNat < 64 ∧ last.toNat < 64)
        && decide (steps.toNat / 16 ≤ 13 ∧ steps.toNat % 16 ≤ 13)
        && frame.components.all (fun c => t.quantization.contains c.quantization)
        && (t.progressive || components.all fun c =>
          t.codes.contains (0, c.2.1) && t.codes.contains (1, c.2.2))
    | _, _ => false

/-! ### Segments -/

/-- The next marker and what comes after it.  A marker is a byte after one of ones; other bytes, and
fill bytes, are passed over. -/
def nextMarker? : List UInt8 → Option (UInt8 × List UInt8)
  | [] => none
  | [_] => none
  | fill :: marker :: bytes =>
    if fill = 0xFF ∧ marker ≠ 0xFF ∧ marker ≠ 0 then some (marker, bytes)
    else nextMarker? (marker :: bytes)

/-- The content of a segment and what comes after it.  The length that stands before the content
counts itself. -/
def content? (bytes : List UInt8) : Option (List UInt8 × List UInt8) :=
  match Bytes.take? 2 bytes with
  | some (length, bytes) => if 2 ≤ length then Bytes.split? (length - 2) bytes else none
  | none => none

/-- **What a segment tells**, other than the one that begins a scan. -/
def Tables.step? (t : Tables) (marker : UInt8) (content : List UInt8) : Option Tables :=
  match marker.toNat with
  | 0xC0 | 0xC1 | 0xC2 =>
    if t.frame.isSome then none
    else
      (Frame.ofBytes? content).map fun frame =>
        { t with frame := some frame, progressive := marker.toNat == 0xC2 }
  | 0xDB =>
    (quantizationPlaces? content.length content).map fun places =>
      { t with quantization := places ++ t.quantization }
  | 0xC4 =>
    (codePlaces? content.length content).map fun places => { t with codes := places ++ t.codes }
  | 0xDD => if content.length = 2 then some t else none
  | _ => some t

/-- Whether no image can follow a marker: the end of the image, a late height, or another way of
coding. -/
def isRefused (marker : UInt8) : Bool := marker = 0xD9 || marker = 0xDC || marker = 0xCC

/-- The frame whose first scan begins after at most `count` segments. -/
def frame? : Nat → Tables → List UInt8 → Option Frame
  | 0, _, _ => none
  | count + 1, t, bytes => do
    let (marker, bytes) ← nextMarker? bytes
    guard (!isRefused marker)
    let (content, bytes) ← content? bytes
    if marker = 0xDA then
      let frame ← t.frame
      guard (t.isScan frame content)
      return frame
    else
      let t ← t.step? marker content
      frame? count t bytes

/-- **The image that a file holds.** -/
def read? : List UInt8 → Option Image
  | 0xFF :: 0xD8 :: bytes =>
    (frame? bytes.length {} bytes).map fun frame =>
      ⟨frame.width, frame.height, .jpeg, if frame.components.length = 1 then 1 else 3⟩
  | _ => none

end Jpeg

end JobDispatch
