import JobDispatch.Image.Bytes

/-!
# The header of a PNG file

The first chunk tells the size of the image, what its points are made of, and the order in which its
rows come: from top to bottom, or in seven passes, each over some rows and columns.

## Main definitions

* `Png.Colour` — what the points are made of.
* `Png.Header` — the header.
* `Png.Header.ofBytes?` — the header that bytes write.
* `Png.Header.passes` — the sizes of the parts that the rows make up, in their order.
* `Png.Header.rowsEnd?` — whether bytes hold all rows.
-/

namespace JobDispatch

namespace Png

/-- What the points of an image are made of. -/
inductive Colour
  | grey
  | full
  /-- A place in a palette. -/
  | indexed
  | greyAlpha
  | fullAlpha
  deriving DecidableEq

namespace Colour

/-- The number that stands for what the points are made of. -/
def ofNumber? : Nat → Option Colour
  | 0 => some .grey
  | 2 => some .full
  | 3 => some .indexed
  | 4 => some .greyAlpha
  | 6 => some .fullAlpha
  | _ => none

/-- How many numbers a point is written with. -/
def samples : Colour → Nat
  | .grey => 1
  | .full => 3
  | .indexed => 1
  | .greyAlpha => 2
  | .fullAlpha => 4

/-- How many bits such a number may have. -/
def depths : Colour → List Nat
  | .grey => [1, 2, 4, 8, 16]
  | .indexed => [1, 2, 4, 8]
  | _ => [8, 16]

/-- How many numbers a point has in memory, where places in a palette have become colours and one
may have been added for transparency. -/
def channels (transparent : Bool) : Colour → Nat
  | .grey => if transparent then 2 else 1
  | .full => if transparent then 4 else 3
  | .indexed => if transparent then 4 else 3
  | .greyAlpha => 2
  | .fullAlpha => 4

end Colour

/-- The header of a PNG file. -/
structure Header where
  width : Nat
  height : Nat
  depth : Nat
  colour : Colour
  /-- Whether the rows come in seven passes. -/
  interlaced : Bool

namespace Header

/-- **The header that bytes write**: width and height in four bytes each, then five numbers of one
byte, the third and fourth of which must be zero.  More bytes are ignored. -/
def ofBytes? (bytes : List UInt8) : Option Header := do
  let (width, bytes) ← Bytes.take? 4 bytes
  let (height, bytes) ← Bytes.take? 4 bytes
  guard (width ≠ 0 ∧ height ≠ 0)
  let (depth, bytes) ← Bytes.take? 1 bytes
  let (colour, bytes) ← Bytes.take? 1 bytes
  let colour ← Colour.ofNumber? colour
  guard (depth ∈ colour.depths)
  let (compression, bytes) ← Bytes.take? 1 bytes
  let (filters, bytes) ← Bytes.take? 1 bytes
  let (order, _) ← Bytes.take? 1 bytes
  guard (compression = 0 ∧ filters = 0 ∧ order ≤ 1)
  return ⟨width, height, depth, colour, order == 1⟩

/-- The bytes that a row of a given width takes, without the one for its filter. -/
def rowBytes (h : Header) (width : Nat) : Nat := (width * h.colour.samples * h.depth + 7) / 8

/-- Where each pass begins and how far apart its columns and rows are: first column, first row,
distance of columns, distance of rows. -/
def sevenPasses : List (Nat × Nat × Nat × Nat) :=
  [(0, 0, 8, 8), (4, 0, 8, 8), (0, 4, 4, 8), (2, 0, 4, 4), (0, 2, 2, 4), (1, 0, 2, 2), (0, 1, 1, 2)]

/-- How many of `0`, …, `n - 1` are `first` or a multiple of `distance` above it. -/
def countFrom (n first distance : Nat) : Nat := (n - first + (distance - 1)) / distance

/-- **The widths and heights of the parts that the rows make up**, in their order, without empty
ones. -/
def passes (h : Header) : List (Nat × Nat) :=
  if h.interlaced then
    (sevenPasses.map fun p =>
      (countFrom h.width p.1 p.2.2.1, countFrom h.height p.2.1 p.2.2.2)).filter
        fun p => p.1 != 0 && p.2 != 0
  else [(h.width, h.height)]

/-- The number of filters. -/
def filterCount : Nat := 5

/-- Where the rows of a pass end in bytes, if they begin at a place, are all there, and each begins
with the number of a filter. -/
def passEnd? (h : Header) (bytes : ByteArray) (start : Nat) (pass : Nat × Nat) : Option Nat :=
  let length := h.rowBytes pass.1 + 1
  let stop := start + pass.2 * length
  let isRow (n : Nat) : Bool :=
    match bytes[start + n * length]? with
    | some filter => filter.toNat < filterCount
    | none => false
  if stop ≤ bytes.size then
    if (List.range pass.2).all isRow then some stop else none
  else none

/-- **Where the rows of an image end in bytes**, if they are all there. -/
def rowsEnd? (h : Header) (bytes : ByteArray) : Option Nat := h.passes.foldlM (h.passEnd? bytes) 0

@[simp] theorem passes_of_not_interlaced {h : Header} (hi : h.interlaced = false) :
    h.passes = [(h.width, h.height)] := by
  simp [passes, hi]

end Header

end Png

end JobDispatch
