import JobDispatch.Image.Basic
import JobDispatch.Image.Deflate
import JobDispatch.Image.Png.Chunk
import JobDispatch.Image.Png.Header

/-!
# Reading PNG files

A PNG file is read up to the end of its image data.  Of the chunks before the data those with a wrong
checksum or of an unknown name are passed over, unless they are critical.  What comes after the data
is not looked at, but another chunk must at least begin there.

A file may hold several frames.  The data of the first is that of the image; it may stand in chunks
for frames, which are numbered, if no other data comes before.

## Main definitions

* `Png.Preamble` — what is known when the data begins.
* `Png.Preamble.step?` — what a chunk before the data tells.
* `Png.dataOf?` — the compressed data of the image.
* `Png.read?` — the image that a file holds.
-/

namespace JobDispatch

namespace Png

/-- What is known when the data begins. -/
structure Preamble where
  header : Header
  /-- The size of the palette in bytes. -/
  palette : Option Nat := none
  /-- Whether some points are transparent. -/
  transparent : Bool := false
  /-- The number of the last chunk that describes a frame. -/
  frame : Option Nat := none

namespace Preamble

/-- Whether a number of bytes can tell what is transparent: an amount of grey, three colours, or a row
for a palette that came before. -/
def takesTransparency (p : Preamble) (size : Nat) : Bool :=
  match p.header.colour with
  | .grey => decide (2 ≤ size)
  | .full => decide (6 ≤ size)
  | .indexed => p.palette.isSome
  | _ => false

/-- The number of the next chunk that describes or holds a frame. -/
def nextFrame (p : Preamble) : Nat :=
  match p.frame with
  | none => 0
  | some n => n + 1

/-- The number of a chunk that describes a frame.  Before the data this must be a frame of the size of
the image; it has a time, which may be anything, and tells how it is removed and how it is drawn. -/
def frame? (p : Preamble) (bytes : List UInt8) : Option Nat := do
  let (number, bytes) ← Bytes.take? 4 bytes
  let (width, bytes) ← Bytes.take? 4 bytes
  let (height, bytes) ← Bytes.take? 4 bytes
  let (column, bytes) ← Bytes.take? 4 bytes
  let (row, bytes) ← Bytes.take? 4 bytes
  let (_, bytes) ← Bytes.take? 4 bytes
  let (removal, bytes) ← Bytes.take? 1 bytes
  let (drawing, _) ← Bytes.take? 1 bytes
  guard (number = p.nextFrame ∧ width = p.header.width ∧ height = p.header.height ∧ column = 0
    ∧ row = 0 ∧ removal ≤ 2 ∧ drawing ≤ 1)
  return number

/-- **What a chunk before the data tells.**  Only one palette may come, and no critical chunk of
another name. -/
def step? (p : Preamble) (c : Chunk) : Option Preamble :=
  if !c.intact then
    if c.isCritical then none else some p
  else
    match c.name with
    | "PLTE" => if p.palette.isSome then none else some { p with palette := some c.content.length }
    | "tRNS" =>
      some { p with transparent := p.transparent || p.takesTransparency c.content.length }
    | "fcTL" => (p.frame? c.content).map fun n => { p with frame := some n }
    | _ => if c.isCritical then none else some p

/-- Whether the points of the image mean something: a palette is needed only if they are places in
it; it has three bytes for each of at most 256 colours. -/
def hasColours (p : Preamble) : Bool :=
  match p.header.colour, p.palette with
  | .indexed, some size => size % 3 == 0 && decide (size ≤ 3 * 256)
  | .indexed, none => false
  | _, _ => true

/-- The image that a file with this preamble holds. -/
def image (p : Preamble) : Image where
  width := p.header.width
  height := p.header.height
  format := .png
  pointSize := p.header.colour.channels p.transparent * (if p.header.depth = 16 then 2 else 1)

end Preamble

/-- The data in chunks for frames, which have numbers from `n` on. -/
def frameData? (n : Nat) : List Chunk → Option (List UInt8)
  | [] => some []
  | c :: chunks =>
    match Bytes.take? 4 c.content with
    | some (number, data) => if number = n then (frameData? (n + 1) chunks).map (data ++ ·) else none
    | none => none

/-- **The compressed data of the image**, from the chunks that begin with the data and the bytes after
the last whole chunk: the contents of all data chunks of one name up to where another chunk begins. -/
def dataOf? (p : Preamble) (chunks : List Chunk) (rest : List UInt8) : Option (List UInt8) :=
  match chunks with
  | [] => none
  | first :: _ =>
    let data := chunks.takeWhile fun c => c.name == first.name
    let next := ((chunks.drop data.length).head?.map Chunk.name).or (Chunk.nextName? rest)
    if next.all (· == first.name) || data.any (fun c => !c.intact) then none
    else if first.name == "IDAT" then some (data.flatMap Chunk.content)
    else if p.frame.isSome then frameData? p.nextFrame data
    else none

/-- The bytes that every PNG file begins with. -/
def signature : List UInt8 := [0x89, 0x50, 0x4E, 0x47, 0x0D, 0x0A, 0x1A, 0x0A]

/-- **The image that a file holds.** -/
def read? (bytes : List UInt8) : Option Image := do
  let (start, bytes) ← Bytes.split? signature.length bytes
  guard (start = signature)
  let (chunks, rest) := Chunk.all bytes
  let first ← chunks.head?
  guard (first.name = "IHDR" ∧ first.intact)
  let header ← Header.ofBytes? first.content
  let (before, data) := chunks.tail.span fun c => !c.isData
  let preamble ← before.foldlM Preamble.step? ⟨header, none, false, none⟩
  let compressed ← dataOf? preamble data rest
  let points ← Deflate.inflate? compressed
  let _ ← header.rowsEnd? points
  guard preamble.hasColours
  return preamble.image

end Png

end JobDispatch
