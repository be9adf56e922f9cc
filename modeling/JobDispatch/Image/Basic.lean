/-!
# Images

Of an image only its size, its format and the room that its points take matter here; what its points
look like does not.

## Main definitions

* `ImageFormat` — the formats of image files.
* `Image` — an image.
* `Image.byteCount` — the bytes that its points take in memory.
-/

namespace JobDispatch

/-- The format of an image. -/
inductive ImageFormat
  | png
  | jpeg
  deriving DecidableEq

/-- An image, by its size and format. -/
structure Image where
  width : Nat
  height : Nat
  format : ImageFormat
  /-- The bytes that a point takes in memory: three colours, unless something else is said. -/
  pointSize : Nat := 3
  deriving DecidableEq

namespace Image

/-- The bytes that the points of an image take in memory. -/
def byteCount (i : Image) : Nat := i.pointSize * i.width * i.height

/-- The image in another size. -/
def resized (i : Image) (size : Nat × Nat) : Image := { i with width := size.1, height := size.2 }

@[simp] theorem byteCount_resized (i : Image) (size : Nat × Nat) :
    (i.resized size).byteCount = i.pointSize * size.1 * size.2 := rfl

end Image

end JobDispatch
