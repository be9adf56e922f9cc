import JobDispatch.Image.Jpeg
import JobDispatch.Image.Png.Reader

/-!
# Reading images

## Main definitions

* `Image.ofBytes?` — the image that the bytes of a file hold.
-/

namespace JobDispatch

/-- **The image that the bytes of a file hold**, if they have the given format. -/
def Image.ofBytes? : ImageFormat → List UInt8 → Option Image
  | .png => Png.read?
  | .jpeg => Jpeg.read?

@[simp] theorem Image.ofBytes?_png : Image.ofBytes? .png = Png.read? := rfl

@[simp] theorem Image.ofBytes?_jpeg : Image.ofBytes? .jpeg = Jpeg.read? := rfl

end JobDispatch
