import JobDispatch.Handler.WordCount
import JobDispatch.Number.Numeral

/-!
# Thumbnails

The handler `thumbnail` writes an image that fits into a box and has the proportions of the image it
is made from.

## Main definitions

* `Thumbnail.defaultOutputPath` — where a thumbnail goes unless its payload says so.
* `Thumbnail.fit` — the size of a thumbnail.
* `Thumbnail.ImageReports` — what the library of images says when it fails.
* `Thumbnail.run` — the result for a payload, and the files after it.
-/

namespace JobDispatch

namespace Thumbnail

/-- The side of the box unless the payload gives one. -/
def defaultSide : Nat := 128

/-- The longest side of a box. -/
def maxSide : Nat := Nat.pow 2 32 - 1

/-- A side of the box; one that is missing or null is the default. -/
def side (payload : Json) (key : String) : Except HandlerError Nat :=
  match payload.field? key with
  | none => .ok defaultSide
  | some .null => .ok defaultSide
  | some v =>
    match v.nat? with
    | some n =>
      if 0 < n ∧ n ≤ maxSide then .ok n
      else .error (.invalidPayload ("'" ++ key ++ "' must be a positive integer"))
    | none => .error (.invalidPayload ("'" ++ key ++ "' must be a positive integer"))

/-- The file name of the thumbnail of a file: `_thumb` comes before the extension. -/
def nameOf (name : List Char) : List Char :=
  let mark := ['_', 't', 'h', 'u', 'm', 'b']
  match Path.splitName name with
  | (stem, some ext) => stem ++ mark ++ '.' :: ext
  | (stem, none) => stem ++ mark

/-- **Where a thumbnail goes unless its payload says so**: into the directory of the image. -/
def defaultOutputPath (inputPath : String) : String :=
  let path := inputPath.toList
  String.ofList (Path.withFileName path (nameOf ((Path.fileName? path).getD [])))

/-- The extensions that name a format. -/
def formats : List (String × ImageFormat) :=
  [("png", .png), ("apng", .png), ("jpg", .jpeg), ("jpeg", .jpeg), ("jfif", .jpeg)]

/-- The format that the extension of a path names, in capitals or not. -/
def formatOf? (path : List Char) : Option ImageFormat :=
  match (Path.extension? path).map Numeral.lowered with
  | some extension => (formats.find? fun f => f.1.toList == extension).map Prod.snd
  | none => none

/-- A side scaled and rounded to the nearest whole number, half away from zero, and at least one. -/
def scaledSide (n : Nat) (ratio : Double) : Nat :=
  max 1 ((2 * ((Double.ofNat n).mul ratio).units + Double.unitsPerOne) / (2 * Double.unitsPerOne))

/-- **The size of a thumbnail**: the largest with the proportions of the image that fits into the
box, also if the image is smaller than the box. -/
def fit (width height boxWidth boxHeight : Nat) : Nat × Nat :=
  let horizontal := (Double.ofNat boxWidth).div (Double.ofNat width)
  let vertical := (Double.ofNat boxHeight).div (Double.ofNat height)
  let ratio := if vertical.lessThan horizontal then vertical else horizontal
  (scaledSide width ratio, scaledSide height ratio)

/-- The most bytes that the points of an image to be read may take. -/
def maxReadBytes : Nat := Nat.pow 2 29

/-- The number of bytes that is too large for any memory. -/
def endOfMemory : Nat := Nat.pow 2 63

/-- Whether a format can hold an image: the sides of a JPEG are numbers of 16 bits. -/
def canHold (format : ImageFormat) (width height : Nat) : Bool :=
  match format with
  | .png => true
  | .jpeg => decide (width < Nat.pow 2 16 ∧ height < Nat.pow 2 16)

/-- What the library of images says when it fails.  The texts are its own, and may depend on anything
that it has seen. -/
class ImageReports where
  /-- About an image that it could not read from a path. -/
  unreadable : FileTree → String → String
  /-- About an image that it could not write to a path. -/
  unwritable : FileTree → String → Image → String

variable [ImageReports]

/-- The image at a path, if it has the format that the path names and is not too large. -/
def readImage (files : FileTree) (path : String) : Except HandlerError Image :=
  let unreadable := HandlerError.failed (ImageReports.unreadable files path)
  match formatOf? path.toList, files.read path.toList with
  | some format, .ok content =>
    match content.image? format with
    | some image => if image.byteCount ≤ maxReadBytes then .ok image else .error unreadable
    | none => .error unreadable
  | _, _ => .error unreadable

/-- The files with an image at a path, in the format that the path names, if there is memory for it
and the format can hold it. -/
def writeImage (files : FileTree) (path : String) (image : Image) : Except HandlerError FileTree :=
  let unwritable := HandlerError.failed (ImageReports.unwritable files path image)
  match formatOf? path.toList with
  | none => .error unwritable
  | some format =>
    if image.byteCount < endOfMemory ∧ canHold format image.width image.height then
      match files.write path.toList (.image { image with format }) with
      | .ok files => .ok files
      | .error _ => .error unwritable
    else .error unwritable

/-- A size as it is returned. -/
def sizeValue (width height : Nat) : Json := .array [Json.ofNat width, Json.ofNat height]

/-- The result for a payload, and the files after it. -/
def make (files : FileTree) (payload : Json) : Except HandlerError (Json × FileTree) := do
  let some inputPath := WordCount.path? payload "input_path"
    | throw (.invalidPayload "Missing 'input_path' in payload")
  let outputPath := (WordCount.path? payload "output_path").getD (defaultOutputPath inputPath)
  let boxWidth ← side payload "width"
  let boxHeight ← side payload "height"
  match files.resolve inputPath.toList with
  | .error e => throw (.file e)
  | .ok _ => pure ()
  let image ← readImage files inputPath
  let size := fit image.width image.height boxWidth boxHeight
  let files ← writeImage files outputPath (image.resized size)
  return (Json.ofFields
    [("input_path", .string inputPath),
     ("output_path", .string outputPath),
     ("original_size", sizeValue image.width image.height),
     ("thumbnail_size", sizeValue size.1 size.2)], files)

end Thumbnail

end JobDispatch
