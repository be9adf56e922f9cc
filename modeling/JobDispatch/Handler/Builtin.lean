import JobDispatch.Handler.Sleep
import JobDispatch.Handler.Thumbnail

/-!
# The built-in handlers

## Main definitions

* `Surroundings` — what the built-in handlers see: the files, the library of images, and the number that
  is drawn when something is left to chance.
* `HandlerRegistry.builtin` — the handlers `sleep`, `thumbnail` and `word_count`.
-/

namespace JobDispatch

/-- What the built-in handlers see. -/
structure Surroundings where
  files : FileTree := FileTree.empty
  images : Thumbnail.ImageReports
  /-- The number that is drawn when something is left to chance, from zero up to one. -/
  draw : Double := (Double.one).div (Double.ofNat 2)

namespace Surroundings

/-- Sleeps as its payload asks for. -/
def sleep : Handler Surroundings := fun payload w => (Sleep.begin w.draw payload, w)

/-- Counts the words of a file. -/
def wordCount : Handler Surroundings :=
  fun payload w => (HandlerRun.ofExcept (WordCount.run w.files payload), w)

/-- Writes the thumbnail of an image. -/
def thumbnail : Handler Surroundings := fun payload w =>
  match @Thumbnail.make w.images w.files payload with
  | .ok (result, files) => (HandlerRun.ended (.returned result), { w with files := files })
  | .error e => (HandlerRun.ended (.failed e), w)

end Surroundings

namespace HandlerRegistry

/-- **The built-in handlers.** -/
def builtin : HandlerRegistry Surroundings :=
  ((empty.register "sleep" Surroundings.sleep).register "thumbnail" Surroundings.thumbnail).register
    "word_count" Surroundings.wordCount

example : builtin.jobTypes = ["sleep", "thumbnail", "word_count"] := by decide

end HandlerRegistry

end JobDispatch
