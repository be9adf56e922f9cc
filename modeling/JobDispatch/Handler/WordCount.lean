import JobDispatch.Handler.Basic
import JobDispatch.Text.Blank

/-!
# Counting words

The handler `word_count` counts the words, lines and characters of a text file.

## Main definitions

* `WordCount.Counts.of` — the counts of a text.
* `WordCount.run` — the result for a payload.
-/

namespace JobDispatch

namespace WordCount

/-- How many words, lines and characters a text has. -/
structure Counts where
  words : Nat
  lines : Nat
  chars : Nat
  deriving DecidableEq

/-- The counts of two texts together. -/
instance : Add Counts := ⟨fun a b => ⟨a.words + b.words, a.lines + b.lines, a.chars + b.chars⟩⟩

/-- Whether the last line of a text has no end. -/
def isUnterminated (s : List Char) : Bool := !s.isEmpty && s.getLast? != some '\n'

/-- **The counts of a text.**  Words are the maximal runs of characters that are not blank; a last
line without an end counts as a line. -/
def Counts.of (s : List Char) : Counts where
  words := (Text.words s).length
  lines := s.count '\n' + if isUnterminated s then 1 else 0
  chars := s.length

/-- The path that a payload names under a key; an empty one names nothing. -/
def path? (payload : Json) (key : String) : Option String :=
  match payload.field? key with
  | some (.string path) => if path.isEmpty then none else some path
  | _ => none

/-- The result for a payload. -/
def run (files : FileTree) (payload : Json) : Except HandlerError Json :=
  match path? payload "file_path" with
  | none => .error (.invalidPayload "Missing 'file_path' in payload")
  | some path =>
    match files.readText path.toList with
    | .error e => .error (.file e)
    | .ok text =>
      let counts := Counts.of text.toList
      .ok (Json.ofFields
        [("file_path", .string path),
         ("word_count", Json.ofNat counts.words),
         ("line_count", Json.ofNat counts.lines),
         ("char_count", Json.ofNat counts.chars)])

end WordCount

end JobDispatch
