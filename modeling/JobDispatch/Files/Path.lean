/-!
# Paths

A path is a text whose components are separated by slashes.  Components that are empty or a single
dot say nothing, except at the start, where an empty component stands for the root and a dot for the
current directory.

## Main definitions

* `Path.segments` — the parts between the slashes.
* `Path.byteLength` — how many bytes a path or a part of it takes.
* `Path.fileName?` — the last component, if it names a file.
* `Path.splitName` — a file name without its extension, and its extension.
* `Path.withFileName` — a path with another file name in the same directory.

## Main results

* `Path.joined_segments` — slashes between the parts of a path give the path back.
* `Path.eq_of_splitName` — a stem, a dot and an extension give the file name back.
-/

namespace JobDispatch

namespace Path

/-- The parts between the slashes; a text without slashes is one part. -/
def segments : List Char → List (List Char)
  | [] => [[]]
  | c :: s =>
    if c = '/' then [] :: segments s
    else match segments s with
      | [] => [[c]]
      | part :: rest => (c :: part) :: rest

/-- How many bytes a path or a part of it takes. -/
def byteLength (s : List Char) : Nat := (String.ofList s).utf8ByteSize

/-- Parts with slashes between them. -/
def joined : List (List Char) → List Char
  | [] => []
  | [part] => part
  | part :: rest => part ++ '/' :: joined rest

/-- Whether a part after the first says nothing. -/
def isIdle (part : List Char) : Bool := part == [] || part == ['.']

/-- The parts without those at the end that say nothing. -/
def withoutIdleEnd (parts : List (List Char)) : List (List Char) :=
  (parts.reverse.dropWhile isIdle).reverse

/-- Whether a part names something within its directory. -/
def isName (part : List Char) : Bool := !isIdle part && part != ['.', '.']

/-- A path as a first part and the others up to the last that says something. -/
def parts (path : List Char) : List Char × List (List Char) :=
  match segments path with
  | [] => ([], [])
  | first :: rest => (first, withoutIdleEnd rest)

/-- The last component, if it names something within its directory. -/
def fileName? (path : List Char) : Option (List Char) :=
  let (first, rest) := parts path
  let last := rest.getLast?.getD first
  if isName last then some last else none

/-- What stands before the last component, without a slash at its end unless it is the root. -/
def parent (path : List Char) : List Char :=
  let (first, rest) := parts path
  match rest with
  | [] => []
  | _ =>
    match withoutIdleEnd rest.dropLast with
    | [] => if first.isEmpty then ['/'] else first
    | kept => joined (first :: kept)

/-- A file name without its extension, and its extension: what follows the last dot, unless that dot
stands first or there is none. -/
def splitName (name : List Char) : List Char × Option (List Char) :=
  let back := name.reverse
  match back.dropWhile (· != '.') with
  | [] => (name, none)
  | _ :: stem =>
    if stem.isEmpty then (name, none) else (stem.reverse, some (back.takeWhile (· != '.')).reverse)

/-- The extension of a path's file name. -/
def extension? (path : List Char) : Option (List Char) :=
  (fileName? path).bind fun name => (splitName name).2

/-- A name within a directory. -/
def within (directory name : List Char) : List Char :=
  match directory.getLast? with
  | none => name
  | some '/' => directory ++ name
  | some _ => directory ++ '/' :: name

/-- A path with another file name in the same directory; a path that has no file name gets one. -/
def withFileName (path name : List Char) : List Char :=
  within (match fileName? path with
    | some _ => parent path
    | none => path) name

/-! ### Taking apart and putting together -/

@[simp] theorem byteLength_append (s t : List Char) :
    byteLength (s ++ t) = byteLength s + byteLength t := by
  rw [byteLength, String.ofList_append, String.utf8ByteSize_append, byteLength, byteLength]

theorem segments_ne_nil (s : List Char) : segments s ≠ [] := by
  cases s with
  | nil => simp [segments]
  | cons c s =>
    rw [segments]
    split
    · simp
    · split <;> simp

/-- **Slashes between the parts of a path give the path back.** -/
theorem joined_segments (s : List Char) : joined (segments s) = s := by
  induction s with
  | nil => rfl
  | cons c s ih =>
    cases h : segments s with
    | nil => exact absurd h (segments_ne_nil s)
    | cons part rest =>
      rw [h] at ih
      rw [segments, h]
      split
      · -- a slash begins a new part
        next hc => rw [joined, ih, hc, List.nil_append]; simp
      · -- any other character belongs to the first part
        cases rest with
        | nil => rw [joined] at ih; rw [joined, ih]
        | cons p ps => rw [joined] at ih; rw [joined, List.cons_append, ih]; all_goals simp

/-- **A stem, a dot and an extension give the file name back.** -/
theorem eq_of_splitName {name stem ext : List Char} (h : splitName name = (stem, some ext)) :
    name = stem ++ '.' :: ext := by
  have whole : name.reverse.takeWhile (· != '.') ++ name.reverse.dropWhile (· != '.') =
      name.reverse := List.takeWhile_append_dropWhile
  cases hd : name.reverse.dropWhile (· != '.') with
  | nil => simp [splitName, hd] at h
  | cons c back =>
    -- what stops the search for a dot is a dot
    have dot : c = '.' := by
      have key := List.head?_dropWhile_not (fun c => c != '.') name.reverse
      simpa [hd] using key
    simp only [splitName, hd] at h
    split at h
    · simp at h
    · obtain ⟨hs, he⟩ := Prod.mk.inj h
      rw [← hs, ← Option.some.inj he]
      rw [hd, dot] at whole
      simpa using (congrArg List.reverse whole).symm

end Path

end JobDispatch
