import JobDispatch.Image.Bytes
import JobDispatch.Image.Checksum

/-!
# Chunks of a PNG file

After its signature a PNG file is a row of chunks.  A chunk has a name of four letters, some content,
and a checksum of both.  A name that begins with a capital belongs to a chunk that no reader may pass
over.

## Main definitions

* `Png.Chunk` — a chunk.
* `Png.Chunk.first?` — the chunk that bytes begin with.
* `Png.Chunk.all` — the whole chunks that bytes begin with, and what comes after them.
* `Png.Chunk.nextName?` — the name of a chunk that need not be whole.

## Main results

* `Png.Chunk.length_lt_of_first?` — a chunk takes bytes.
-/

namespace JobDispatch

namespace Png

/-- A chunk of a PNG file. -/
structure Chunk where
  name : String
  content : List UInt8
  /-- Whether its checksum is right. -/
  intact : Bool

namespace Chunk

/-- Bytes as a name. -/
def nameOf (bytes : List UInt8) : String := String.ofList (bytes.map fun b => Char.ofNat b.toNat)

/-- Whether no reader may pass over a chunk: the first letter of its name is a capital. -/
def isCritical (c : Chunk) : Bool :=
  match c.name.toList with
  | letter :: _ => !letter.toNat.testBit 5
  | [] => false

/-- Whether a chunk holds data of an image or of a frame. -/
def isData (c : Chunk) : Bool := c.name == "IDAT" || c.name == "fdAT"

/-- **The chunk that bytes begin with**, and the bytes after it: the length of its content in four
bytes, its name, its content and the checksum. -/
def first? (bytes : List UInt8) : Option (Chunk × List UInt8) :=
  match Bytes.take? 4 bytes with
  | none => none
  | some (length, bytes) =>
    match Bytes.split? (4 + length) bytes with
    | none => none
    | some (guarded, bytes) =>
      (Bytes.take? 4 bytes).map fun p =>
        (⟨nameOf (guarded.take 4), guarded.drop 4, p.1 == (Checksum.ofBytes guarded).toNat⟩, p.2)

/-- The name of the chunk that bytes begin with, whether or not it is whole. -/
def nextName? (bytes : List UInt8) : Option String :=
  match Bytes.split? 8 bytes with
  | some (start, _) => some (nameOf (start.drop 4))
  | none => none

/-- **A chunk takes bytes.** -/
theorem length_lt_of_first? {bytes rest : List UInt8} {c : Chunk}
    (h : first? bytes = some (c, rest)) : rest.length < bytes.length := by
  have shrinks : ∀ {n m : Nat} {a b : List UInt8},
      Bytes.take? n a = some (m, b) → a.length = n + b.length := by
    intro n m a b e
    obtain ⟨q, hq, e⟩ := Option.map_eq_some_iff.mp e
    obtain ⟨-, rfl⟩ := Prod.mk.inj e
    obtain ⟨rfl, hn⟩ := Bytes.split?_eq_some_iff.mp hq
    rw [List.length_append, hn]
  rw [first?] at h
  split at h
  · exact absurd h (by simp)
  · next hl =>
    split at h
    · exact absurd h (by simp)
    · next hg =>
      obtain ⟨q, hq, e⟩ := Option.map_eq_some_iff.mp h
      obtain ⟨-, rfl⟩ := Prod.mk.inj e
      obtain ⟨rfl, hn⟩ := Bytes.split?_eq_some_iff.mp hg
      have := shrinks hl
      have := shrinks hq
      rw [List.length_append] at *
      omega

/-- **The whole chunks that bytes begin with**, and what comes after them. -/
def all (bytes : List UInt8) : List Chunk × List UInt8 :=
  match h : first? bytes with
  | none => ([], bytes)
  | some (c, rest) =>
    have := length_lt_of_first? h
    let (chunks, rest) := all rest
    (c :: chunks, rest)
termination_by bytes.length

end Chunk

end Png

end JobDispatch
