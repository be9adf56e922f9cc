/-!
# Bytes

Numbers in the header of an image file are written with their highest byte first.

## Main definitions

* `Bytes.number` — the number that bytes write.
* `Bytes.split?` — the first bytes of a list, and the others.
* `Bytes.take?` — the number that the first bytes write, and the others.
-/

namespace JobDispatch

namespace Bytes

/-- The number that bytes write, highest first. -/
def number (bytes : List UInt8) : Nat := bytes.foldl (fun n b => 256 * n + b.toNat) 0

/-- The first `n` bytes and the others, if there are as many. -/
def split? (n : Nat) (bytes : List UInt8) : Option (List UInt8 × List UInt8) :=
  if n ≤ bytes.length then some (bytes.take n, bytes.drop n) else none

/-- The number that the first `n` bytes write, and the other bytes. -/
def take? (n : Nat) (bytes : List UInt8) : Option (Nat × List UInt8) :=
  (split? n bytes).map fun p => (number p.1, p.2)

theorem split?_eq_some_iff {n : Nat} {bytes first rest : List UInt8} :
    split? n bytes = some (first, rest) ↔ bytes = first ++ rest ∧ first.length = n := by
  unfold split?
  constructor
  · intro h
    split at h
    · next hn =>
      obtain ⟨rfl, rfl⟩ := Prod.mk.inj (Option.some.inj h)
      exact ⟨(List.take_append_drop n bytes).symm, List.length_take_of_le hn⟩
    · exact absurd h (by simp)
  · rintro ⟨rfl, rfl⟩
    simp

end Bytes

end JobDispatch
