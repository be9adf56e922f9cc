/-!
# Code trees

A code gives each symbol a word of bits such that no word begins another.  It is a binary tree with
the symbols at its leaves: a word is the way from the root.  The tree follows from the lengths of the
words alone.  Among words of one length those of smaller symbols come first, and longer words come
after shorter ones.

## Main definitions

* `Bits` — bits in the order in which they are read.
* `CodeTree` — a code.
* `CodeTree.ofLengths?` — the code whose words have given lengths.
* `CodeTree.read?` — the symbol whose word comes next.

## Main results

* `CodeTree.length_lt_of_read?` — reading a symbol takes at least one bit.
-/

namespace JobDispatch

/-- Bits, in the order in which they are read. -/
abbrev Bits := List Bool

namespace Bits

/-- The bits of a byte, lowest first. -/
def ofByte (b : UInt8) : Bits := (List.range 8).map fun i => b.toNat.testBit i

/-- The bits of bytes. -/
def ofBytes (bytes : List UInt8) : Bits := bytes.flatMap ofByte

/-- The number that the first `n` bits write, lowest first, and the other bits. -/
def take? : Nat → Bits → Option (Nat × Bits)
  | 0, bits => some (0, bits)
  | _ + 1, [] => none
  | n + 1, b :: bits => (take? n bits).map fun p => (b.toNat + 2 * p.1, p.2)

/-- Several numbers of `n` bits each, and the other bits. -/
def takeMany? (n : Nat) : Nat → Bits → Option (List Nat × Bits)
  | 0, bits => some ([], bits)
  | count + 1, bits =>
    match take? n bits with
    | none => none
    | some (m, bits) => (takeMany? n count bits).map fun p => (m :: p.1, p.2)

/-- The bits from the next whole byte on, when all bits together fill whole bytes. -/
def aligned (bits : Bits) : Bits := bits.drop (bits.length % 8)

theorem length_of_take? {n m : Nat} {bits rest : Bits} (h : take? n bits = some (m, rest)) :
    bits.length = n + rest.length := by
  induction n generalizing bits m with
  | zero =>
    obtain ⟨-, rfl⟩ := Prod.mk.inj (Option.some.inj h)
    omega
  | succ n ih =>
    cases bits with
    | nil => exact absurd h (by simp [take?])
    | cons b bits =>
      obtain ⟨p, hp, e⟩ := Option.map_eq_some_iff.mp h
      obtain ⟨-, rfl⟩ := Prod.mk.inj e
      rw [List.length_cons, ih hp]
      omega

end Bits

/-- A code, as a tree. -/
inductive CodeTree
  /-- No word leads here. -/
  | gap
  /-- The word of a symbol ends here. -/
  | leaf (symbol : Nat)
  /-- Words go on with a zero or a one. -/
  | fork (zero one : CodeTree)

namespace CodeTree

/-! ### Reading -/

/-- The tree that a bit leads to. -/
def branch (b : Bool) : CodeTree → CodeTree
  | .fork zero one => if b then one else zero
  | _ => .gap

/-- **The symbol whose word comes next**, and the bits after it. -/
def read? : CodeTree → Bits → Option (Nat × Bits)
  | _, [] => none
  | tree, b :: bits =>
    match tree.branch b with
    | .leaf symbol => some (symbol, bits)
    | .gap => none
    | .fork zero one => read? (.fork zero one) bits

/-- **Reading a symbol takes at least one bit.** -/
theorem length_lt_of_read? {bits rest : Bits} {n : Nat} :
    ∀ {tree : CodeTree}, tree.read? bits = some (n, rest) → rest.length < bits.length := by
  induction bits with
  | nil => intro tree h; exact absurd h (by simp [read?])
  | cons b bits ih =>
    intro tree h
    rw [read?] at h
    split at h
    · obtain ⟨-, rfl⟩ := Prod.mk.inj (Option.some.inj h)
      exact Nat.lt_succ_self _
    · exact absurd h (by simp)
    · exact Nat.lt_succ_of_lt (ih h)

/-! ### Building -/

/-- The longest word. -/
def maxLength : Nat := 15

/-- Joins neighbours to forks.  One that is left alone makes the code incomplete. -/
def joined? : List CodeTree → Option (List CodeTree)
  | [] => some []
  | [_] => none
  | zero :: one :: trees => (joined? trees).map (.fork zero one :: ·)

/-- The symbols whose words have a given length, if the words of the symbols `0`, `1`, … have the
given lengths. -/
def leavesAt (lengths : List Nat) (n : Nat) : List CodeTree :=
  lengths.zipIdx.filterMap fun p => if p.1 = n then some (.leaf p.2) else none

/-- **The code whose words have given lengths**; a symbol with length zero has no word.  There is one
only if every long enough row of bits begins with exactly one word. -/
def ofLengths? (lengths : List Nat) : Option CodeTree :=
  match (List.range maxLength).foldrM
      (fun n deeper => joined? (leavesAt lengths (n + 1) ++ deeper)) [] with
  | some [tree] => some tree
  | _ => none

/-- A code that need not be complete in two cases: it has no word, or a single one of one bit. -/
def ofFewLengths? (lengths : List Nat) : Option CodeTree :=
  if lengths.all (· == 0) then some .gap
  else
    match leavesAt lengths 1 with
    | [word] => if lengths.all (· ≤ 1) then some (.fork word .gap) else ofLengths? lengths
    | _ => ofLengths? lengths

end CodeTree

end JobDispatch
