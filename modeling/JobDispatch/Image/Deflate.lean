import JobDispatch.Image.CodeTree

/-!
# Compressed data

Compressed data is a stream of blocks between two header bytes and a checksum of four bytes, whose
value is not looked at.  A block holds plain bytes, or symbols of a code.  A symbol is a byte, the
end of the block, or a length; a length is followed by a distance, and together they repeat bytes
that came before.  The code of a block is a fixed one, or its words' lengths stand before it, in a
code of their own.

## Main definitions

* `Deflate.Codes` — the codes of a block.
* `Deflate.symbols?` — the bytes that the symbols of a block stand for.
* `Deflate.inflate?` — the bytes that compressed data stands for.
-/

namespace JobDispatch

namespace Deflate

/-- The codes of a block: one for bytes, ends and lengths, and one for distances. -/
structure Codes where
  symbols : CodeTree
  distances : CodeTree

/-- What a symbol of a block means. -/
inductive Meaning
  /-- A byte. -/
  | byte (b : UInt8)
  /-- The end of the block. -/
  | blockEnd
  /-- A length, by its place among the lengths. -/
  | length (place : Nat)

/-- The symbol of the end of a block; those of bytes come before it, those of lengths after it. -/
def endSymbol : Nat := 256

/-- What a symbol of a block means. -/
def Meaning.ofSymbol (n : Nat) : Meaning :=
  if n < endSymbol then .byte (UInt8.ofNat n)
  else if n = endSymbol then .blockEnd
  else .length (n - endSymbol - 1)

/-! ### Repetitions -/

/-- The least length at each place, and how many bits are added to it. -/
def lengths : List (Nat × Nat) :=
  [(3, 0), (4, 0), (5, 0), (6, 0), (7, 0), (8, 0), (9, 0), (10, 0), (11, 1), (13, 1), (15, 1),
   (17, 1), (19, 2), (23, 2), (27, 2), (31, 2), (35, 3), (43, 3), (51, 3), (59, 3), (67, 4),
   (83, 4), (99, 4), (115, 4), (131, 5), (163, 5), (195, 5), (227, 5), (258, 0)]

/-- The least distance at each place, and how many bits are added to it. -/
def distances : List (Nat × Nat) :=
  [(1, 0), (2, 0), (3, 0), (4, 0), (5, 1), (7, 1), (9, 2), (13, 2), (17, 3), (25, 3), (33, 4),
   (49, 4), (65, 5), (97, 5), (129, 6), (193, 6), (257, 7), (385, 7), (513, 8), (769, 8),
   (1025, 9), (1537, 9), (2049, 10), (3073, 10), (4097, 11), (6145, 11), (8193, 12), (12289, 12),
   (16385, 13), (24577, 13)]

/-- The number that a place of a table and the next bits mean, and the other bits. -/
def amount? (table : List (Nat × Nat)) (place : Nat) (bits : Bits) : Option (Nat × Bits) :=
  match table[place]? with
  | none => none
  | some (least, more) => (Bits.take? more bits).map fun p => (least + p.1, p.2)

/-- The length and the distance of a repetition whose length is at a place, and the other bits. -/
def repetition? (codes : Codes) (place : Nat) (bits : Bits) : Option ((Nat × Nat) × Bits) :=
  match amount? lengths place bits with
  | none => none
  | some (length, bits) =>
    match codes.distances.read? bits with
    | none => none
    | some (place, bits) => (amount? distances place bits).map fun p => ((length, p.1), p.2)

/-- Adds the bytes that stand at a distance from the end, one after another, so that bytes just added
may be repeated too. -/
def repeatBack? (distance : Nat) : Nat → ByteArray → Option ByteArray
  | 0, out => some out
  | n + 1, out =>
    if h : 0 < distance ∧ distance ≤ out.size then
      have : out.size - distance < out.size := by omega
      repeatBack? distance n (out.push out[out.size - distance])
    else none

theorem length_of_amount? {table : List (Nat × Nat)} {place n : Nat} {bits rest : Bits}
    (h : amount? table place bits = some (n, rest)) : rest.length ≤ bits.length := by
  rw [amount?] at h
  split at h
  · exact absurd h (by simp)
  · obtain ⟨p, hp, e⟩ := Option.map_eq_some_iff.mp h
    obtain ⟨-, rfl⟩ := Prod.mk.inj e
    have := Bits.length_of_take? hp
    omega

theorem length_of_repetition? {codes : Codes} {place : Nat} {p : Nat × Nat} {bits rest : Bits}
    (h : repetition? codes place bits = some (p, rest)) : rest.length ≤ bits.length := by
  rw [repetition?] at h
  split at h
  · exact absurd h (by simp)
  · next hl =>
    split at h
    · exact absurd h (by simp)
    · next hd =>
      obtain ⟨q, hq, e⟩ := Option.map_eq_some_iff.mp h
      obtain ⟨-, rfl⟩ := Prod.mk.inj e
      have := length_of_amount? hl
      have := CodeTree.length_lt_of_read? hd
      have := length_of_amount? hq
      omega

/-! ### Blocks -/

/-- **The bytes that the symbols of a block stand for**, after those that came before, and the bits
after the block. -/
def symbols? (codes : Codes) (bits : Bits) (out : ByteArray) : Option (ByteArray × Bits) :=
  match h : codes.symbols.read? bits with
  | none => none
  | some (symbol, rest) =>
    have := CodeTree.length_lt_of_read? h
    match Meaning.ofSymbol symbol with
    | .byte b => symbols? codes rest (out.push b)
    | .blockEnd => some (out, rest)
    | .length place =>
      match h : repetition? codes place rest with
      | none => none
      | some ((length, distance), rest) =>
        have := length_of_repetition? h
        match repeatBack? distance length out with
        | none => none
        | some out => symbols? codes rest out
termination_by bits.length

/-- A block of plain bytes: it begins at a whole byte with their number, written once as it is and
once with all its bits turned over. -/
def plain? (bits : Bits) (out : ByteArray) : Option (ByteArray × Bits) :=
  match Bits.takeMany? 16 2 bits.aligned with
  | some ([n, m], bits) =>
    if n + m = 0xFFFF then
      (Bits.takeMany? 8 n bits).map fun p =>
        (p.1.foldl (fun out b => out.push (UInt8.ofNat b)) out, p.2)
    else none
  | _ => none

/-- The codes of a block that does not bring its own. -/
def fixedCodes? : Option Codes :=
  match
    CodeTree.ofLengths? (List.replicate 144 8 ++ List.replicate 112 9 ++ List.replicate 24 7
      ++ List.replicate 8 8),
    CodeTree.ofLengths? (List.replicate 32 5) with
  | some symbols, some distances => some ⟨symbols, distances⟩
  | _, _ => none

/-- The order in which the lengths of the words for lengths are written. -/
def lengthOrder : List Nat := [16, 17, 18, 0, 8, 7, 9, 6, 10, 5, 11, 4, 12, 3, 13, 2, 14, 1, 15]

/-- What a symbol of the code for lengths adds to the lengths so far, last first, and the bits after
it: a length, the last length three to six times, or zeros. -/
def moreLengths? (symbol : Nat) (bits : Bits) (done : List Nat) : Option (List Nat × Bits) :=
  if symbol < 16 then some (symbol :: done, bits)
  else if symbol = 16 then
    match done with
    | [] => none
    | last :: _ => (Bits.take? 2 bits).map fun p => (List.replicate (p.1 + 3) last ++ done, p.2)
  else if symbol = 17 then
    (Bits.take? 3 bits).map fun p => (List.replicate (p.1 + 3) 0 ++ done, p.2)
  else (Bits.take? 7 bits).map fun p => (List.replicate (p.1 + 11) 0 ++ done, p.2)

theorem length_of_moreLengths? {symbol : Nat} {bits rest : Bits} {done more : List Nat}
    (h : moreLengths? symbol bits done = some (more, rest)) : rest.length ≤ bits.length := by
  have shrinks : ∀ {n : Nat} {f : Nat → List Nat},
      (Bits.take? n bits).map (fun p => (f p.1, p.2)) = some (more, rest) →
      rest.length ≤ bits.length := by
    intro n f e
    obtain ⟨p, hp, e⟩ := Option.map_eq_some_iff.mp e
    obtain ⟨-, rfl⟩ := Prod.mk.inj e
    have := Bits.length_of_take? hp
    omega
  unfold moreLengths? at h
  split at h
  · obtain ⟨-, rfl⟩ := Prod.mk.inj (Option.some.inj h)
    exact Nat.le_refl _
  · split at h
    · cases done with
      | nil => exact absurd h (by simp)
      | cons last done => exact shrinks (f := fun n => List.replicate (n + 3) last ++ last :: done) h
    · split at h
      · exact shrinks (f := fun n => List.replicate (n + 3) 0 ++ done) h
      · exact shrinks (f := fun n => List.replicate (n + 11) 0 ++ done) h

/-- Reads lengths until there are as many as are wanted; no more may come. -/
def codedLengths? (tree : CodeTree) (wanted : Nat) (bits : Bits) (done : List Nat) :
    Option (List Nat × Bits) :=
  if done.length = wanted then some (done.reverse, bits)
  else if wanted < done.length then none
  else
    match h : tree.read? bits with
    | none => none
    | some (symbol, rest) =>
      have := CodeTree.length_lt_of_read? h
      match h : moreLengths? symbol rest done with
      | none => none
      | some (done, rest) =>
        have := length_of_moreLengths? h
        codedLengths? tree wanted rest done
termination_by bits.length

/-- The most symbols that a block may bring a code for. -/
def maxSymbols : Nat := 286

/-- The most distances that a block may bring a code for. -/
def maxDistances : Nat := 30

/-- The codes that stand before a block, and the bits after them.  The end must have a word. -/
def codes? (bits : Bits) : Option (Codes × Bits) := do
  let (symbolCount, bits) ← Bits.take? 5 bits
  let (distanceCount, bits) ← Bits.take? 5 bits
  let (lengthCount, bits) ← Bits.take? 4 bits
  let symbolCount := symbolCount + 257
  let distanceCount := distanceCount + 1
  guard (symbolCount ≤ maxSymbols ∧ distanceCount ≤ maxDistances)
  let (written, bits) ← Bits.takeMany? 3 (lengthCount + 4) bits
  let lengthOf (n : Nat) := ((lengthOrder.zip written).lookup n).getD 0
  let tree ← CodeTree.ofLengths? ((List.range lengthOrder.length).map lengthOf)
  let (all, bits) ← codedLengths? tree (symbolCount + distanceCount) bits []
  guard (all[endSymbol]?.getD 0 ≠ 0)
  let symbols ← CodeTree.ofLengths? (all.take symbolCount)
  let distances ← CodeTree.ofFewLengths? (all.drop symbolCount)
  return (⟨symbols, distances⟩, bits)

/-- The bytes of a block of a given kind, after those that came before, and the bits after it. -/
def block? (kind : Nat) (bits : Bits) (out : ByteArray) : Option (ByteArray × Bits) :=
  match kind with
  | 0 => plain? bits out
  | 1 => fixedCodes?.bind fun codes => symbols? codes bits out
  | 2 => (codes? bits).bind fun p => symbols? p.1 p.2 out
  | _ => none

/-- The bytes of at most `count` blocks up to the last, and the bits after it. -/
def blocks? : Nat → Bits → ByteArray → Option (ByteArray × Bits)
  | 0, _, _ => none
  | count + 1, bits, out =>
    match Bits.takeMany? 1 1 bits, Bits.take? 2 (bits.drop 1) with
    | some ([last], _), some (kind, bits) =>
      match block? kind bits out with
      | none => none
      | some (out, bits) => if last = 1 then some (out, bits) else blocks? count bits out
    | _, _ => none

/-- Whether two bytes are those before the blocks: the method is the one of this module, the window
no larger than it allows, no dictionary is asked for, and the number that they write is divisible
by 31. -/
def isHeader (method flags : UInt8) : Bool :=
  method.toNat % 16 == 8 && decide (method.toNat / 16 ≤ 7) && !flags.toNat.testBit 5
    && (256 * method.toNat + flags.toNat) % 31 == 0

/-- **The bytes that compressed data stands for.**  What follows the checksum is ignored. -/
def inflate? : List UInt8 → Option ByteArray
  | method :: flags :: bytes =>
    if isHeader method flags then
      -- a block takes more than one bit
      match blocks? (8 * bytes.length) (Bits.ofBytes bytes) .empty with
      | some (out, bits) => if 4 ≤ bits.length / 8 then some out else none
      | none => none
    else none
  | _ => none

end Deflate

end JobDispatch
