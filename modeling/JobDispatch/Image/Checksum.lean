/-!
# Checksums

The checksum of 32 bits that guards the parts of an image file: the remainder of a division of
polynomials over the numbers modulo two, with the lowest bit as the highest coefficient.

## Main definitions

* `Checksum.feed` — what a byte does to the remainder.
* `Checksum.ofBytes` — the checksum of bytes.
-/

namespace JobDispatch

namespace Checksum

/-- The divisor without its leading coefficient, lowest bit first. -/
def divisor : UInt32 := 0xEDB88320

/-- The remainder after one more bit. -/
def shift (r : UInt32) : UInt32 :=
  if r &&& 1 = 1 then (r >>> 1) ^^^ divisor else r >>> 1

/-- What a byte does to the remainder: its eight bits, one after another. -/
def feed (r : UInt32) (b : UInt8) : UInt32 :=
  shift (shift (shift (shift (shift (shift (shift (shift (r ^^^ b.toUInt32))))))))

/-- What bytes do to the remainder. -/
def feedAll (r : UInt32) (bytes : List UInt8) : UInt32 := bytes.foldl feed r

/-- **The checksum of bytes.**  All bits are turned over before and after. -/
def ofBytes (bytes : List UInt8) : UInt32 := feedAll 0xFFFFFFFF bytes ^^^ 0xFFFFFFFF

end Checksum

end JobDispatch
