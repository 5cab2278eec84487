/-!
# Reading bits

A deflate stream is a sequence of bits: within a byte the lowest bit comes first.  Numbers are
stored with their lowest bit first as well.
-/

namespace SourceAtlas

/-- The byte at an index, if there is one. -/
def byteAt? (bytes : ByteArray) (index : Nat) : Option UInt8 :=
  if h : index < bytes.size then some bytes[index] else none

/-- The number that bytes write with the least significant one first; bytes that are missing count
as zero. -/
def littleEndian (bytes : ByteArray) (start count : Nat) : Nat :=
  match count with
  | 0 => 0
  | count + 1 =>
    ((byteAt? bytes start).getD 0).toNat + 256 * littleEndian bytes (start + 1) count

/-- The bit at a position. -/
def bitAt? (bytes : ByteArray) (position : Nat) : Option Nat :=
  (byteAt? bytes (position / 8)).map fun byte => byte.toNat / Nat.pow 2 (position % 8) % 2

/-- The number in `count` bits, lowest bit first, if that many bits are left. -/
def bitsAt? (bytes : ByteArray) (position : Nat) : Nat → Option Nat
  | 0 => some 0
  | count + 1 =>
    match bitAt? bytes position, bitsAt? bytes (position + 1) count with
    | some low, some high => some (low + 2 * high)
    | _, _ => none

end SourceAtlas
