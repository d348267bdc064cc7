import ValueScript.Bytes

/-! Bit streams that are read from their end. The highest bit that is set in the last byte marks the
end and is no part of the stream. -/

namespace ValueScript.Zstd

/-- A stream of which the lowest `left` bits are still to be read, highest first. -/
structure Bits where
  bytes : ByteArray
  left : Nat

namespace Bits

/-- The stream of some bytes, unless the mark of its end is missing. -/
def ofBytes? (bytes : ByteArray) : Option Bits :=
  let last := Bytes.byte bytes (bytes.size - 1)
  if last = 0 then none else some ⟨bytes, 8 * (bytes.size - 1) + last.log2⟩

/-- The next bits as a number, followed by zeros when fewer are left. -/
def peek (bits : Bits) (count : Nat) : Nat :=
  if count ≤ bits.left then Bytes.field bits.bytes (bits.left - count) count
  else Bytes.field bits.bytes 0 bits.left <<< (count - bits.left)

/-- Takes bits off, if as many are left. -/
def take? (bits : Bits) (count : Nat) : Option (Nat × Bits) :=
  if count ≤ bits.left then some (bits.peek count, ⟨bits.bytes, bits.left - count⟩) else none

end Bits

end ValueScript.Zstd
