/-! Numbers in byte strings, least significant byte or bit first. Past the end every bit is zero. -/

namespace ValueScript.Bytes

def byte (bytes : ByteArray) (index : Nat) : Nat :=
  if inside : index < bytes.size then bytes[index].toNat else 0

/-- The number that `count` bytes make. -/
def little (bytes : ByteArray) (start : Nat) : (count : Nat) → Nat
  | 0 => 0
  | count + 1 => byte bytes start + 256 * little bytes (start + 1) count

/-- The number that `count` bits make. Bits count from the lowest one of the first byte. -/
def field (bytes : ByteArray) (start count : Nat) : Nat :=
  (little bytes (start / 8) ((start % 8 + count + 7) / 8) >>> (start % 8)) % (1 <<< count)

def pushMany (value : UInt8) : (count : Nat) → ByteArray → ByteArray
  | 0, bytes => bytes
  | count + 1, bytes => pushMany value count (bytes.push value)

/-- Appends bytes that repeat those `distance` before the end, one after another, so that a long
run may repeat its own beginning. -/
def pushBack (distance : Nat) : (count : Nat) → ByteArray → ByteArray
  | 0, bytes => bytes
  | count + 1, bytes =>
    pushBack distance count (bytes.push (UInt8.ofNat (byte bytes (bytes.size - distance))))

end ValueScript.Bytes
