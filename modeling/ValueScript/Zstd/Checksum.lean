import ValueScript.Bytes

/-! The 64-bit checksum of a frame's content. Four lanes take eight bytes each in turn, and what is
left after the last full turn goes in by eight, by four and by single bytes. -/

namespace ValueScript.Zstd.Checksum

def prime₁ : UInt64 := 0x9E3779B185EBCA87
def prime₂ : UInt64 := 0xC2B2AE3D27D4EB4F
def prime₃ : UInt64 := 0x165667B19E3779F9
def prime₄ : UInt64 := 0x85EBCA77C2B2AE63
def prime₅ : UInt64 := 0x27D4EB2F165667C5

/-- Moves the bits of a word left and those that fall out to the other end. -/
def rotate (word count : UInt64) : UInt64 := (word <<< count) ||| (word >>> (64 - count))

def byte (bytes : ByteArray) (index : Nat) : UInt64 :=
  if inside : index < bytes.size then bytes[index].toUInt64 else 0

/-- The word of four bytes at a position, least significant byte first. -/
def half (bytes : ByteArray) (index : Nat) : UInt64 :=
  byte bytes index ||| (byte bytes (index + 1) <<< 8) ||| (byte bytes (index + 2) <<< 16) |||
    (byte bytes (index + 3) <<< 24)

/-- The word of eight bytes at a position, least significant byte first. -/
def word (bytes : ByteArray) (index : Nat) : UInt64 :=
  half bytes index ||| (half bytes (index + 4) <<< 32)

def turn (lane input : UInt64) : UInt64 := rotate (lane + input * prime₂) 31 * prime₁

/-- The sum after one more lane is merged into it. -/
def merge (sum lane : UInt64) : UInt64 := (sum ^^^ turn 0 lane) * prime₁ + prime₄

/-- The merged lanes after all full turns of 32 bytes from `index`, and the position of the rest. -/
def lanes (bytes : ByteArray) (index : Nat) (a b c d : UInt64) : UInt64 × Nat :=
  if index + 32 ≤ bytes.size then
    lanes bytes (index + 32) (turn a (word bytes index)) (turn b (word bytes (index + 8)))
      (turn c (word bytes (index + 16))) (turn d (word bytes (index + 24)))
  else
    (merge (merge (merge (merge (rotate a 1 + rotate b 7 + rotate c 12 + rotate d 18) a) b) c) d,
      index)
termination_by bytes.size - index

/-- The sum after the single bytes from `index`. -/
def addBytes (bytes : ByteArray) (index : Nat) (sum : UInt64) : UInt64 :=
  if index < bytes.size then
    addBytes bytes (index + 1) (rotate (sum ^^^ (byte bytes index * prime₅)) 11 * prime₁)
  else sum
termination_by bytes.size - index

/-- The sum after the words of eight bytes from `index`, one word of four, and single bytes. -/
def addRest (bytes : ByteArray) (index : Nat) (sum : UInt64) : UInt64 :=
  if index + 8 ≤ bytes.size then
    addRest bytes (index + 8)
      (rotate (sum ^^^ turn 0 (word bytes index)) 27 * prime₁ + prime₄)
  else if index + 4 ≤ bytes.size then
    addBytes bytes (index + 4)
      (rotate (sum ^^^ (half bytes index * prime₁)) 23 * prime₂ + prime₃)
  else addBytes bytes index sum
termination_by bytes.size - index

/-- Spreads every bit of a sum over the whole word. -/
def mix (sum : UInt64) : UInt64 :=
  let sum := (sum ^^^ (sum >>> 33)) * prime₂
  let sum := (sum ^^^ (sum >>> 29)) * prime₃
  sum ^^^ (sum >>> 32)

def ofBytes (bytes : ByteArray) : UInt64 :=
  let (sum, index) :=
    if 32 ≤ bytes.size then lanes bytes 0 (prime₁ + prime₂) prime₂ 0 (0 - prime₁) else (prime₅, 0)
  mix (addRest bytes index (sum + UInt64.ofNat bytes.size))

end ValueScript.Zstd.Checksum
