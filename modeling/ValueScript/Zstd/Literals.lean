import ValueScript.Zstd.Fault
import ValueScript.Zstd.Huffman

/-! The literal bytes of a compressed block: as they are, one byte repeated, or coded. -/

namespace ValueScript.Zstd

/-- How much a block may hold, and how much room is left for its content. -/
structure Allowance where
  block : Nat
  room : Nat

/-- The literals of a block, the code to keep for later blocks, and the position after the
literals. -/
structure Literals where
  bytes : ByteArray
  code : Option Huffman
  next : Nat

namespace Literals

/-- Fails when so many literals cannot be in a block, or do not fit. -/
def check (allowance : Allowance) (count : Nat) : Except Fault Unit :=
  if allowance.block < count then .error .corrupted
  else if allowance.room < count then .error .outputTooSmall
  else .ok ()

/-- Size of the header and number of literals when no code is used; some header sizes need more
bytes than a block must have. -/
def plainHeader (content : ByteArray) (extra : Nat) : Except Fault (Nat × Nat) :=
  match Bytes.field content 2 2 with
  | 1 =>
    if content.size < 2 + extra then .error .corrupted
    else .ok (2, Bytes.little content 0 2 / 16)
  | 3 =>
    if content.size < 3 + extra then .error .corrupted
    else .ok (3, Bytes.little content 0 3 / 16)
  | _ => .ok (1, Bytes.byte content 0 / 8)

def raw (allowance : Allowance) (code : Option Huffman) (content : ByteArray) :
    Except Fault Literals := do
  let (header, count) ← plainHeader content 0
  check allowance count
  if content.size < header + count then throw .corrupted
  return ⟨content.extract header (header + count), code, header + count⟩

def repeated (allowance : Allowance) (code : Option Huffman) (content : ByteArray) :
    Except Fault Literals := do
  let (header, count) ← plainHeader content 1
  check allowance count
  let value := UInt8.ofNat (Bytes.byte content header)
  return ⟨Bytes.pushMany value count .empty, code, header + 1⟩

/-- Coded literals, with a code of their own or the one that was kept. -/
def coded (allowance : Allowance) (kept : Option Huffman) (content : ByteArray) :
    Except Fault Literals := do
  if content.size < 5 then throw .corrupted
  let form := Bytes.field content 2 2
  let (header, width) := match form with
    | 2 => (4, 14)
    | 3 => (5, 18)
    | _ => (3, 10)
  let count := Bytes.field content 4 width
  let size := Bytes.field content (4 + width) width
  if allowance.block < count then throw .corrupted
  if form ≠ 0 ∧ count < 6 then throw .literalsHeader
  if content.size < header + size then throw .corrupted
  check allowance count
  let data := content.extract header (header + size)
  let found := match kept with
    | some code => some (code, 0)
    | none => Huffman.read? data
  let some (code, used) := found | throw .corrupted
  let streams := data.extract used data.size
  let decoded := if form = 0 then code.stream? count streams .empty
    else code.fourStreams? count streams
  let some bytes := decoded | throw .corrupted
  return ⟨bytes, some code, header + size⟩

def read (allowance : Allowance) (code : Option Huffman) (content : ByteArray) :
    Except Fault Literals := do
  if content.size < 2 then throw .corrupted
  match Bytes.field content 0 2 with
  | 0 => raw allowance code content
  | 1 => repeated allowance code content
  | 2 => coded allowance none content
  | _ => if code.isNone then throw .dictionaryCorrupted else coded allowance code content

end Literals

end ValueScript.Zstd
