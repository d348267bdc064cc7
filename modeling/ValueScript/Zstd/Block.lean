import ValueScript.Zstd.Sequences

/-! Blocks of a frame. A block adds to the frame's content, and a compressed one also leaves its
codes, tables and distances for the blocks after it. -/

namespace ValueScript.Zstd

inductive Block.Form
  | raw
  | repeated
  | compressed
  | reserved
  deriving DecidableEq

structure Block.Header where
  last : Bool
  form : Block.Form
  /-- The size of the content, or for a compressed block that of its data. -/
  size : Nat

/-- What the blocks of a frame have left for the next one. -/
structure Memory where
  code : Option Huffman
  tables : Option SequenceTables
  recent : Distances
  content : ByteArray

namespace Memory

/-- What the first block of a frame finds. -/
def initial : Memory := ⟨none, none, .initial, .empty⟩

end Memory

namespace Block

def Header.bytes : Nat := 3

def Header.read (input : ByteArray) (start : Nat) : Header :=
  let word := Bytes.little input start 3
  let form := match word / 2 % 4 with
    | 0 => Form.raw
    | 1 => .repeated
    | 2 => .compressed
    | _ => .reserved
  ⟨word % 2 = 1, form, word / 8⟩

/-- How many bytes of data follow the header. -/
def Header.stored (header : Header) : Nat :=
  match header.form with
  | .repeated => 1
  | _ => header.size

def decompress (allowance : Allowance) (memory : Memory) (data : ByteArray) :
    Except Fault Memory := do
  if allowance.block < data.size then throw .sourceSize
  let literals ← Literals.read allowance memory.code data
  let (count, start) ← Sequences.count data literals.next
  let ⟨_, tables, recent, content⟩ := memory
  let most := content.size + allowance.room
  if count = 0 then
    if start ≠ data.size then throw .corrupted
    if allowance.room < literals.bytes.size then throw .outputTooSmall
    return ⟨literals.code, tables, recent, content ++ literals.bytes⟩
  if data.size ≤ start then throw .sourceSize
  let some (tables, start) := Sequences.tables? data start tables | throw .corrupted
  if allowance.room = 0 then throw .outputTooSmall
  let some run := Sequences.begin? tables (data.extract start data.size) recent content
    | throw .corrupted
  let ⟨bits, _, _, _, recent, used, content⟩ ←
    Sequences.run tables literals.bytes most count run
  if bits.left ≠ 0 then throw .corrupted
  if most < content.size + (literals.bytes.size - used) then throw .outputTooSmall
  return ⟨literals.code, some tables, recent,
    content ++ literals.bytes.extract used literals.bytes.size⟩

def decode (allowance : Allowance) (header : Header) (memory : Memory) (data : ByteArray) :
    Except Fault Memory :=
  match header.form with
  | .raw =>
    if allowance.room < data.size then .error .outputTooSmall
    else
      let ⟨code, tables, recent, content⟩ := memory
      .ok ⟨code, tables, recent, content ++ data⟩
  | .repeated =>
    if allowance.room < header.size then .error .outputTooSmall
    else
      let ⟨code, tables, recent, content⟩ := memory
      let value := UInt8.ofNat (Bytes.byte data 0)
      .ok ⟨code, tables, recent, Bytes.pushMany value header.size content⟩
  | .compressed => decompress allowance memory data
  | .reserved => .error .corrupted

end Block

end ValueScript.Zstd
