import ValueScript.Zstd.Block
import ValueScript.Zstd.Checksum

/-! Frames: a header that tells the sizes, blocks up to the one marked as last, and perhaps a
checksum of the content. -/

namespace ValueScript.Zstd

/-- The bytes that every frame of compressed data starts with. -/
def magic : List UInt8 := [0x28, 0xb5, 0x2f, 0xfd]

structure Frame where
  window : Nat
  /-- The size of the content, when it is told. -/
  contentSize : Option Nat
  dictionary : Nat
  checksum : Bool

namespace Frame

/-- No block of any frame holds more than this. -/
def greatestBlock : Nat := 128 * 1024

/-- Windows up to this size are decoded. -/
def greatestWindow : Nat := 128 * 1024 * 1024 + 1

/-- How much a block of the frame may hold. -/
def blockLimit (frame : Frame) : Nat := min frame.window greatestBlock

/-- The size of the dictionary number and of the content size, in bytes, as a descriptor tells
them. -/
def fieldSizes (descriptor : Nat) : Nat × Nat :=
  let dictionary := match descriptor % 4 with
    | 0 => 0
    | 1 => 1
    | 2 => 2
    | _ => 4
  let content := match descriptor / 64 with
    | 0 => if descriptor / 32 % 2 = 1 then 1 else 0
    | 1 => 2
    | 2 => 4
    | _ => 8
  (dictionary, content)

/-- The window of a descriptor byte: a power of two and some eighths of it. -/
def windowOf (descriptor : Nat) : Except Fault Nat :=
  let log := descriptor / 8 + 10
  if 31 < log then .error .windowTooLarge
  else .ok ((1 <<< log) + (1 <<< log) / 8 * (descriptor % 8))

/-- The content size that a field of `count` bytes tells. Two bytes leave out the sizes that one
byte can tell. -/
def contentSizeAt (input : ByteArray) (start count : Nat) : Nat :=
  Bytes.little input start count + if count = 2 then 256 else 0

/-- The content size that stands for an unknown one. -/
def unknownSize : Nat := 0xffffffffffffffff

/-- A frame that starts at a position, and the later position of its blocks. -/
structure Opened (start : Nat) where
  frame : Frame
  next : Nat
  later : start < next

/-- Reads the header at the position of the frame, or nothing when the input ends before it does. -/
def readHeader (input : ByteArray) (start : Nat) : Except Fault (Option (Opened start)) := do
  let descriptor := Bytes.byte input (start + 4)
  let single := descriptor / 32 % 2 = 1
  let (dictionarySize, contentSize) := fieldSizes descriptor
  let windowSize := if single then 0 else 1
  let dictionaryAt := start + 5 + windowSize
  let contentAt := dictionaryAt + dictionarySize
  let next := contentAt + contentSize
  have later : start < next := Nat.lt_add_right _ (Nat.lt_add_right _
    (Nat.lt_add_right _ (Nat.lt_add_of_pos_right (Nat.succ_pos 4))))
  if input.size < next then return none
  if descriptor / 8 % 2 = 1 then throw .unsupportedParameter
  let window ← if single then pure 0 else windowOf (Bytes.byte input (start + 5))
  let size := contentSizeAt input contentAt contentSize
  let frame : Frame := {
    window := if single then size else window
    contentSize := if contentSize = 0 ∨ size = unknownSize then none else some size
    dictionary := Bytes.little input dictionaryAt dictionarySize
    checksum := descriptor / 4 % 2 = 1 }
  return some ⟨frame, next, later⟩

/-- Whether the four bytes at a position are the low half of the content's checksum. -/
def checksumMatches (input : ByteArray) (start : Nat) (content : ByteArray) : Bool :=
  Bytes.little input start 4 == (Checksum.ofBytes content).toNat % 0x100000000

/-- The size of the rest of a frame whose blocks start at `start`, if the input holds all of it. -/
def restSize? (frame : Frame) (input : ByteArray) (start : Nat) : Option Nat :=
  let header := Block.Header.read input start
  let size := Block.Header.bytes + header.stored
  if input.size < start + size ∨ header.form = .reserved then none
  else if header.last then
    let size := if frame.checksum then size + 4 else size
    if input.size < start + size then none else some size
  else (frame.restSize? input (start + size)).map (size + ·)
termination_by input.size - start
decreasing_by have : 0 < Block.Header.bytes := by decide
              omega

/-- Decodes the blocks from `start` into at most `most` bytes, and gives the content and the
position after the last block. The input holds all of the frame. -/
def blocks (frame : Frame) (input : ByteArray) (most start : Nat) (memory : Memory) :
    Except Fault (ByteArray × Nat) :=
  let header := Block.Header.read input start
  let first := start + Block.Header.bytes
  let next := first + header.stored
  if input.size < next then .error .sourceSize
  else
    let allowance : Allowance := ⟨frame.blockLimit, most - memory.content.size⟩
    match Block.decode allowance header memory (input.extract first next) with
    | .error fault => .error fault
    | .ok memory =>
      if header.last then .ok (memory.content, next)
      else frame.blocks input most next memory
termination_by input.size - start
decreasing_by have : 0 < Block.Header.bytes := by decide
              omega

/-- Decodes a frame that the input holds all of, with a content of at most `most` bytes. -/
def whole (frame : Frame) (input : ByteArray) (most start : Nat) : Except Fault ByteArray := do
  if frame.dictionary ≠ 0 then throw .dictionaryMismatch
  let (content, next) ← frame.blocks input most start .initial
  if frame.contentSize.any (· != content.size) then throw .corrupted
  if frame.checksum && !checksumMatches input next content then throw .checksumMismatch
  return content

end Frame

end ValueScript.Zstd
