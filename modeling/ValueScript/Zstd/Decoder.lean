import ValueScript.Gather
import ValueScript.Zstd.Frame

/-! Decoding frame after frame, in pieces of bounded size. A failure takes with it what was decoded
for the piece that it came up in; an end of the input inside a frame does not. -/

namespace ValueScript.Zstd

inductive Stage
  | boundary
  | block (frame : Frame)
  | trailer (frame : Frame)
  /-- The input ended inside a frame. -/
  | exhausted

/-- A decoder at a position of its input. The content of the current frame is kept, and a part of it
is handed out already. -/
structure Decoder where
  position : Nat
  stage : Stage
  memory : Memory
  handed : Nat

namespace Decoder

def initial : Decoder := ⟨0, .boundary, .initial, 0⟩

/-- No piece is longer than this. -/
def greatestPiece : Nat := 8192

/-- How much of the content is not handed out yet. -/
def pending (decoder : Decoder) : Nat := decoder.memory.content.size - decoder.handed

/-- Whether the decoder stands between frames. -/
def atBoundary (decoder : Decoder) : Bool :=
  match decoder.stage with
  | .boundary => true
  | _ => false

/-- A step of decoding: the decoder moved on, or it came to the end of the input. -/
inductive Step (start : Nat)
  | moved (decoder : Decoder) (later : start < decoder.position)
  | ended (decoder : Decoder)

/-- The stage after the last block of a frame. -/
def afterLast (frame : Frame) : Stage := if frame.checksum then .trailer frame else .boundary

/-- The first four bytes of a frame that decoders skip; the lowest four bits of them are free. -/
def skippableMagic : List UInt8 := [0x50, 0x2a, 0x4d, 0x18]

/-- Whether what the input holds at a position agrees with a frame's first four bytes. -/
def agrees (input : ByteArray) (start mask : Nat) : List UInt8 → Bool
  | [] => true
  | byte :: rest =>
    (input.size ≤ start || Bytes.byte input start &&& mask == byte.toNat) &&
      agrees input (start + 1) 0xff rest

/-- Starts a frame at a position. A frame of small and known size that the input holds all of is
decoded at once. -/
def startFrame (input : ByteArray) (start : Nat) : Except Fault (Step start) := do
  let some ⟨frame, next, later⟩ ← Frame.readHeader input start
    | return .ended ⟨start, .exhausted, .initial, 0⟩
  let small := frame.contentSize.any (· ≤ greatestPiece)
  match if small then frame.restSize? input next else none with
  | some size =>
    let content ← frame.whole input greatestPiece next
    return .moved ⟨next + size, .boundary, { Memory.initial with content }, 0⟩
      (Nat.lt_add_right size later)
  | none =>
    if frame.dictionary ≠ 0 then throw .dictionaryMismatch
    if Frame.greatestWindow < frame.window then throw .windowTooLarge
    return .moved ⟨next, .block frame, .initial, 0⟩ later

/-- Reads what stands between frames: a frame, or one that is skipped. -/
def startAny (input : ByteArray) (start : Nat) : Except Fault (Step start) :=
  let ended : Step start := .ended ⟨start, .exhausted, .initial, 0⟩
  if agrees input start 0xff magic then
    if input.size < start + 5 then .ok ended else startFrame input start
  else if agrees input start 0xf0 skippableMagic then
    let stop := start + 8 + Bytes.little input (start + 4) 4
    if input.size < start + 8 ∨ input.size < stop then .ok ended
    else .ok (.moved ⟨stop, .boundary, .initial, 0⟩ (by dsimp only [stop]; omega))
  else .error .unknownFormat

/-- How much room there is for the next block. A frame of known size that is not longer than the
space for its window has room for the rest of its content; others have room for any block. -/
def allowance (frame : Frame) (produced : Nat) : Allowance :=
  let window := max frame.window 1024
  let space := window + 2 * min window Frame.greatestBlock + 64
  let room := match frame.contentSize with
    | some size => if size ≤ space then size - produced else space
    | none => space
  ⟨frame.blockLimit, room⟩

/-- Decodes the block at a position. Of a raw block that the input cuts off, the part that is there
comes out. An empty last block does not have the content's size checked. -/
def stepBlock (input : ByteArray) (frame : Frame) (start : Nat) (memory : Memory) (handed : Nat) :
    Except Fault (Step start) := do
  let header := Block.Header.read input start
  let first := start + Block.Header.bytes
  have later : start < first := Nat.lt_add_of_pos_right (by decide)
  let stored := header.stored
  let next := first + stored
  if input.size < first then return .ended ⟨start, .exhausted, memory, handed⟩
  if header.form = .reserved ∨ frame.blockLimit < stored then throw .corrupted
  let allowance := allowance frame memory.content.size
  let before := memory.content.size
  if stored = 0 then
    let stage := if header.last then afterLast frame else .block frame
    return .moved ⟨first, stage, memory, handed⟩ later
  else if input.size < next then
    if header.form = .raw then
      let memory ← Block.decode allowance header memory (input.extract first input.size)
      return .ended ⟨start, .exhausted, memory, handed⟩
    else return .ended ⟨start, .exhausted, memory, handed⟩
  else
    let memory ← Block.decode allowance header memory (input.extract first next)
    if frame.blockLimit < memory.content.size - before then throw .corrupted
    if header.last then
      if frame.contentSize.any (· != memory.content.size) then throw .corrupted
      return .moved ⟨next, afterLast frame, memory, handed⟩ (Nat.lt_add_right _ later)
    else return .moved ⟨next, .block frame, memory, handed⟩ (Nat.lt_add_right _ later)

/-- Moves the decoder on by one frame header, block or checksum. -/
def step (input : ByteArray) (decoder : Decoder) : Except Fault (Step decoder.position) :=
  match decoder with
  | ⟨start, .boundary, _, _⟩ => startAny input start
  | ⟨start, .block frame, memory, handed⟩ => stepBlock input frame start memory handed
  | ⟨start, .trailer frame, memory, handed⟩ =>
    if input.size < start + 4 then .ok (.ended ⟨start, .exhausted, memory, handed⟩)
    else if !Frame.checksumMatches input start memory.content then .error .checksumMismatch
    else .ok (.moved ⟨start + 4, .boundary, memory, handed⟩ (by simp only; omega))
  | ⟨start, .exhausted, memory, handed⟩ => .ok (.ended ⟨start, .exhausted, memory, handed⟩)

/-- Decodes until there is more than one piece, or a frame with content ends, or the input does. -/
def fill (input : ByteArray) (decoder : Decoder) : Except Fault Decoder :=
  if greatestPiece < decoder.pending ∨ (decoder.atBoundary ∧ 0 < decoder.pending) then .ok decoder
  else if decoder.position < input.size then
    match decoder.step input with
    | .error fault => .error fault
    | .ok (.ended decoder) => .ok decoder
    | .ok (.moved next _) => next.fill input
  else if decoder.atBoundary then .ok decoder
  else .ok { decoder with stage := .exhausted }
termination_by input.size - decoder.position

def hand (decoder : Decoder) : Delivery Decoder Fault :=
  let stop := decoder.handed + min decoder.pending greatestPiece
  .piece (decoder.memory.content.extract decoder.handed stop) { decoder with handed := stop }

/-- The next piece of the content of all frames. What is pending goes out before anything else is
decoded. -/
def ask (input : ByteArray) (decoder : Decoder) : Delivery Decoder Fault :=
  if 0 < decoder.pending then decoder.hand
  else
    match decoder.fill input with
    | .error fault => .failed fault
    | .ok decoder =>
      if 0 < decoder.pending then decoder.hand
      else if decoder.atBoundary then .piece .empty decoder
      else .failed .incomplete

end Decoder

end ValueScript.Zstd
