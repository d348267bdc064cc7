import ValueScript.Zstd.Entropy

/-! Codes of literal bytes. A code is told by a weight for each symbol; a symbol of weight `w` owns
`2 ^ (w - 1)` of the table's entries, and the weight of the last symbol is what fills the table. -/

namespace ValueScript.Zstd

/-- For each number of `log` bits the symbol whose code it starts with, and the code's length. -/
structure Huffman where
  log : Nat
  entries : Array (UInt8 × Nat)

namespace Huffman

def longestCode : Nat := 12

/-- How many weights a description may hold. -/
def mostWeights : Nat := 255

/-- Decodes weights with two states in turn until the stream has no bits for the next state; the
other state then gives the last one. -/
def weightsFrom (table : Entropy) (room : Nat) (bits : Bits) (state other : Nat)
    (weights : Array Nat) : Option (Array Nat) :=
  match room with
  | 0 => none
  | room + 1 =>
    let weights := weights.push (table.cell state).symbol
    match table.next? state bits with
    | none => some (weights.push (table.cell other).symbol)
    | some (state, bits) => weightsFrom table room bits other state weights

/-- Decodes the weights that an entropy table and a stream after it tell. -/
def codedWeights? (bytes : ByteArray) : Option (Array Nat) := do
  let description ← Entropy.Description.read? bytes 255 6
  let table := Entropy.ofCounts description.log description.counts
  let bits ← Bits.ofBytes? (bytes.extract description.size bytes.size)
  let (first, bits) ← table.start? bits
  let (second, bits) ← table.start? bits
  weightsFrom table (mostWeights - 1) bits first second #[]

/-- Weights that are written as they are, four bits each. -/
def plainWeights (bytes : ByteArray) (count : Nat) : Array Nat :=
  (Array.range count).map fun index =>
    let pair := Bytes.byte bytes (index / 2)
    if index % 2 = 0 then pair / 16 else pair % 16

/-- The table of weights that leave a power of two for the last symbol. The longest codes come in
pairs. -/
def ofWeights? (weights : Array Nat) : Option Huffman :=
  let total := weights.foldl (fun sum weight => sum + (1 <<< weight) / 2) 0
  let log := total.log2 + 1
  let rest := (1 <<< log) - total
  let weights := weights.push (rest.log2 + 1)
  let deepest := weights.toList.count 1
  if total = 0 ∨ longestCode < log ∨ weights.any (longestCode < ·) then none
  else if rest ≠ 1 <<< rest.log2 ∨ deepest < 2 ∨ deepest % 2 = 1 then none
  else
    let indexed := weights.toList.zipIdx
    let entries := (List.range log).flatMap fun lower =>
      indexed.flatMap fun (weight, symbol) =>
        if weight = lower + 1 then
          List.replicate (1 <<< lower) (UInt8.ofNat symbol, log - lower)
        else []
    some ⟨log, entries.toArray⟩

/-- Reads a table's description at the start of some bytes, and gives the table with the size of the
description. -/
def read? (bytes : ByteArray) : Option (Huffman × Nat) := do
  let form := Bytes.byte bytes 0
  let size := if 128 ≤ form then (form - 127 + 1) / 2 else form
  if bytes.size < size + 1 then none
  let content := bytes.extract 1 (size + 1)
  let weights ← if 128 ≤ form then some (plainWeights content (form - 127))
    else codedWeights? content
  return (← ofWeights? weights, size + 1)

/-- Decodes a number of symbols, which must use the stream up. -/
def symbolsFrom? (table : Huffman) (bits : Bits) (out : ByteArray) :
    (count : Nat) → Option ByteArray
  | 0 => if bits.left = 0 then some out else none
  | count + 1 => do
    let (symbol, length) ← table.entries[bits.peek table.log]?
    let (_, bits) ← bits.take? length
    symbolsFrom? table bits (out.push symbol) count

def stream? (table : Huffman) (count : Nat) (bytes : ByteArray) (out : ByteArray) :
    Option ByteArray := do
  table.symbolsFrom? (← Bits.ofBytes? bytes) out count

/-- Decodes four streams that share the symbols evenly, but for the last one. The sizes of the first
three stand in front of them. -/
def fourStreams? (table : Huffman) (count : Nat) (bytes : ByteArray) : Option ByteArray := do
  if bytes.size < 10 then none
  let first := 6 + Bytes.little bytes 0 2
  let second := first + Bytes.little bytes 2 2
  let third := second + Bytes.little bytes 4 2
  let share := (count + 3) / 4
  if bytes.size < third ∨ count < 3 * share then none
  let out ← table.stream? share (bytes.extract 6 first) .empty
  let out ← table.stream? share (bytes.extract first second) out
  let out ← table.stream? share (bytes.extract second third) out
  table.stream? (count - 3 * share) (bytes.extract third bytes.size) out

end Huffman

end ValueScript.Zstd
