import ValueScript.Zstd.Bits

/-! Entropy tables. A table is a list of states; each state stands for a symbol and tells how many
bits lead to the next state. -/

namespace ValueScript.Zstd

/-- A state: its symbol, and the next state as a base to which a number of that many bits is
added. -/
structure Entropy.Cell where
  symbol : Nat
  bits : Nat
  base : Nat

/-- A table of `2 ^ log` states. -/
structure Entropy where
  log : Nat
  cells : Array Entropy.Cell

namespace Entropy

/-- The state of a number; numbers past the table never arise from its own cells. -/
def cell (table : Entropy) (state : Nat) : Cell := table.cells[state]?.getD ⟨0, 0, 0⟩

/-- The table of a single symbol, which takes no bits. -/
def single (symbol : Nat) : Entropy := ⟨0, #[⟨symbol, 0, 0⟩]⟩

/-- How many states each symbol has, in the order of symbols. One state that is reached by a
symbol's full number of bits is written as minus one. -/
abbrev Counts := Array Int

/-- Reads pairs of bits: each full one stands for three more symbols without a state, and one that
is not full ends the run. Gives the number of symbols and the position after the run. -/
def zeroRun (bytes : ByteArray) (position : Nat) : Nat × Nat :=
  let pair := Bytes.field bytes position 2
  if position < 8 * bytes.size ∧ pair = 3 then
    let (more, next) := zeroRun bytes (position + 2)
    (more + 3, next)
  else (pair, position + 2)
termination_by 8 * bytes.size - position

/-- Reads one number below `remaining + 1` at a bit position, where the low ones take one bit less,
and gives it with the position after it. -/
def countAt (bytes : ByteArray) (position remaining : Nat) : Nat × Nat :=
  let bits := remaining.log2
  let spare := (1 <<< (bits + 1)) - 1 - remaining
  let low := Bytes.field bytes position bits
  let full := Bytes.field bytes position (bits + 1)
  if low < spare then (low, position + bits)
  else (if 1 <<< bits ≤ full then full - spare else full, position + bits + 1)

/-- Reads the counts of at most `room` further symbols until `remaining - 1` states are given away.
Gives none when the states outnumber the symbols or the other way round. -/
def countsFrom? (bytes : ByteArray) (room position remaining : Nat) (counts : Counts) :
    Option (Counts × Nat) :=
  match room with
  | 0 => none
  | room + 1 =>
    let (number, next) := countAt bytes position remaining
    let counts := counts.push (number - 1)
    let remaining := remaining - (if number = 0 then 1 else number - 1)
    if remaining ≤ 1 then if remaining = 1 then some (counts, next) else none
    else if number = 1 then
      let (zeros, after) := zeroRun bytes next
      countsFrom? bytes (room - zeros) after remaining (counts ++ Array.replicate zeros 0)
    else countsFrom? bytes room next remaining counts
termination_by room

/-- A number of states for each symbol, the logarithm of their sum, and the bytes that told it. -/
structure Description where
  counts : Counts
  log : Nat
  size : Nat

/-- Reads the description at the start of some bytes, for symbols up to `greatest` and tables of at
most `2 ^ longest` states. -/
def Description.read? (bytes : ByteArray) (greatest longest : Nat) : Option Description := do
  let log := Bytes.field bytes 0 4 + 5
  if longest < log then none
  let (counts, position) ← countsFrom? bytes (greatest + 1) 4 ((1 <<< log) + 1) #[]
  let size := (position + 7) / 8
  if bytes.size < size then none
  return ⟨counts, log, size⟩

/-- The symbols of the states. The symbols with a count of minus one take the last states, the first
of them the very last; the states of the others are dealt out in steps that visit each once. -/
def symbols (log : Nat) (counts : Counts) : Array Nat :=
  let size := 1 <<< log
  let step := size / 2 + size / 8 + 3
  let indexed := counts.toList.zipIdx
  let rare := (indexed.filter fun (count, _) => count == -1).map Prod.snd
  let dealt := indexed.flatMap fun (count, symbol) => List.replicate count.toNat symbol
  let places := ((List.range size).map fun turn => turn * step % size).filter
    (· < size - rare.length)
  let ends := (List.range rare.length).map fun turn => size - 1 - turn
  ((places.zip dealt) ++ (ends.zip rare)).foldl
    (fun symbols (place, symbol) => symbols.setIfInBounds place symbol) (Array.replicate size 0)

/-- Numbers the states of each symbol from its count on; the logarithm of that number tells the bits
and the base. -/
def ofCounts (log : Nat) (counts : Counts) : Entropy :=
  let firsts := counts.map Int.natAbs
  let (cells, _) := (symbols log counts).foldl (fun (cells, nexts) symbol =>
    let number := nexts[symbol]?.getD 1
    let bits := log - number.log2
    (cells.push ⟨symbol, bits, (number <<< bits) - (1 <<< log)⟩,
      nexts.setIfInBounds symbol (number + 1))) ((#[] : Array Cell), firsts)
  ⟨log, cells⟩

def start? (table : Entropy) (bits : Bits) : Option (Nat × Bits) := bits.take? table.log

def next? (table : Entropy) (state : Nat) (bits : Bits) : Option (Nat × Bits) := do
  let cell := table.cell state
  let (offset, bits) ← bits.take? cell.bits
  return (cell.base + offset, bits)

end Entropy

end ValueScript.Zstd
