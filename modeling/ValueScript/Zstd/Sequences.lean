import ValueScript.Zstd.Literals

/-! Sequences of a compressed block. Each takes some of the literals and then repeats content that
came before. Three entropy streams are woven into one: the codes of literal counts, of distances and
of repeat lengths. -/

namespace ValueScript.Zstd

/-- A number told by a code: the least number with the code and the bits that are added to it. -/
abbrev CodeRange := Nat × Nat

/-- The ranges that start at `first` and follow each other with these numbers of bits. -/
def CodeRange.follow (first : Nat) : List Nat → List CodeRange
  | [] => []
  | bits :: rest => (first, bits) :: follow (first + (1 <<< bits)) rest

def literalRanges : Array CodeRange :=
  (CodeRange.follow 0 (List.replicate 16 0 ++
    [1, 1, 1, 1, 2, 2, 3, 3, 4, 6, 7, 8, 9, 10, 11, 12, 13, 14, 15, 16])).toArray

def lengthRanges : Array CodeRange :=
  (CodeRange.follow 3 (List.replicate 32 0 ++
    [1, 1, 1, 1, 2, 2, 3, 3, 4, 4, 5, 7, 8, 9, 10, 11, 12, 13, 14, 15, 16])).toArray

def defaultLiteralTable : Entropy :=
  Entropy.ofCounts 6 #[4, 3, 2, 2, 2, 2, 2, 2, 2, 2, 2, 2, 2, 1, 1, 1, 2, 2, 2, 2, 2, 2, 2, 2, 2, 3,
    2, 1, 1, 1, 1, 1, -1, -1, -1, -1]

def defaultDistanceTable : Entropy :=
  Entropy.ofCounts 5 #[1, 1, 1, 1, 1, 1, 2, 2, 2, 1, 1, 1, 1, 1, 1, 1, 1, 1, 1, 1, 1, 1, 1, 1, -1,
    -1, -1, -1, -1]

def defaultLengthTable : Entropy :=
  Entropy.ofCounts 6 #[1, 4, 3, 2, 2, 2, 2, 2, 2, 1, 1, 1, 1, 1, 1, 1, 1, 1, 1, 1, 1, 1, 1, 1, 1, 1,
    1, 1, 1, 1, 1, 1, 1, 1, 1, 1, 1, 1, 1, 1, 1, 1, 1, 1, 1, 1, -1, -1, -1, -1, -1, -1, -1]

structure SequenceTables where
  literals : Entropy
  distances : Entropy
  lengths : Entropy

/-- The three distances used last, most recent first. -/
structure Distances where
  first : Nat
  second : Nat
  third : Nat

namespace Distances

def initial : Distances := ⟨1, 4, 8⟩

/-- The distance of a number, and the distances used last after it. Numbers above three tell a
distance; lower ones pick a recent one, and the next one after it when no literal comes between. -/
def resolve (recent : Distances) (number : Nat) (noLiterals : Bool) : Nat × Distances :=
  if 3 < number then (number - 3, ⟨number - 3, recent.first, recent.second⟩)
  else
    match number - 1 + (if noLiterals then 1 else 0) with
    | 0 => (recent.first, recent)
    | 1 => (recent.second, ⟨recent.second, recent.first, recent.third⟩)
    | 2 => (recent.third, ⟨recent.third, recent.first, recent.second⟩)
    | _ => (recent.first - 1, ⟨recent.first - 1, recent.first, recent.second⟩)

end Distances

namespace Sequences

/-- Reads how many sequences there are, and gives the number with the position after it. -/
def count (content : ByteArray) (start : Nat) : Except Fault (Nat × Nat) :=
  let first := Bytes.byte content start
  if content.size ≤ start then .error .sourceSize
  else if first < 0x80 then .ok (first, start + 1)
  else if first < 0xff then
    if content.size < start + 2 then .error .sourceSize
    else .ok ((first - 0x80) * 256 + Bytes.byte content (start + 1), start + 2)
  else if content.size < start + 3 then .error .sourceSize
  else .ok (0x7f00 + Bytes.little content (start + 1) 2, start + 3)

/-- Reads a table: the default one, that of a single symbol, a described one, or the one that was
used last. Gives the position after it. -/
def table? (content : ByteArray) (form start greatest longest : Nat) (default : Entropy)
    (last : Option Entropy) : Option (Entropy × Nat) :=
  match form with
  | 0 => some (default, start)
  | 1 =>
    let symbol := Bytes.byte content start
    if content.size ≤ start ∨ greatest < symbol then none else some (.single symbol, start + 1)
  | 2 => do
    let description ←
      Entropy.Description.read? (content.extract start content.size) greatest longest
    return (.ofCounts description.log description.counts, start + description.size)
  | _ => do return (← last, start)

/-- Reads the three tables, and gives the position after them. -/
def tables? (content : ByteArray) (start : Nat) (last : Option SequenceTables) :
    Option (SequenceTables × Nat) := do
  let forms := Bytes.byte content start
  if forms % 4 ≠ 0 then none
  let (literals, next) ← table? content (forms / 64) (start + 1) 35 9 defaultLiteralTable
    (last.map (·.literals))
  let (distances, next) ← table? content (forms / 16 % 4) next 31 8 defaultDistanceTable
    (last.map (·.distances))
  let (lengths, next) ← table? content (forms / 4 % 4) next 52 9 defaultLengthTable
    (last.map (·.lengths))
  return (⟨literals, distances, lengths⟩, next)

/-- The three streams and the content so far. -/
structure Run where
  bits : Bits
  literalState : Nat
  distanceState : Nat
  lengthState : Nat
  recent : Distances
  used : Nat
  content : ByteArray

def number? (range : CodeRange) (bits : Bits) : Option (Nat × Bits) := do
  let (more, bits) ← bits.take? range.2
  return (range.1 + more, bits)

/-- The state after the numbers of a sequence, before the content is extended: the distance, the
repeat length and the literal count. -/
def numbers? (tables : SequenceTables) (run : Run) : Option (Nat × Nat × Nat × Run) := do
  let distanceCode := (tables.distances.cell run.distanceState).symbol
  let lengthCode := (tables.lengths.cell run.lengthState).symbol
  let literalCode := (tables.literals.cell run.literalState).symbol
  let (number, bits) ← number? (1 <<< distanceCode, distanceCode) run.bits
  let (length, bits) ← number? (← lengthRanges[lengthCode]?) bits
  let (literals, bits) ← number? (← literalRanges[literalCode]?) bits
  let (distance, recent) := run.recent.resolve number (literalCode == 0)
  return (distance, length, literals, { run with bits, recent })

def next? (tables : SequenceTables) (run : Run) : Option Run := do
  let (literalState, bits) ← tables.literals.next? run.literalState run.bits
  let (lengthState, bits) ← tables.lengths.next? run.lengthState bits
  let (distanceState, bits) ← tables.distances.next? run.distanceState bits
  return { run with bits, literalState, lengthState, distanceState }

/-- Extends the content by literals and by a repeat of what came before. -/
def extend (literals : ByteArray) (most distance length count : Nat) (run : Run) :
    Except Fault Run :=
  if most < run.content.size + count + length then .error .outputTooSmall
  else if literals.size < run.used + count then .error .corrupted
  else if distance = 0 ∨ run.content.size + count < distance then .error .corrupted
  else
    let ⟨bits, literalState, distanceState, lengthState, recent, used, content⟩ := run
    let content := content ++ literals.extract used (used + count)
    .ok ⟨bits, literalState, distanceState, lengthState, recent, used + count,
      Bytes.pushBack distance length content⟩

/-- Runs a number of sequences. The streams move on between them but not after the last one. -/
def run (tables : SequenceTables) (literals : ByteArray) (most : Nat) :
    (count : Nat) → Run → Except Fault Run
  | 0, run => .ok run
  | rest + 1, state => do
    let some (distance, length, count, state) := numbers? tables state | throw .corrupted
    let state ← extend literals most distance length count state
    match rest with
    | 0 => return state
    | _ + 1 =>
      let some state := next? tables state | throw .corrupted
      run tables literals most rest state

def begin? (tables : SequenceTables) (stream : ByteArray) (recent : Distances)
    (content : ByteArray) : Option Run := do
  let bits ← Bits.ofBytes? stream
  let (literalState, bits) ← tables.literals.start? bits
  let (distanceState, bits) ← tables.distances.start? bits
  let (lengthState, bits) ← tables.lengths.start? bits
  return ⟨bits, literalState, distanceState, lengthState, recent, 0, content⟩

end Sequences

end ValueScript.Zstd
