import ValueScript.Json.Numeral
import ValueScript.Json.Quoted

/-! Reading documents. Lists and objects may nest up to a fixed depth, and of two members with one
key the place of the first and the value of the last are kept. -/

namespace ValueScript.Json

/-- How many lists and objects may be open at once. -/
def greatestNesting : Nat := 127

def word (text : ByteArray) {start : Nat} (index : Nat) (later : start < index) :
    List UInt8 → Reading Unit start
  | [] => .ok ⟨(), index, later⟩
  | letter :: rest =>
    match byteAt? text index with
    | none => .error (.after text text.size .endInValue)
    | some byte =>
      if byte = letter then word text (index + 1) (by omega) rest
      else .error (.after text (index + 1) .wordExpected)

def moreItems (item : (index : Nat) → Reading Json index) (text : ByteArray) {start : Nat}
    (index : Nat) (later : start < index) (items : Array Json) : Reading (List Json) start :=
  let next := skipBlanks text index
  have past := le_skipBlanks text index
  match found : byteAt? text next with
  | none => .error (.here text next .endInList)
  | some 0x5d => .ok ⟨items.toList, next + 1, by omega⟩
  | some 0x2c =>
    have inside := lt_size_of_byteAt? found
    let place := skipBlanks text (next + 1)
    have further := le_skipBlanks text (next + 1)
    if byteAt? text place = some 0x5d then .error (.here text place .trailingComma)
    else
      match item place with
      | .error error => .error error
      | .ok taken =>
        have latest := taken.later
        moreItems item text taken.next (by omega) (items.push taken.item)
  | some _ => .error (.here text next .listSeparatorExpected)
termination_by text.size - index

def list (item : (index : Nat) → Reading Json index) (text : ByteArray) (start : Nat) :
    Reading (List Json) start :=
  let first := skipBlanks text start
  have past := le_skipBlanks text start
  match byteAt? text first with
  | none => .error (.here text first .endInList)
  | some 0x5d => .ok ⟨[], first + 1, by omega⟩
  | some _ =>
    match item first with
    | .error error => .error error
    | .ok taken =>
      have later := taken.later
      moreItems item text taken.next (by omega) #[taken.item]

/-- Reads a member after the opening quote of its key. -/
def member (item : (index : Nat) → Reading Json index) (text : ByteArray) (start : Nat) :
    Reading (String × Json) start := do
  let key ← quoted text start
  let colon := skipBlanks text key.next
  have past := le_skipBlanks text key.next
  have later := key.later
  match byteAt? text colon with
  | none => throw (.here text colon .endInObject)
  | some 0x3a =>
    let value ← item (colon + 1)
    have latest := value.later
    return ⟨(key.item, value.item), value.next, by omega⟩
  | some _ => throw (.here text colon .colonExpected)

def moreMembers (item : (index : Nat) → Reading Json index) (text : ByteArray) {start : Nat}
    (index : Nat) (later : start < index) (members : Array (String × Json)) :
    Reading (List (String × Json)) start :=
  let next := skipBlanks text index
  have past := le_skipBlanks text index
  match found : byteAt? text next with
  | none => .error (.here text next .endInObject)
  | some 0x7d => .ok ⟨members.toList, next + 1, by omega⟩
  | some 0x2c =>
    have inside := lt_size_of_byteAt? found
    let place := skipBlanks text (next + 1)
    have further := le_skipBlanks text (next + 1)
    match byteAt? text place with
    | none => .error (.here text place .endInValue)
    | some 0x7d => .error (.here text place .trailingComma)
    | some 0x22 =>
      match member item text (place + 1) with
      | .error error => .error error
      | .ok taken =>
        have latest := taken.later
        moreMembers item text taken.next (by omega) (members.push taken.item)
    | some _ => .error (.here text place .keyNotString)
  | some _ => .error (.here text next .objectSeparatorExpected)
termination_by text.size - index

/-- Reads the members of an object after its opening brace, repeated keys included. -/
def membersOf (item : (index : Nat) → Reading Json index) (text : ByteArray) (start : Nat) :
    Reading (List (String × Json)) start :=
  let first := skipBlanks text start
  have past := le_skipBlanks text start
  match byteAt? text first with
  | none => .error (.here text first .endInObject)
  | some 0x7d => .ok ⟨[], first + 1, by omega⟩
  | some 0x22 =>
    match member item text (first + 1) with
    | .error error => .error error
    | .ok taken =>
      have later := taken.later
      moreMembers item text taken.next (by omega) #[taken.item]
  | some _ => .error (.here text first .keyNotString)

/-- Reads a value that may open `nesting` lists and objects inside each other, with what is kept of
the members of each object. -/
def valueWith (keep : List (String × Json) → List (String × Json)) (text : ByteArray) (nesting : Nat)
    (start : Nat) : Reading Json start :=
  let first := skipBlanks text start
  have past : start < first + 1 := Nat.lt_succ_of_le (le_skipBlanks text start)
  match byteAt? text first with
  | none => .error (.here text first .endInValue)
  | some 0x6e => do
    return (← word text (first + 1) past [0x75, 0x6c, 0x6c]).map fun _ => .null
  | some 0x74 => do
    return (← word text (first + 1) past [0x72, 0x75, 0x65]).map fun _ => .bool true
  | some 0x66 => do
    return (← word text (first + 1) past [0x61, 0x6c, 0x73, 0x65]).map fun _ => .bool false
  | some 0x2d => do
    return ((← numeral true text (first + 1)).map .number).since start (Nat.le_of_lt past)
  | some 0x22 => do
    return ((← quoted text (first + 1)).map .string).since start (Nat.le_of_lt past)
  | some 0x5b =>
    match nesting with
    | 0 => .error (.here text first .nestingTooDeep)
    | nesting + 1 => do
      let taken ← list (valueWith keep text nesting) text (first + 1)
      return (taken.map .array).since start (Nat.le_of_lt past)
  | some 0x7b =>
    match nesting with
    | 0 => .error (.here text first .nestingTooDeep)
    | nesting + 1 => do
      let taken ← membersOf (valueWith keep text nesting) text (first + 1)
      return (taken.map (.object ∘ keep)).since start (Nat.le_of_lt past)
  | some byte =>
    if (digit? byte).isSome then do
      return ((← numeral false text first).map .number).since start (le_skipBlanks text start)
    else .error (.here text first .valueExpected)

/-- Reads a value, with one member for each key. -/
def value (text : ByteArray) (nesting : Nat) (start : Nat) : Reading Json start :=
  valueWith Fields.ofMembers text nesting start

/-- Reads a document: one value with nothing but blanks around it. -/
def readWith (keep : List (String × Json) → List (String × Json)) (text : ByteArray) :
    Except ReadError Json := do
  let taken ← valueWith keep text greatestNesting 0
  let last := skipBlanks text taken.next
  if last < text.size then throw (.here text last .trailingCharacters)
  else return taken.item

/-- Reads a document, with one member for each key. -/
def read (text : ByteArray) : Except ReadError Json := readWith Fields.ofMembers text

end ValueScript.Json
