import ValueScript.Json.Cursor

/-! Reading strings. Escapes are resolved to bytes, and the bytes are checked to be UTF-8 when the
closing quote is met. -/

namespace ValueScript.Json

/-- The length of the longest start of `bytes` that is UTF-8, of which `index` bytes are known. -/
def validLength (bytes : ByteArray) (index : Nat) : Nat :=
  if index < bytes.size then
    match bytes.utf8DecodeChar? index with
    | some char => validLength bytes (index + char.utf8Size)
    | none => index
  else index
termination_by bytes.size - index
decreasing_by have := char.utf8Size_pos; omega

def hexQuad (text : ByteArray) (start : Nat) : Reading Nat start :=
  match byteAt? text start, byteAt? text (start + 1), byteAt? text (start + 2),
      byteAt? text (start + 3) with
  | some a, some b, some c, some d =>
    match hexDigit? a, hexDigit? b, hexDigit? c, hexDigit? d with
    | some a, some b, some c, some d =>
      .ok ⟨((a * 16 + b) * 16 + c) * 16 + d, start + 4, by omega⟩
    | _, _, _, _ => .error (.after text (start + 4) .invalidEscape)
  | _, _, _, _ => .error (.after text text.size .endInString)

/-- Reads the digits of a `u` escape. A leading surrogate needs a second escape with a trailing
one, and the two stand for one character. -/
def unicodeEscape (text : ByteArray) (start : Nat) : Reading Char start := do
  let first ← hexQuad text start
  let unit := first.item
  have later := first.later
  if 0xdc00 ≤ unit ∧ unit ≤ 0xdfff then
    throw (.after text first.next .loneSurrogate)
  else if unit < 0xd800 ∨ 0xdbff < unit then
    return ⟨Char.ofNat unit, first.next, later⟩
  else
    match byteAt? text first.next, byteAt? text (first.next + 1) with
    | none, _ => throw (.after text text.size .endInString)
    | some 0x5c, none => throw (.after text text.size .endInString)
    | some 0x5c, some 0x75 =>
      let second ← hexQuad text (first.next + 2)
      have latest := second.later
      if 0xdc00 ≤ second.item ∧ second.item ≤ 0xdfff then
        let char := Char.ofNat (0x10000 + (unit - 0xd800) * 0x400 + (second.item - 0xdc00))
        return ⟨char, second.next, by omega⟩
      else throw (.after text second.next .loneSurrogate)
    | some 0x5c, some _ => throw (.after text (first.next + 2) .surrogateUnfinished)
    | some _, _ => throw (.after text (first.next + 1) .surrogateUnfinished)

def escape (text : ByteArray) (start : Nat) : Reading Char start :=
  let one (char : Char) : Reading Char start := .ok ⟨char, start + 1, by omega⟩
  match byteAt? text start with
  | none => .error (.after text text.size .endInString)
  | some 0x22 => one '"'
  | some 0x5c => one '\\'
  | some 0x2f => one '/'
  | some 0x62 => one '\x08'
  | some 0x66 => one '\x0c'
  | some 0x6e => one '\n'
  | some 0x72 => one '\r'
  | some 0x74 => one '\t'
  | some 0x75 => do return (← unicodeEscape text (start + 1)).since start (by omega)
  | some _ => .error (.after text (start + 1) .invalidEscape)

/-- The string that gathered bytes make, once the quote at `index` closed it. The column of a
failure counts from the first byte that is no UTF-8, as if no escape had been shortened. -/
def close (text : ByteArray) {start : Nat} (index : Nat) (inside : start ≤ index)
    (gathered : ByteArray) : Reading String start :=
  match String.fromUTF8? gathered with
  | some content => .ok ⟨content, index + 1, Nat.lt_succ_of_le inside⟩
  | none =>
    let error := ReadError.after text (index + 1) .invalidUnicode
    .error { error with column := error.column - (gathered.size - validLength gathered 0) }

/-- Reads the rest of a string from `index`, where the bytes before it are gathered. -/
def quotedRest (text : ByteArray) {start : Nat} (index : Nat) (inside : start ≤ index)
    (gathered : ByteArray) : Reading String start :=
  match found : byteAt? text index with
  | none => .error (.after text text.size .endInString)
  | some byte =>
    have before := lt_size_of_byteAt? found
    if byte = 0x22 then close text index inside gathered
    else if byte = 0x5c then
      match escape text (index + 1) with
      | .error error => .error error
      | .ok char =>
        have later := char.later
        quotedRest text char.next (by omega) (gathered ++ char.item.toString.toUTF8)
    else if byte < 0x20 then .error (.after text (index + 1) .controlCharacter)
    else quotedRest text (index + 1) (by omega) (gathered.push byte)
termination_by text.size - index

def quoted (text : ByteArray) (start : Nat) : Reading String start :=
  quotedRest text start (Nat.le_refl start) .empty

end ValueScript.Json
