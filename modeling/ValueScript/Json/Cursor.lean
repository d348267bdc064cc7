import ValueScript.Json.ReadError

/-! Reading a text by position. An item that was read leads to a later position, which is why
reading comes to an end. -/

namespace ValueScript.Json

/-- The byte at a position, or none past the end. -/
def byteAt? (text : ByteArray) (index : Nat) : Option UInt8 :=
  if inside : index < text.size then some text[index] else none

theorem lt_size_of_byteAt? {text : ByteArray} {index : Nat} {byte : UInt8}
    (found : byteAt? text index = some byte) : index < text.size := by
  unfold byteAt? at found
  split at found
  next inside => exact inside
  next => simp at found

/-- An item that was read, and the later position where reading goes on. -/
structure Taken (α : Type) (start : Nat) where
  item : α
  next : Nat
  later : start < next

namespace Taken

variable {α β : Type} {start : Nat}

def since (earlier : Nat) (taken : Taken α start) (before : earlier ≤ start) : Taken α earlier :=
  ⟨taken.item, taken.next, Nat.lt_of_le_of_lt before taken.later⟩

def map (convert : α → β) (taken : Taken α start) : Taken β start :=
  ⟨convert taken.item, taken.next, taken.later⟩

end Taken

abbrev Reading (α : Type) (start : Nat) := Except ReadError (Taken α start)

/-- Space, tab, line feed and carriage return. -/
def isBlank (byte : UInt8) : Bool :=
  byte == 0x20 || byte == 0x09 || byte == 0x0a || byte == 0x0d

def digit? (byte : UInt8) : Option Nat :=
  if 0x30 ≤ byte ∧ byte ≤ 0x39 then some (byte.toNat - 0x30) else none

def hexDigit? (byte : UInt8) : Option Nat :=
  if 0x30 ≤ byte ∧ byte ≤ 0x39 then some (byte.toNat - 0x30)
  else if 0x41 ≤ byte ∧ byte ≤ 0x46 then some (byte.toNat - 0x41 + 10)
  else if 0x61 ≤ byte ∧ byte ≤ 0x66 then some (byte.toNat - 0x61 + 10)
  else none

/-- The first position at or after `index` that holds no byte of a class. -/
def skipWhile (accept : UInt8 → Bool) (text : ByteArray) (index : Nat) : Nat :=
  if inside : index < text.size then
    if accept text[index] then skipWhile accept text (index + 1) else index
  else index
termination_by text.size - index

theorem le_skipWhile (accept : UInt8 → Bool) (text : ByteArray) (index : Nat) :
    index ≤ skipWhile accept text index := by
  fun_induction skipWhile accept text index with
  | case1 index inside accepted ih => omega
  | case2 => exact Nat.le_refl _
  | case3 => exact Nat.le_refl _

/-- The first position at or after `index` that is not blank. -/
def skipBlanks (text : ByteArray) (index : Nat) : Nat := skipWhile isBlank text index

theorem le_skipBlanks (text : ByteArray) (index : Nat) : index ≤ skipBlanks text index :=
  le_skipWhile ..

def digitAt? (text : ByteArray) (index : Nat) : Option Nat := byteAt? text index >>= digit?

/-- The first position at or after `index` that holds no digit. -/
def skipDigits (text : ByteArray) (index : Nat) : Nat :=
  skipWhile (fun byte => (digit? byte).isSome) text index

theorem le_skipDigits (text : ByteArray) (index : Nat) : index ≤ skipDigits text index :=
  le_skipWhile ..

end ValueScript.Json
