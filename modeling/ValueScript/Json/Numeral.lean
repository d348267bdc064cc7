import ValueScript.Json.Basic
import ValueScript.Json.Cursor

/-! Reading numbers. The digits of a number make a significand of at most 64 bits, further ones only
move its exponent, and one operation on doubles applies the power of ten. -/

namespace ValueScript.Json

theorem lt_size_of_digitAt? {text : ByteArray} {index digit : Nat}
    (found : digitAt? text index = some digit) : index < text.size := by
  unfold digitAt? at found
  match here : byteAt? text index with
  | some byte => exact lt_size_of_byteAt? here
  | none => simp [here] at found

/-- Appends the digits at `index` to a number while it stays below a bound, and gives the position
of the first digit that does not fit or the first byte that is no digit. -/
def gather (bound : Nat) (text : ByteArray) (number index : Nat) : Nat × Nat :=
  match found : digitAt? text index with
  | some digit =>
    let longer := 10 * number + digit
    if longer < bound then gather bound text longer (index + 1) else (number, index)
  | none => (number, index)
termination_by text.size - index
decreasing_by have := lt_size_of_digitAt? found; omega

theorem le_gather (bound : Nat) (text : ByteArray) (number index : Nat) :
    index ≤ (gather bound text number index).2 := by
  fun_induction gather bound text number index with
  | case1 number index digit found longer fits ih => omega
  | case2 => exact Nat.le_refl _
  | case3 => exact Nat.le_refl _

/-- Significands stay below this bound. -/
def significandBound : Nat := 0x10000000000000000

/-- Exponents that are written out stay below this bound. -/
def exponentBound : Nat := 0x80000000

/-- The greatest power of ten that is a double. -/
def greatestPower : Nat := 308

/-- A number times a power of ten, or none when that is infinite. Below the least power the number
is divided in steps. -/
def scale (number : Float) (exponent : Int) : Option Float :=
  if exponent.natAbs ≤ greatestPower then
    let power := Float.ofScientific 1 false exponent.natAbs
    if 0 ≤ exponent then
      let product := number * power
      if product.isInf then none else some product
    else some (number / power)
  else if number == 0 then some number
  else if 0 ≤ exponent then none
  else scale (number / Float.ofScientific 1 false greatestPower) (exponent + greatestPower)
termination_by (-exponent).toNat
decreasing_by simp only [greatestPower] at *; omega

def signed (negative : Bool) (number : Float) : Float := if negative then -number else number

/-- A number of which all but its sign and power of ten is read. -/
structure Unscaled where
  negative : Bool
  significand : Nat
  exponent : Int

namespace Unscaled

/-- The double, or the problem that it is out of range once the first `next` bytes are read. -/
def finish (number : Unscaled) (text : ByteArray) {start : Nat} (next : Nat)
    (later : start < next) : Reading Float start :=
  match scale (Float.ofNat number.significand) number.exponent with
  | some size => .ok ⟨signed number.negative size, next, later⟩
  | none => .error (.after text next .numberOutOfRange)

/-- Reads the power of ten whose letter stands at `start`. A power of more than 31 bits makes zero
of the number, unless it is a positive power of a number that is not zero already. -/
def exponentPart (number : Unscaled) (text : ByteArray) (start : Nat) : Reading Float start :=
  let sign := byteAt? text (start + 1)
  let down := sign == some 0x2d
  let first := if down || sign == some 0x2b then start + 2 else start + 1
  have after : start < first := by dsimp only [first]; split <;> omega
  match byteAt? text first with
  | none => .error (.after text first .endInValue)
  | some byte =>
    match digit? byte with
    | none => .error (.after text (first + 1) .invalidNumber)
    | some digit =>
      let power := gather exponentBound text digit (first + 1)
      have beyond : first + 1 ≤ power.2 := le_gather ..
      if (digitAt? text power.2).isSome then
        if number.significand ≠ 0 ∧ !down then
          .error (.after text (power.2 + 1) .numberOutOfRange)
        else
          have past := le_skipDigits text power.2
          .ok ⟨signed number.negative 0, skipDigits text power.2, by omega⟩
      else
        let exponent := if down then number.exponent - power.1 else number.exponent + power.1
        finish { number with exponent } text power.2 (by omega)

/-- Reads the power of ten at `index`, if there is one. -/
def tail (number : Unscaled) (text : ByteArray) {start : Nat} (index : Nat)
    (later : start < index) : Reading Float start :=
  if byteAt? text index = some 0x65 ∨ byteAt? text index = some 0x45 then do
    return (← number.exponentPart text index).since start (Nat.le_of_lt later)
  else number.finish text index later

/-- Reads the fraction whose point stands at `start`, and what follows it. Digits that do not fit
are left out. -/
def fractionPart (number : Unscaled) (text : ByteArray) (start : Nat) : Reading Float start :=
  let fraction := gather significandBound text number.significand (start + 1)
  have beyond : start + 1 ≤ fraction.2 := le_gather ..
  if fraction.2 = start + 1 ∧ digitAt? text fraction.2 = none then
    let problem := if fraction.2 < text.size then .invalidNumber else .endInValue
    .error (.here text fraction.2 problem)
  else
    have past := le_skipDigits text fraction.2
    let places := fraction.2 - (start + 1)
    tail ⟨number.negative, fraction.1, number.exponent - places⟩ text (skipDigits text fraction.2)
      (by omega)

end Unscaled

/-- An integer as it is kept: zero with a sign and negative numbers of more than 64 bits are
doubles. -/
def integer (negative : Bool) (significand : Nat) : Number :=
  if negative then
    if significand = 0 ∨ 0x8000000000000000 < significand then .float (-(Float.ofNat significand))
    else .int (-significand)
  else .int significand

/-- Reads a number whose sign was read before. No digit follows a leading zero. -/
def numeral (negative : Bool) (text : ByteArray) (start : Nat) : Reading Number start :=
  match byteAt? text start with
  | none => .error (.after text start .endInValue)
  | some byte =>
    match digit? byte with
    | none => .error (.after text (start + 1) .invalidNumber)
    | some digit =>
      if digit = 0 ∧ (digitAt? text (start + 1)).isSome then
        .error (.here text (start + 1) .invalidNumber)
      else do
        let whole := gather significandBound text digit (start + 1)
        let last := skipDigits text whole.2
        have beyond : start + 1 ≤ last := Nat.le_trans (le_gather ..) (le_skipDigits ..)
        let number : Unscaled := ⟨negative, whole.1, last - whole.2⟩
        match byteAt? text last with
        | some 0x2e =>
          return (← number.fractionPart text last).map .float |>.since start (Nat.le_of_lt beyond)
        | some 0x65 | some 0x45 =>
          return (← number.exponentPart text last).map .float |>.since start (Nat.le_of_lt beyond)
        | _ =>
          if last = whole.2 then return ⟨integer negative whole.1, last, beyond⟩
          else return (← number.finish text last beyond).map .float

end ValueScript.Json
