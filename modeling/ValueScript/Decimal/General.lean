import ValueScript.Trailing
import ValueScript.Decimal.Rounding

/-! Decimal text in general notation: positional for moderate exponents, else with a power of ten,
and in both cases without zeros at the end of the fraction. -/

namespace ValueScript.Decimal

/-- The lowest `places` digits of a number, zeros included. -/
def lowDigits : (places number : Nat) → List Char
  | 0, _ => []
  | places + 1, number => lowDigits places (number / 10) ++ [Nat.digitChar (number % 10)]

/-- The text of `units / 10 ^ places` without zeros at the end of its fraction, and without a point
when no fraction is left. -/
def pointed (places units : Nat) : List Char :=
  let whole := Nat.toDigits 10 (units / Nat.pow 10 places)
  match dropTrailing (· == '0') (lowDigits places units) with
  | [] => whole
  | fraction => whole ++ '.' :: fraction

/-- An exponent with its sign and at least two digits. -/
def exponentText (exponent : Int) : List Char :=
  let sign := if exponent < 0 then '-' else '+'
  let size := exponent.natAbs
  sign :: if size < 10 then ['0', Nat.digitChar size] else Nat.toDigits 10 size

/-- The text of a positive quotient rounded to `places` digits. It is positional when the exponent
of its first digit is at least minus four and less than `places`. -/
def general (places num den : Nat) : List Char :=
  let rounded := significant places num den
  if -4 ≤ rounded.exponent ∧ rounded.exponent < places then
    let decimals := (places : Int) - 1 - rounded.exponent
    pointed decimals.toNat (scaled num den decimals)
  else
    pointed (places - 1) rounded.digits ++ 'e' :: exponentText rounded.exponent

end ValueScript.Decimal
