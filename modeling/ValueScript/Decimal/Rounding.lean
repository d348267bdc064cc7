/-! Decimal rounding of positive quotients. A quotient is rounded to the nearest integer and a tie
goes to the even neighbour. -/

namespace ValueScript.Decimal

/-- The integer nearest to a quotient; of two that are equally near, the even one. -/
def roundEven (num den : Nat) : Nat :=
  let whole := num / den
  let twice := 2 * (num % den)
  if twice < den then whole
  else if den < twice then whole + 1
  else if whole % 2 = 0 then whole
  else whole + 1

/-- The rounded quotient is within half a unit of the exact one. -/
theorem roundEven_near (num den : Nat) (positive : 0 < den) :
    2 * (den * roundEven num den) ≤ 2 * num + den ∧
      2 * num ≤ 2 * (den * roundEven num den) + den := by
  have whole : den * (num / den) + num % den = num := Nat.div_add_mod num den
  have small : num % den < den := Nat.mod_lt _ positive
  have next : den * (num / den + 1) = den * (num / den) + den := Nat.mul_succ ..
  unfold roundEven
  dsimp only
  split
  · omega
  · split
    · omega
    · split <;> omega

/-- How many decimal digits a number has; zero has one. -/
def width (number : Nat) : Nat :=
  if number < 10 then 1 else width (number / 10) + 1
termination_by number
decreasing_by omega

/-- A number lies below the power of ten of its width. -/
theorem lt_pow_width (number : Nat) : number < Nat.pow 10 (width number) := by
  fun_induction width number with
  | case1 number small => omega
  | case2 number large ih =>
    have step : Nat.pow 10 (width (number / 10) + 1) = Nat.pow 10 (width (number / 10)) * 10 := rfl
    omega

/-- A positive number is not below the next smaller power of ten. -/
theorem pow_width_le (number : Nat) (positive : 0 < number) :
    Nat.pow 10 (width number - 1) ≤ number := by
  fun_induction width number with
  | case1 number small => simp; omega
  | case2 number large ih =>
    have step := ih (by omega)
    have widthPositive : 0 < width (number / 10) := by rw [width]; split <;> omega
    obtain ⟨less, same⟩ : ∃ less, width (number / 10) = less + 1 := ⟨_, (Nat.succ_pred_eq_of_pos
      widthPositive).symm⟩
    rw [same, Nat.add_sub_cancel] at step ⊢
    have split : Nat.pow 10 (less + 1) = Nat.pow 10 less * 10 := rfl
    omega

/-- The greatest exponent whose power of ten does not exceed the quotient of two positive
numbers. -/
def exponent (num den : Nat) : Int :=
  if den ≤ num then (width (num / den) : Int) - 1 else -(width ((den - 1) / num) : Int)

/-- The quotient times a power of ten, rounded to an integer. -/
def scaled (num den : Nat) : (power : Int) → Nat
  | .ofNat power => roundEven (num * Nat.pow 10 power) den
  | .negSucc power => roundEven num (den * Nat.pow 10 (power + 1))

/-- A decimal of a fixed number of digits: the digits as one number, and the exponent of the first
of them. -/
structure Scientific where
  digits : Nat
  exponent : Int
  deriving DecidableEq, Repr

/-- The quotient rounded to `places` digits, at least one. Rounding up to the next power of ten
raises the exponent instead of adding a digit. -/
def significant (places num den : Nat) : Scientific :=
  let first := exponent num den
  let digits := scaled num den ((places : Int) - 1 - first)
  if digits = Nat.pow 10 places then ⟨Nat.pow 10 (places - 1), first + 1⟩ else ⟨digits, first⟩

end ValueScript.Decimal
