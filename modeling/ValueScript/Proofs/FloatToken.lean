import ValueScript.Proofs.Binary
import ValueScript.Proofs.Decimal.Spelling
import ValueScript.Token

/-! Tokens of floating point numbers. A finite number is rounded once, to six significant digits,
and the token stands for the rounded number. -/

namespace ValueScript

open Decimal

namespace Token

/-- What general notation with `places` significant digits promises of the token of an exact number
that was rounded. -/
structure General (places : ℕ) (exact rounded : ℚ) (token : List Char) : Prop where
  denotes : number? token = some rounded
  signed : token.head? = some '-' ↔ exact < 0
  form : ∃ size, token = sign (exact < 0) ++ size ∧ GeneralForm places |rounded| size
  /-- The token is spelled by way of two texts, and none of the steps between them fails. -/
  spelled : spell places exact = .ok token
  /-- With the decimals that the exponent leaves, the fixed text has the digits of the scientific
  text. -/
  again : ∀ decimals : ℕ, (decimals : ℤ) = places - 1 - Int.log 10 |rounded| →
    ∃ mantissa power, cut? 'e' (scientificText places exact) = some (mantissa, power) ∧
      digitsOf (fixedText decimals exact) = digitsOf mantissa

variable {places : ℕ} {exact : ℚ}

private theorem rounded_of_size {size : ℚ} (rounded : Rounded places |exact| size) :
    Rounded places exact (if exact < 0 then -size else size) := by
  split
  next negative =>
    have mirrored := rounded.neg
    rwa [abs_of_neg negative, neg_neg] at mirrored
  next positive => rwa [abs_of_nonneg (not_lt.mp positive)] at rounded

private theorem abs_of_size (exact : ℚ) {size : ℚ} (positive : 0 < size) :
    |if exact < 0 then -size else size| = size := by
  split
  · rw [abs_neg, abs_of_pos positive]
  · exact abs_of_pos positive

private theorem number?_sign (exact : ℚ) {text : List Char} {size : ℚ} (read : size? text = some size)
    (digit : ∃ first rest, text = first :: rest ∧ first.isDigit = true) :
    number? (sign (exact < 0) ++ text) = some (if exact < 0 then -size else size) ∧
      ((sign (exact < 0) ++ text).head? = some '-' ↔ exact < 0) := by
  obtain ⟨first, rest, rfl, decimal⟩ := digit
  have unsigned : first ≠ '-' := by
    rintro rfl
    cases decimal
  unfold sign
  split
  next negative => simp [number?, read, negative]
  next positive => simp [number?, read, unsigned, positive]

theorem general_of_ne_zero (any : 0 < places) (nonzero : exact ≠ 0)
    (moderate : -2 ^ 31 ≤ Int.log 10 |exact| ∧ Int.log 10 |exact| + 1 < 2 ^ 31) :
    ∃ rounded, Rounded places exact rounded ∧
      General places exact rounded
        (sign (exact < 0) ++ general places exact.num.natAbs exact.den) := by
  have positive : 0 < exact.num.natAbs := Int.natAbs_pos.mpr (Rat.num_ne_zero.mpr nonzero)
  have scale := exact.den_pos
  have full := significant_full any positive scale
  have form := generalForm_general any positive scale
  have rounded := rounded_significant any positive scale
  rw [abs_eq_div] at rounded
  have size := abs_of_size exact (Scientific.value_pos full)
  obtain ⟨denotes, signed⟩ :=
    number?_sign exact (size?_general _ any scale) form.head_digit
  refine ⟨_, rounded_of_size rounded, denotes, signed, ⟨_, rfl, ?_⟩, spell_eq nonzero moderate, ?_⟩
  · rw [size]
    exact form
  · intro decimals enough
    rw [size, Scientific.log_value any full] at enough
    refine ⟨_, _, cut?_scientificText places exact, ?_⟩
    rw [digitsOf_fixedText any enough, digitsOf_padded]

variable {number : Float} {negative : Bool} {mantissa : ℕ} {exponent : ℤ}

/-- The token depends on the number only, not on the quotient that it is computed from. -/
private theorem toList_float (known : Binary.ofFloat number = .finite negative mantissa exponent)
    (value : (Binary.finite negative mantissa exponent).value? = some exact) (nonzero : exact ≠ 0) :
    (float number).toList =
      sign (exact < 0) ++ general floatDigits exact.num.natAbs exact.den := by
  have positive := (Binary.bounds_of_ofBits known).1
  obtain ⟨below, size⟩ := Binary.sign_and_size positive value
  have same : general floatDigits (Binary.numerator mantissa exponent)
      (Binary.denominator exponent) = general floatDigits exact.num.natAbs exact.den := by
    apply general_congr (Binary.numerator_pos positive exponent)
      (Int.natAbs_pos.mpr (Rat.num_ne_zero.mpr nonzero)) (Binary.denominator_pos exponent)
      exact.den_pos
    rw [Binary.numerator_div_denominator, abs_eq_div, size]
  simp only [float, known, String.toList_ofList, same, sign, below]
  cases negative <;> rfl

/-- The token of a finite double that is not zero stands for the double rounded to six significant
digits, in general notation. -/
theorem float_rounded (number : Float) {exact : ℚ}
    (finite : (Binary.ofFloat number).value? = some exact) (nonzero : exact ≠ 0) :
    ∃ rounded, Rounded floatDigits exact rounded ∧
      General floatDigits exact rounded (float number).toList := by
  obtain ⟨negative, mantissa, exponent, known⟩ := Binary.eq_finite finite nonzero
  rw [known] at finite
  obtain ⟨positive, most, low, high⟩ := Binary.bounds_of_ofBits known
  obtain ⟨least, greatest⟩ := Binary.log_bounds positive most low high
  rw [toList_float known finite nonzero]
  apply general_of_ne_zero (by decide) nonzero
  rw [(Binary.sign_and_size positive finite).2]
  omega

/-- A tie whose rounding carries into a seventh digit, past the end of positional notation. -/
theorem float_rounded_of_carry :
    ((Binary.ofFloat 999999.5).value? = some (1999999 / 2) ∧ (1999999 / 2 : ℚ) ≠ 0) ∧
      float 999999.5 = "1e+06" ∧
      ∃ rounded, Rounded floatDigits (1999999 / 2) rounded ∧
        General floatDigits (1999999 / 2) rounded (float 999999.5).toList := by
  have known : Binary.ofFloat 999999.5 = .finite false 8589930297032704 (-33) := by decide
  have finite : (Binary.ofFloat 999999.5).value? = some (1999999 / 2) := by
    rw [known, Binary.value?]
    norm_num
  have nonzero : (1999999 / 2 : ℚ) ≠ 0 := by norm_num
  exact ⟨⟨finite, nonzero⟩, by decide +kernel, float_rounded _ finite nonzero⟩

end Token

end ValueScript
