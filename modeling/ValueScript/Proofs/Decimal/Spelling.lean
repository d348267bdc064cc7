import ValueScript.Proofs.Decimal.Form

namespace ValueScript.Decimal

def sign (negative : Prop) [Decidable negative] : List Char := if negative then ['-'] else []

/-- The text of `units / 10 ^ places` with all digits of the fraction. -/
def padded (places units : ℕ) : List Char :=
  Nat.toDigits 10 (units / 10 ^ places) ++ withPoint (lowDigits places units)

/-- The decimal of `places` digits that is nearest to the size of a number. -/
def roundedDecimal (places : ℕ) (exact : ℚ) : Scientific :=
  significant places exact.num.natAbs exact.den

/-- One digit before the point, and an exponent that has a sign only if it is negative. -/
def scientificText (places : ℕ) (exact : ℚ) : List Char :=
  let rounded := roundedDecimal places exact
  sign (exact < 0) ++ padded (places - 1) rounded.digits ++
    'e' :: (sign (rounded.exponent < 0) ++ Nat.toDigits 10 rounded.exponent.natAbs)

/-- A fixed number of digits after the point. -/
def fixedText (decimals : ℕ) (exact : ℚ) : List Char :=
  sign (exact < 0) ++ padded decimals (scaled exact.num.natAbs exact.den decimals)

/-- A text with a point loses the zeros at its end, and then the point if it is the end. -/
def trimFraction (text : List Char) : List Char :=
  if '.' ∈ text then dropTrailing (· == '.') (dropTrailing (· == '0') text) else text

/-- An integer of 32 bits. -/
def int32? (text : List Char) : Option ℤ :=
  (integer? text).filter fun value => -2 ^ 31 ≤ value ∧ value < 2 ^ 31

/-- General notation by way of the scientific text, which is the error where it has no exponent or
one that cannot be read. -/
def spell (places : ℕ) (exact : ℚ) : Except (List Char) (List Char) :=
  let scientific := scientificText places exact
  match cut? 'e' scientific with
  | none => .error scientific
  | some (mantissa, power) =>
    match int32? power with
    | none => .error scientific
    | some exponent =>
      if exponent < -4 ∨ (places : ℤ) ≤ exponent then
        .ok (trimFraction mantissa ++ 'e' :: exponentText exponent)
      else
        let decimals := (places : ℤ) - 1 - exponent
        .ok (trimFraction (fixedText decimals.toNat exact))

/-- The number that the digits of a text make, whatever stands between them. -/
def digitsOf (text : List Char) : ℕ := Nat.ofDigitChars 10 (text.filter Char.isDigit) 0

section

variable (negative : Prop) [Decidable negative]

theorem not_mem_sign {mark : Char} (other : mark ≠ '-') : mark ∉ sign negative := by
  unfold sign
  split <;> simp [other]

theorem not_mem_padded (places units : ℕ) : 'e' ∉ sign negative ++ padded places units := by
  rw [List.mem_append, not_or]
  refine ⟨not_mem_sign negative (by decide), fun member => ?_⟩
  rcases digit_or_point (Digits.toDigits _) (Digits.lowDigits _ _) member with digit | point
  · cases digit
  · cases point

theorem trimFraction_padded (places units : ℕ) :
    trimFraction (sign negative ++ padded places units) =
      sign negative ++ pointed places units := by
  have noPoint : '.' ∉ sign negative ++ Nat.toDigits 10 (units / 10 ^ places) := by
    rw [List.mem_append, not_or]
    exact ⟨not_mem_sign negative (by decide), (Digits.toDigits _).not_mem rfl⟩
  have digits := Digits.fraction places units
  rw [pointed_eq, padded, ← List.append_assoc, ← List.append_assoc]
  unfold fraction at digits ⊢
  generalize sign negative ++ Nat.toDigits 10 (units / 10 ^ places) = front at noPoint
  generalize lowDigits places units = decimals at digits
  cases decimals with
  | nil => simp [trimFraction, noPoint, dropTrailing]
  | cons first rest =>
    rw [trimFraction, withPoint_cons, if_pos (by simp), dropTrailing_append_cons _ (by decide)]
    generalize dropTrailing (· == '0') (first :: rest) = kept at digits
    cases kept with
    | nil =>
      rw [dropTrailing_concat, if_pos (by decide), withPoint_nil, List.append_nil]
      apply dropTrailing_of_last
      intro last final
      rw [beq_eq_false_iff_ne]
      rintro rfl
      exact noPoint (List.mem_of_getLast? final)
    | cons digit later =>
      apply dropTrailing_of_last
      intro last final
      rw [List.getLast?_append_of_ne_nil _ (List.cons_ne_nil _ _), List.getLast?_cons_cons] at final
      rw [beq_eq_false_iff_ne]
      rintro rfl
      exact digits.not_mem rfl (List.mem_of_getLast? final)

theorem digitsOf_padded (places units : ℕ) :
    digitsOf (sign negative ++ padded places units) = units := by
  have none : (sign negative).filter Char.isDigit = [] := by
    unfold sign
    split <;> rfl
  have point (digits : List Char) :
      (withPoint digits).filter Char.isDigit = digits.filter Char.isDigit := by
    cases digits <;> rfl
  rw [digitsOf, padded, List.filter_append, List.filter_append, none, point, List.nil_append,
    List.filter_eq_self.mpr (Digits.toDigits _), List.filter_eq_self.mpr (Digits.lowDigits _ _),
    Nat.ofDigitChars_append, Nat.ofDigitChars_toDigits (by decide) (by decide),
    Nat.ofDigitChars_eq_ofDigitChars_zero, length_lowDigits, ofDigitChars_lowDigits]
  exact Nat.div_add_mod ..

end

theorem integer?_sign (exponent : ℤ) :
    integer? (sign (exponent < 0) ++ Nat.toDigits 10 exponent.natAbs) = some exponent := by
  unfold sign
  split
  next negative =>
    rw [List.singleton_append, integer?, natural?_toDigits, Option.map_some]
    congr 1
    omega
  next positive =>
    rw [List.nil_append, (Digits.toDigits _).integer?_eq, natural?_toDigits, Option.map_some]
    congr 1
    omega

section

variable {places : ℕ} {exact : ℚ}

/-- The scientific text has one exponent mark, and the exponent that was written is read. -/
theorem cut?_scientificText (places : ℕ) (exact : ℚ) :
    cut? 'e' (scientificText places exact) =
      some (sign (exact < 0) ++ padded (places - 1) (roundedDecimal places exact).digits,
        sign ((roundedDecimal places exact).exponent < 0) ++
          Nat.toDigits 10 (roundedDecimal places exact).exponent.natAbs) :=
  cut?_at (not_mem_padded _ _ _) _

theorem abs_eq_div (exact : ℚ) : (exact.num.natAbs / exact.den : ℚ) = |exact| := by
  rw [Rat.abs_def, Rat.divInt_eq_div, Int.cast_natCast, Int.cast_natCast]

/-- The text can be taken apart, and what is put together is the general notation of the size. -/
theorem spell_eq (nonzero : exact ≠ 0)
    (moderate : -2 ^ 31 ≤ Int.log 10 |exact| ∧ Int.log 10 |exact| + 1 < 2 ^ 31) :
    spell places exact = .ok (sign (exact < 0) ++ general places exact.num.natAbs exact.den) := by
  have positive : 0 < exact.num.natAbs := Int.natAbs_pos.mpr (Rat.num_ne_zero.mpr nonzero)
  have first := exponent_eq_log _ _ positive exact.den_pos
  rw [abs_eq_div] at first
  have exponent : int32? (sign ((roundedDecimal places exact).exponent < 0) ++
      Nat.toDigits 10 (roundedDecimal places exact).exponent.natAbs) =
        some (roundedDecimal places exact).exponent := by
    have carried : (roundedDecimal places exact).exponent = _ ∨
      (roundedDecimal places exact).exponent = _ := exponent_significant
    rw [int32?, integer?_sign, Option.filter_some, if_pos]
    rw [decide_eq_true_eq]
    omega
  have fold : significant places exact.num.natAbs exact.den = roundedDecimal places exact := rfl
  unfold spell general
  simp only [cut?_scientificText, exponent, fold]
  by_cases extreme : (roundedDecimal places exact).exponent < -4 ∨
      (places : ℤ) ≤ (roundedDecimal places exact).exponent
  · rw [if_pos extreme, if_neg (by omega), trimFraction_padded, List.append_assoc]
  · rw [if_neg extreme, if_pos (by omega), fixedText, trimFraction_padded,
      Int.toNat_of_nonneg (by omega)]

/-- Written with as many decimals as the last significant digit has, a number has the digits of its
scientific text. -/
theorem digitsOf_fixedText (any : 0 < places) {decimals : ℕ}
    (enough : (decimals : ℤ) = places - 1 - (roundedDecimal places exact).exponent) :
    digitsOf (fixedText decimals exact) = (roundedDecimal places exact).digits := by
  rw [fixedText, digitsOf_padded, enough]
  exact scaled_again _ any exact.den_pos

end

end ValueScript.Decimal
