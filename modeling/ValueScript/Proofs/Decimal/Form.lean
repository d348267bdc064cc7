import Mathlib.Algebra.Order.Floor.Semifield
import ValueScript.Proofs.Decimal.Numeral
import ValueScript.Proofs.Decimal.Significant

namespace ValueScript.Decimal

/-- Digits that do not end in a zero. -/
structure Trimmed (text : List Char) : Prop where
  digits : Digits text
  last : text.getLast? ≠ some '0'

/-- General notation of a positive number of `places` significant digits. The digits before a point
are those of the whole part, or there is one digit and a power of ten with its sign. -/
inductive GeneralForm (places : ℕ) (size : ℚ) : List Char → Prop
  | positional {fraction : List Char} (moderate : -4 ≤ Int.log 10 size ∧ Int.log 10 size < places)
      (trimmed : Trimmed fraction) :
      GeneralForm places size (Nat.toDigits 10 ⌊size⌋₊ ++ withPoint fraction)
  | power {first : Char} {fraction digits : List Char}
      (extreme : ¬(-4 ≤ Int.log 10 size ∧ Int.log 10 size < places))
      (digit : first.isDigit = true) (nonzero : first ≠ '0') (trimmed : Trimmed fraction)
      (decimal : Digits digits) (long : 2 ≤ digits.length)
      (exponent : Nat.ofDigitChars 10 digits 0 = (Int.log 10 size).natAbs) :
      GeneralForm places size
        (first :: withPoint fraction ++ 'e' :: (if Int.log 10 size < 0 then '-' else '+') :: digits)

theorem GeneralForm.head_digit {places : ℕ} {size : ℚ} {text : List Char}
    (formed : GeneralForm places size text) :
    ∃ first rest, text = first :: rest ∧ first.isDigit = true := by
  cases formed with
  | positional =>
    obtain ⟨first, rest, digits⟩ := List.exists_cons_of_ne_nil
      (Nat.toDigits_ne_nil : Nat.toDigits 10 ⌊size⌋₊ ≠ [])
    refine ⟨first, _, by rw [digits]; rfl, ?_⟩
    exact Digits.toDigits ⌊size⌋₊ first (by rw [digits]; exact List.mem_cons_self)
  | power _ digit => exact ⟨_, _, rfl, digit⟩

theorem trimmed_fraction (places units : ℕ) : Trimmed (fraction places units) := by
  refine ⟨Digits.fraction places units, fun last => ?_⟩
  have nonempty : fraction places units ≠ [] := by
    rintro none
    rw [none] at last
    cases last
  have kept := dropTrailing_getLast (· == '0') (lowDigits places units) nonempty
  rw [List.getLast?_eq_some_getLast nonempty, Option.some_inj] at last
  exact Bool.false_ne_true (kept.symm.trans (beq_iff_eq.mpr last))

theorem not_mem_pointed (places units : ℕ) : 'e' ∉ pointed places units := by
  intro member
  rcases digit_or_point_of_mem_pointed member with digit | point
  · cases digit
  · cases point

section

variable {places num den : ℕ}

theorem lead_of_full {decimal : Scientific} (any : 0 < places) (full : decimal.Full places) :
    ∃ first, first.isDigit = true ∧ first ≠ '0' ∧
      Nat.toDigits 10 (decimal.digits / 10 ^ (places - 1)) = [first] := by
  have least : 0 < decimal.digits / 10 ^ (places - 1) :=
    Nat.div_pos full.least (Nat.pow_pos (by decide))
  have most : decimal.digits / 10 ^ (places - 1) < 10 := by
    apply Nat.div_lt_of_lt_mul
    rw [← pow_succ, Nat.sub_add_cancel any]
    exact full.most
  refine ⟨_, Digits.digitChar most, fun zero => ?_, Nat.toDigits_of_lt_base most⟩
  have code := congrArg Char.toNat zero
  rw [Nat.toNat_digitChar_of_lt_ten most] at code
  have same : '0'.toNat = 48 := rfl
  omega

/-- In positional notation the rounded number is a whole number of units of the last place. -/
theorem value_of_decimals {decimal : Scientific} {decimals : ℕ}
    (enough : (decimals : ℤ) = places - 1 - decimal.exponent) :
    decimal.value places = decimal.digits / (10 ^ decimals : ℕ) := by
  have inverse : decimal.exponent + 1 - places = -(decimals : ℤ) := by omega
  rw [Scientific.value, inverse, zpow_neg, zpow_natCast, Nat.cast_pow, Nat.cast_ofNat,
    div_eq_mul_inv]

theorem value_of_places {decimal : Scientific} (any : 0 < places) :
    decimal.value places = decimal.digits / 10 ^ (places - 1) * 10 ^ decimal.exponent := by
  have split : decimal.exponent + 1 - places = -((places - 1 : ℕ) : ℤ) + decimal.exponent := by
    omega
  rw [Scientific.value, split, zpow_add₀ (by norm_num), zpow_neg, zpow_natCast, ← mul_assoc,
    div_eq_mul_inv]

/-- The two forms of the text, with the second rounding replaced by the first. -/
theorem general_eq (num : ℕ) (any : 0 < places) (scale : 0 < den) :
    (∃ decimals : ℕ, (decimals : ℤ) = places - 1 - (significant places num den).exponent ∧
      (-4 ≤ (significant places num den).exponent ∧
        (significant places num den).exponent < places) ∧
      general places num den = pointed decimals (significant places num den).digits) ∨
    (¬(-4 ≤ (significant places num den).exponent ∧
        (significant places num den).exponent < places) ∧
      general places num den = pointed (places - 1) (significant places num den).digits ++
        'e' :: exponentText (significant places num den).exponent) := by
  have again := scaled_again num any scale
  unfold general
  dsimp only
  split
  next moderate =>
    left
    exact ⟨_, Int.toNat_of_nonneg (by omega), moderate, by rw [again]⟩
  next extreme => exact .inr ⟨extreme, rfl⟩

theorem generalForm_general (any : 0 < places) (positive : 0 < num) (scale : 0 < den) :
    GeneralForm places ((significant places num den).value places) (general places num den) := by
  have full := significant_full any positive scale
  have log := Scientific.log_value any full
  rcases general_eq num any scale with ⟨decimals, enough, moderate, text⟩ | ⟨extreme, text⟩
  · have whole : ⌊(significant places num den).value places⌋₊ =
        (significant places num den).digits / 10 ^ decimals := by
      rw [value_of_decimals enough, Nat.floor_div_eq_div]
    rw [text, pointed_eq, ← whole]
    exact .positional (by rwa [log]) (trimmed_fraction _ _)
  · obtain ⟨first, digit, nonzero, lead⟩ := lead_of_full any full
    obtain ⟨digits, power, decimal, long, size⟩ :=
      exponentText_eq (significant places num den).exponent
    rw [text, pointed_eq, lead, power, ← log]
    exact .power (by rwa [log]) digit nonzero (trimmed_fraction _ _) decimal long (by rwa [log])

theorem size?_general (num : ℕ) (any : 0 < places) (scale : 0 < den) :
    size? (general places num den) = some ((significant places num den).value places) := by
  rcases general_eq num any scale with ⟨decimals, enough, _, text⟩ | ⟨_, text⟩
  · rw [text, value_of_decimals enough, size?, cut?_of_not_mem (not_mem_pointed _ _),
      positional?_pointed, Nat.cast_pow, Nat.cast_ofNat]
  · rw [text, value_of_places any, size?, cut?_at (not_mem_pointed _ _)]
    simp [positional?_pointed, integer?_exponentText]

theorem general_congr {num' den' : ℕ} (positive : 0 < num) (positive' : 0 < num') (scale : 0 < den)
    (scale' : 0 < den') (same : (num / den : ℚ) = num' / den') :
    general places num den = general places num' den' := by
  unfold general
  simp only [significant_congr positive positive' scale scale' same, scaled_congr scale scale' same]

end

end ValueScript.Decimal
