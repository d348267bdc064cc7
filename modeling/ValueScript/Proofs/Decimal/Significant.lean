import ValueScript.Proofs.Decimal.Nearest

/-! Rounding to a number of significant digits, also where it carries into a further digit, and
rounding a second time in the place that the first rounding found. -/

namespace ValueScript.Decimal

/-- The unit of the last of `places` digits, counted from the first digit of the exact number. -/
def lastUnit (places : ℕ) (exact : ℚ) : ℚ := 10 ^ (Int.log 10 |exact| + 1 - places)

/-- The exact number to the nearest multiple of the unit of its last significant digit; of two that
are equally near, the even multiple. -/
def Rounded (places : ℕ) (exact rounded : ℚ) : Prop :=
  ∃ units : ℤ, Nearest (exact / lastUnit places exact) units ∧
    rounded = units * lastUnit places exact

namespace Rounded

variable {places : ℕ} {exact rounded other : ℚ}

theorem unique (first : Rounded places exact rounded) (second : Rounded places exact other) :
    rounded = other := by
  obtain ⟨units, near, rfl⟩ := first
  obtain ⟨same, nearToo, rfl⟩ := second
  rw [near.unique nearToo]

theorem neg (first : Rounded places exact rounded) : Rounded places (-exact) (-rounded) := by
  obtain ⟨units, near, rfl⟩ := first
  have mirrored : lastUnit places (-exact) = lastUnit places exact := by
    rw [lastUnit, lastUnit, abs_neg]
  refine ⟨-units, ?_, ?_⟩
  · rw [mirrored, neg_div]
    exact near.neg
  · rw [mirrored, Int.cast_neg, neg_mul]

end Rounded

namespace Scientific

/-- What a decimal of `places` digits stands for. -/
def value (places : ℕ) (decimal : Scientific) : ℚ :=
  decimal.digits * 10 ^ (decimal.exponent + 1 - places)

/-- The digits are as many as they should be, and the first is not zero. -/
structure Full (places : ℕ) (decimal : Scientific) : Prop where
  least : Nat.pow 10 (places - 1) ≤ decimal.digits
  most : decimal.digits < Nat.pow 10 places

variable {places : ℕ} {decimal : Scientific}

theorem value_pos (full : decimal.Full places) : 0 < decimal.value places := by
  have positive : 0 < decimal.digits := (Nat.pow_pos (by decide)).trans_le full.least
  have positive' : (0 : ℚ) < decimal.digits := Nat.cast_pos.mpr positive
  exact mul_pos positive' (zpow_pos (by norm_num) _)

theorem log_value (any : 0 < places) (full : decimal.Full places) :
    Int.log 10 (decimal.value places) = decimal.exponent := by
  have least : ((Nat.pow 10 (places - 1) : ℕ) : ℚ) ≤ decimal.digits := Nat.cast_le.mpr full.least
  have most : (decimal.digits : ℚ) < (Nat.pow 10 places : ℕ) := Nat.cast_lt.mpr full.most
  rw [cast_pow_ten, ← zpow_natCast] at least most
  have unit : (0 : ℚ) < 10 ^ (decimal.exponent + 1 - places) := zpow_pos (by norm_num) _
  apply log_eq_of_between
  · calc (10 : ℚ) ^ decimal.exponent
        = 10 ^ ((places - 1 : ℕ) : ℤ) * 10 ^ (decimal.exponent + 1 - places) :=
          (ten_zpow_mul (by omega)).symm
      _ ≤ decimal.value places := mul_le_mul_of_nonneg_right least unit.le
  · calc decimal.value places
        < 10 ^ (places : ℤ) * 10 ^ (decimal.exponent + 1 - places) :=
          mul_lt_mul_of_pos_right most unit
      _ = 10 ^ (decimal.exponent + 1) := ten_zpow_mul (by omega)

end Scientific

/-- A number moved so that its first digit has the place before the point among `places` digits. -/
private theorem moved_between {places : ℕ} {exact : ℚ} (any : 0 < places) (positive : 0 < exact) :
    ((Nat.pow 10 (places - 1) : ℕ) : ℚ) ≤ exact * 10 ^ ((places : ℤ) - 1 - Int.log 10 exact) ∧
      exact * 10 ^ ((places : ℤ) - 1 - Int.log 10 exact) < (Nat.pow 10 places : ℕ) := by
  have unit : (0 : ℚ) < 10 ^ ((places : ℤ) - 1 - Int.log 10 exact) := zpow_pos (by norm_num) _
  have least : (10 : ℚ) ^ Int.log 10 exact ≤ exact := by
    exact_mod_cast Int.zpow_log_le_self (b := 10) (by decide) positive
  have most : exact < (10 : ℚ) ^ (Int.log 10 exact + 1) := by
    exact_mod_cast Int.lt_zpow_succ_log_self (b := 10) (by decide) exact
  rw [cast_pow_ten, cast_pow_ten, ← zpow_natCast, ← zpow_natCast]
  constructor
  · calc (10 : ℚ) ^ ((places - 1 : ℕ) : ℤ)
        = 10 ^ Int.log 10 exact * 10 ^ ((places : ℤ) - 1 - Int.log 10 exact) :=
          (ten_zpow_mul (by omega)).symm
      _ ≤ exact * 10 ^ ((places : ℤ) - 1 - Int.log 10 exact) :=
          mul_le_mul_of_nonneg_right least unit.le
  · calc exact * 10 ^ ((places : ℤ) - 1 - Int.log 10 exact)
        < 10 ^ (Int.log 10 exact + 1) * 10 ^ ((places : ℤ) - 1 - Int.log 10 exact) :=
          mul_lt_mul_of_pos_right most unit
      _ = 10 ^ (places : ℤ) := ten_zpow_mul (by omega)

section

variable {places num den : ℕ}

/-- The first rounding has the full number of digits, or it is the next power of ten. -/
private theorem scaled_bounds (any : 0 < places) (positive : 0 < num) (scale : 0 < den) :
    Nat.pow 10 (places - 1) ≤ scaled num den ((places : ℤ) - 1 - exponent num den) ∧
      scaled num den ((places : ℤ) - 1 - exponent num den) ≤ Nat.pow 10 places := by
  have exact : (0 : ℚ) < num / den := by positivity
  obtain ⟨least, most⟩ := moved_between any exact
  rw [exponent_eq_log num den positive scale]
  have near := nearest_scaled num den scale ((places : ℤ) - 1 - Int.log 10 (num / den : ℚ))
  rw [← Int.cast_natCast] at least most
  exact ⟨Int.ofNat_le.mp (near.le_of_le least), Int.ofNat_le.mp (near.le_of_lt most)⟩

theorem exponent_significant :
    (significant places num den).exponent = exponent num den ∨
      (significant places num den).exponent = exponent num den + 1 := by
  unfold significant
  dsimp only
  split
  · exact .inr rfl
  · exact .inl rfl

theorem significant_full (any : 0 < places) (positive : 0 < num) (scale : 0 < den) :
    (significant places num den).Full places := by
  obtain ⟨least, most⟩ := scaled_bounds any positive scale
  unfold significant
  dsimp only
  split
  · exact ⟨le_rfl, Nat.pow_lt_pow_right (by decide) (by omega)⟩
  · exact ⟨least, lt_of_le_of_ne most (by assumption)⟩

theorem value_significant (any : 0 < places) :
    (significant places num den).value places =
      scaled num den ((places : ℤ) - 1 - exponent num den) *
        10 ^ (exponent num den + 1 - places) := by
  unfold significant Scientific.value
  dsimp only
  split
  next carry =>
    dsimp only
    rw [carry, cast_pow_ten, cast_pow_ten, ← zpow_natCast, ← zpow_natCast,
      ten_zpow_mul (show _ = exponent num den + 1 by omega),
      ten_zpow_mul (show _ = exponent num den + 1 by omega)]
  next => rfl

theorem rounded_significant (any : 0 < places) (positive : 0 < num) (scale : 0 < den) :
    Rounded places (num / den) ((significant places num den).value places) := by
  have exact : (0 : ℚ) < num / den := by positivity
  have unit : lastUnit places (num / den) = 10 ^ (exponent num den + 1 - places) := by
    rw [lastUnit, abs_of_pos exact, exponent_eq_log num den positive scale]
  refine ⟨scaled num den ((places : ℤ) - 1 - exponent num den), ?_, ?_⟩
  · have inverse : (places : ℤ) - 1 - exponent num den = -(exponent num den + 1 - places) := by
      omega
    have near := nearest_scaled num den scale ((places : ℤ) - 1 - exponent num den)
    rw [unit, div_eq_mul_inv, ← zpow_neg, ← inverse]
    exact near
  · rw [unit, Int.cast_natCast]
    exact value_significant any

/-- Rounding in the place of the last significant digit gives the same digits, also when that place
moved because the first rounding carried. -/
theorem scaled_again (num : ℕ) (any : 0 < places) (scale : 0 < den) :
    scaled num den ((places : ℤ) - 1 - (significant places num den).exponent) =
      (significant places num den).digits := by
  unfold significant
  dsimp only
  split
  next carry =>
    obtain ⟨less, rfl⟩ : ∃ less, places = less + 1 := Nat.exists_eq_succ_of_ne_zero (by omega)
    have tenfold : ((Nat.pow 10 (less + 1) : ℕ) : ℤ) = 10 * (Nat.pow 10 less : ℕ) :=
      congrArg Nat.cast (Nat.pow_succ' : 10 ^ (less + 1) = 10 * 10 ^ less)
    have shift : ((less + 1 : ℕ) : ℤ) - 1 - (exponent num den + 1) =
        ((less + 1 : ℕ) : ℤ) - 1 - exponent num den - 1 := by omega
    have first := nearest_scaled num den scale (((less + 1 : ℕ) : ℤ) - 1 - exponent num den)
    have second := nearest_scaled num den scale (((less + 1 : ℕ) : ℤ) - 1 - (exponent num den + 1))
    rw [carry, tenfold] at first
    rw [shift, zpow_sub_one₀ (by norm_num), ← mul_assoc] at second
    rw [shift]
    exact_mod_cast second.unique first.tenth
  next => rfl

variable {num' den' : ℕ}

theorem scaled_congr (scale : 0 < den) (scale' : 0 < den')
    (same : (num / den : ℚ) = num' / den') (power : ℤ) :
    scaled num den power = scaled num' den' power := by
  have near := nearest_scaled num den scale power
  rw [same] at near
  exact_mod_cast near.unique (nearest_scaled num' den' scale' power)

/-- The digits are those of the number, whatever quotient it is given as. -/
theorem significant_congr (positive : 0 < num) (positive' : 0 < num') (scale : 0 < den)
    (scale' : 0 < den') (same : (num / den : ℚ) = num' / den') :
    significant places num den = significant places num' den' := by
  have exponents : exponent num den = exponent num' den' := by
    rw [exponent_eq_log num den positive scale, exponent_eq_log num' den' positive' scale', same]
  unfold significant
  simp only [exponents, scaled_congr scale scale' same]

end

end ValueScript.Decimal
