import Mathlib.Algebra.Order.Field.Power
import Mathlib.Data.Int.Log
import Mathlib.Data.Rat.Floor
import Mathlib.Tactic.Linarith
import Mathlib.Tactic.Positivity
import ValueScript.Binary

namespace ValueScript.Binary

/-- The number that a finite double stands for. -/
def value? : Binary → Option ℚ
  | .nan | .infinite _ => none
  | .zero _ => some 0
  | .finite negative mantissa exponent =>
    some (if negative then -(mantissa * 2 ^ exponent) else mantissa * 2 ^ exponent)

variable {exact : ℚ} {negative : Bool} {mantissa : ℕ} {exponent : ℤ}

theorem eq_finite {binary : Binary} (value : binary.value? = some exact) (nonzero : exact ≠ 0) :
    ∃ negative mantissa exponent, binary = .finite negative mantissa exponent := by
  cases binary with
  | nan | infinite => cases value
  | zero => exact absurd (Option.some.inj value).symm nonzero
  | finite => exact ⟨_, _, _, rfl⟩

theorem sign_and_size (positive : 0 < mantissa)
    (value : (finite negative mantissa exponent).value? = some exact) :
    (exact < 0 ↔ negative = true) ∧ |exact| = mantissa * 2 ^ exponent := by
  have size : (0 : ℚ) < mantissa * 2 ^ exponent :=
    mul_pos (Nat.cast_pos.mpr positive) (zpow_pos (by norm_num) _)
  rw [value?, Option.some_inj] at value
  subst value
  cases negative with
  | false => exact ⟨iff_of_false (not_lt.mpr size.le) Bool.false_ne_true, abs_of_pos size⟩
  | true =>
    refine ⟨iff_of_true (neg_lt_zero.mpr size) rfl, ?_⟩
    rw [if_pos rfl, abs_neg, abs_of_pos size]

/-- The mantissa is not zero, and no more than 53 bits are in it. -/
theorem bounds_of_ofBits {bits : UInt64}
    (finite : ofBits bits = .finite negative mantissa exponent) :
    0 < mantissa ∧ mantissa < 2 ^ 53 ∧ -1074 ≤ exponent ∧ exponent ≤ 971 := by
  have field : ((bits >>> 52) &&& 0x7ff).toNat ≤ 0x7ff := by
    rw [UInt64.toNat_and]
    exact Nat.and_le_right
  have fraction : (bits &&& 0xfffffffffffff).toNat ≤ 0xfffffffffffff := by
    rw [UInt64.toNat_and]
    exact Nat.and_le_right
  unfold ofBits at finite
  generalize ((bits >>> 52) &&& 0x7ff).toNat = code at field finite
  generalize (bits &&& 0xfffffffffffff).toNat = low at fraction finite
  dsimp only at finite
  split at finite
  · split at finite <;> cases finite
  · split at finite
    · split at finite
      · cases finite
      · cases finite
        omega
    · cases finite
      omega

theorem numerator_div_denominator (mantissa : ℕ) (exponent : ℤ) :
    (numerator mantissa exponent / denominator exponent : ℚ) = mantissa * 2 ^ exponent := by
  rw [numerator, denominator, Nat.shiftLeft_eq, Nat.shiftLeft_eq, one_mul]
  rcases Int.le_total 0 exponent with whole | part
  · obtain ⟨power, rfl⟩ := Int.eq_ofNat_of_zero_le whole
    have none : (-(power : ℤ)).toNat = 0 := by omega
    simp [none]
  · obtain ⟨power, same⟩ := Int.eq_ofNat_of_zero_le (Int.neg_nonneg_of_nonpos part)
    obtain rfl : exponent = -(power : ℤ) := by omega
    have none : (-(power : ℤ)).toNat = 0 := by omega
    simp [none, div_eq_mul_inv]

theorem numerator_pos (positive : 0 < mantissa) (exponent : ℤ) :
    0 < numerator mantissa exponent := by
  rw [numerator, Nat.shiftLeft_eq]
  positivity

theorem denominator_pos (exponent : ℤ) : 0 < denominator exponent := by
  rw [denominator, Nat.shiftLeft_eq]
  positivity

private theorem two_zpow_le_ten_zpow {power : ℤ} (nonnegative : 0 ≤ power) :
    (2 : ℚ) ^ power ≤ ((10 : ℕ) : ℚ) ^ power :=
  zpow_le_zpow_left₀ nonnegative (by norm_num) (by norm_num)

/-- Decimal exponents of doubles have four digits at most. -/
theorem log_bounds (positive : 0 < mantissa) (most : mantissa < 2 ^ 53)
    (low : -1074 ≤ exponent) (high : exponent ≤ 971) :
    -1074 ≤ Int.log 10 (mantissa * 2 ^ exponent : ℚ) ∧
      Int.log 10 (mantissa * 2 ^ exponent : ℚ) < 1024 := by
  have one : (1 : ℚ) ≤ mantissa := by exact_mod_cast positive
  have bits : (mantissa : ℚ) < 2 ^ 53 := by exact_mod_cast most
  have unit : (0 : ℚ) < 2 ^ exponent := zpow_pos (by norm_num) _
  have size : (0 : ℚ) < mantissa * 2 ^ exponent := by positivity
  constructor
  · apply (Int.zpow_le_iff_le_log (by decide) size).mp
    calc ((10 : ℕ) : ℚ) ^ (-1074 : ℤ) ≤ 2 ^ (-1074 : ℤ) := by
          rw [zpow_neg, zpow_neg]
          exact inv_anti₀ (zpow_pos (by norm_num) _) (two_zpow_le_ten_zpow (by decide))
      _ ≤ 2 ^ exponent := zpow_le_zpow_right₀ (by norm_num) low
      _ ≤ mantissa * 2 ^ exponent := le_mul_of_one_le_left unit.le one
  · apply (Int.lt_zpow_iff_log_lt (by decide) size).mp
    calc (mantissa * 2 ^ exponent : ℚ) < 2 ^ 53 * 2 ^ exponent := mul_lt_mul_of_pos_right bits unit
      _ ≤ 2 ^ 53 * 2 ^ (971 : ℤ) :=
          mul_le_mul_of_nonneg_left (zpow_le_zpow_right₀ (by norm_num) high) (by norm_num)
      _ = 2 ^ (1024 : ℤ) := by rw [← zpow_natCast, ← zpow_add₀ (by norm_num)]; rfl
      _ ≤ ((10 : ℕ) : ℚ) ^ (1024 : ℤ) := two_zpow_le_ten_zpow (by decide)

end ValueScript.Binary
