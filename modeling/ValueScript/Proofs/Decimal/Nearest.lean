import Mathlib.Data.Int.Log
import Mathlib.Data.Rat.Floor
import Mathlib.Tactic.FieldSimp
import Mathlib.Tactic.Linarith
import Mathlib.Tactic.Positivity
import Mathlib.Tactic.Ring
import ValueScript.Decimal.Rounding

/-! Rounding and decimal exponents as facts about rational numbers: the integer computations give
the nearest integer, ties to even, and the integer logarithm. -/

namespace ValueScript.Decimal

/-- The integer is nearest to the exact number, and even if another one is as near. -/
def Nearest (exact : ℚ) (whole : ℤ) : Prop :=
  |exact - whole| ≤ 1 / 2 ∧ (|exact - whole| = 1 / 2 → Even whole)

namespace Nearest

variable {exact : ℚ} {whole other : ℤ}

theorem neg (near : Nearest exact whole) : Nearest (-exact) (-whole) := by
  have mirrored : |-exact - ((-whole : ℤ) : ℚ)| = |exact - whole| := by
    rw [Int.cast_neg, ← abs_neg]
    ring_nf
  unfold Nearest
  rw [mirrored, even_neg]
  exact near

theorem le_of_le (near : Nearest exact whole) (below : (other : ℚ) ≤ exact) : other ≤ whole := by
  have close := (abs_le.mp near.1).2
  have apart : (other : ℚ) < whole + 1 := by linarith
  exact_mod_cast Int.lt_add_one_iff.mp (by exact_mod_cast apart)

theorem le_of_lt (near : Nearest exact whole) (above : exact < other) : whole ≤ other := by
  have close := (abs_le.mp near.1).1
  have apart : (whole : ℚ) < other + 1 := by linarith
  exact_mod_cast Int.lt_add_one_iff.mp (by exact_mod_cast apart)

/-- Of two roundings the greater exceeds the other by one at most, and then both are even. -/
private theorem le_of_near (near : Nearest exact whole) (same : Nearest exact other) :
    whole ≤ other := by
  by_contra above
  have apart : (other : ℚ) + 1 ≤ whole := by exact_mod_cast not_le.mp above
  have lower := (abs_le.mp near.1).1
  have upper := (abs_le.mp same.1).2
  have tie : |exact - whole| = 1 / 2 := by
    rw [abs_of_nonpos (by linarith)]
    linarith
  have otherTie : |exact - other| = 1 / 2 := by
    rw [abs_of_nonneg (by linarith)]
    linarith
  have next : whole = other + 1 := by
    have equal : (whole : ℚ) = other + 1 := by linarith
    exact_mod_cast equal
  obtain ⟨half, double⟩ := near.2 tie
  obtain ⟨otherHalf, otherDouble⟩ := same.2 otherTie
  omega

theorem unique (near : Nearest exact whole) (same : Nearest exact other) : whole = other :=
  le_antisymm (near.le_of_near same) (same.le_of_near near)

theorem of_close (close : |exact - whole| < 1 / 2) : Nearest exact whole :=
  ⟨close.le, fun tie => absurd tie close.ne⟩

/-- A number that is rounded to a multiple of ten is within a twentieth of it one place further
left. -/
theorem tenth (near : Nearest exact (10 * whole)) : Nearest (exact * 10⁻¹) whole := by
  obtain ⟨lower, upper⟩ := abs_le.mp near.1
  push_cast at lower upper
  refine of_close (abs_lt.mpr ⟨?_, ?_⟩) <;> linarith

end Nearest

theorem even_roundEven_of_tie (num : ℕ) {den : ℕ} (positive : 0 < den)
    (tie : 2 * (den * roundEven num den) = 2 * num + den ∨
      2 * num = 2 * (den * roundEven num den) + den) : Even (roundEven num den) := by
  have whole : den * (num / den) + num % den = num := Nat.div_add_mod num den
  have next : den * (num / den + 1) = den * (num / den) + den := Nat.mul_succ ..
  have small : num % den < den := Nat.mod_lt _ positive
  rw [Nat.even_iff]
  unfold roundEven at tie ⊢
  dsimp only at tie ⊢
  split_ifs at tie ⊢ <;> omega

theorem nearest_roundEven (num den : ℕ) (positive : 0 < den) :
    Nearest (num / den : ℚ) (roundEven num den) := by
  obtain ⟨upper, lower⟩ := roundEven_near num den positive
  have even := even_roundEven_of_tie num positive
  generalize roundEven num den = whole at upper lower even ⊢
  have scale : (0 : ℚ) < den := Nat.cast_pos.mpr positive
  have upper' : 2 * (den * whole : ℚ) ≤ 2 * num + den := by exact_mod_cast upper
  have lower' : 2 * (num : ℚ) ≤ 2 * (den * whole) + den := by exact_mod_cast lower
  have error : (num / den : ℚ) - ((whole : ℤ) : ℚ) = (num - den * whole) / den := by
    rw [Int.cast_natCast]
    field_simp
  unfold Nearest
  rw [error, abs_div, abs_of_pos scale]
  refine ⟨?_, fun tie => ?_⟩
  · rw [div_le_iff₀ scale, abs_le]
    constructor <;> linarith
  · rw [div_eq_iff scale.ne'] at tie
    rw [Int.even_coe_nat]
    apply even
    rcases abs_cases ((num : ℚ) - den * whole) with ⟨same, _⟩ | ⟨same, _⟩
    · have above : 2 * (num : ℚ) = 2 * (den * whole) + den := by linarith
      exact .inr (by exact_mod_cast above)
    · have below : 2 * (den * whole : ℚ) = 2 * num + den := by linarith
      exact .inl (by exact_mod_cast below)

theorem cast_pow_ten (power : ℕ) : ((Nat.pow 10 power : ℕ) : ℚ) = 10 ^ power :=
  Nat.cast_pow 10 power

theorem cast_pow_ten_pos (power : ℕ) : (0 : ℚ) < (Nat.pow 10 power : ℕ) :=
  Nat.cast_pos.mpr (Nat.pow_pos (by decide))

theorem ten_zpow_mul {first second total : ℤ} (sum : first + second = total) :
    (10 : ℚ) ^ first * 10 ^ second = 10 ^ total := by
  rw [← zpow_add₀ (by norm_num), sum]

/-- Scaling by a power of ten, in either direction, is followed by one rounding. -/
theorem nearest_scaled (num den : ℕ) (positive : 0 < den) (power : ℤ) :
    Nearest (num / den * 10 ^ power : ℚ) (scaled num den power) := by
  cases power with
  | ofNat power =>
    have near := nearest_roundEven (num * Nat.pow 10 power) den positive
    rw [Nat.cast_mul, cast_pow_ten, mul_div_right_comm] at near
    rw [Int.ofNat_eq_natCast, zpow_natCast]
    exact near
  | negSucc power =>
    have near := nearest_roundEven num (den * Nat.pow 10 (power + 1))
      (Nat.mul_pos positive (Nat.pow_pos (by decide)))
    rw [Nat.cast_mul, cast_pow_ten, ← div_div] at near
    rw [zpow_negSucc, ← div_eq_mul_inv]
    exact near

/-- Two neighbouring powers of ten around a number tell its logarithm. -/
theorem log_eq_of_between {exact : ℚ} {power : ℤ} (least : (10 : ℚ) ^ power ≤ exact)
    (most : exact < (10 : ℚ) ^ (power + 1)) : Int.log 10 exact = power := by
  have positive : 0 < exact := (zpow_pos (by norm_num) power).trans_le least
  have lower : power ≤ Int.log 10 exact :=
    (Int.zpow_le_iff_le_log (by decide) positive).mp (by exact_mod_cast least)
  have upper : Int.log 10 exact < power + 1 :=
    (Int.lt_zpow_iff_log_lt (by decide) positive).mp (by exact_mod_cast most)
  omega

theorem exponent_eq_log (num den : ℕ) (positive : 0 < num) (scale : 0 < den) :
    exponent num den = Int.log 10 (num / den : ℚ) := by
  have positive' : (0 : ℚ) < num := Nat.cast_pos.mpr positive
  have scale' : (0 : ℚ) < den := Nat.cast_pos.mpr scale
  symm
  unfold exponent
  split
  next large =>
    have quotient : 0 < num / den := Nat.div_pos large scale
    obtain ⟨less, same⟩ : ∃ less, width (num / den) = less + 1 :=
      Nat.exists_eq_succ_of_ne_zero (by rw [width]; split <;> omega)
    have least := pow_width_le _ quotient
    have most := lt_pow_width (num / den)
    rw [same] at least most ⊢
    have least' : Nat.pow 10 less * den ≤ num := (Nat.le_div_iff_mul_le scale).mp least
    have most' : num < Nat.pow 10 (less + 1) * den := (Nat.div_lt_iff_lt_mul scale).mp most
    have shift : ((less + 1 : ℕ) : ℤ) - 1 = less := by omega
    rw [shift]
    apply log_eq_of_between
    · rw [zpow_natCast, ← cast_pow_ten, le_div_iff₀ scale']
      exact_mod_cast least'
    · rw [← Nat.cast_succ, zpow_natCast, ← cast_pow_ten, div_lt_iff₀ scale']
      exact_mod_cast most'
  next small =>
    have quotient : 0 < (den - 1) / num := Nat.div_pos (by omega) positive
    obtain ⟨less, same⟩ : ∃ less, width ((den - 1) / num) = less + 1 :=
      Nat.exists_eq_succ_of_ne_zero (by rw [width]; split <;> omega)
    have least := pow_width_le _ quotient
    have most := lt_pow_width ((den - 1) / num)
    rw [same] at least most ⊢
    have least' : Nat.pow 10 less * num ≤ den - 1 := (Nat.le_div_iff_mul_le positive).mp least
    have most' : den - 1 < Nat.pow 10 (less + 1) * num := (Nat.div_lt_iff_lt_mul positive).mp most
    have shift : -((less + 1 : ℕ) : ℤ) + 1 = -(less : ℤ) := by omega
    apply log_eq_of_between
    · have bound : den ≤ Nat.pow 10 (less + 1) * num := by omega
      rw [zpow_neg, zpow_natCast, ← cast_pow_ten,
        inv_le_comm₀ (cast_pow_ten_pos _) (by positivity), inv_div, div_le_iff₀ positive']
      exact_mod_cast bound
    · have bound : Nat.pow 10 less * num < den := by omega
      rw [shift, zpow_neg, zpow_natCast, ← cast_pow_ten,
        lt_inv_comm₀ (by positivity) (cast_pow_ten_pos _), inv_div, lt_div_iff₀ positive']
      exact_mod_cast bound

end ValueScript.Decimal
