import Mathlib.Algebra.Ring.Nat
import ValueScript.Decimal.General

namespace ValueScript.Decimal

/-- A text of digits only. -/
def Digits (text : List Char) : Prop := ∀ char ∈ text, char.isDigit = true

namespace Digits

variable {text : List Char}

theorem not_mem (digits : Digits text) {mark : Char} (other : mark.isDigit = false) :
    mark ∉ text := by
  intro member
  rw [digits mark member] at other
  cases other

theorem append {back : List Char} (front : Digits text) (rest : Digits back) :
    Digits (text ++ back) := by
  intro char member
  exact (List.mem_append.mp member).elim (front char) (rest char)

theorem digitChar {number : ℕ} (small : number < 10) : (Nat.digitChar number).isDigit = true := by
  rw [Nat.isDigit_digitChar]
  exact decide_eq_true small

theorem toDigits (number : ℕ) : Digits (Nat.toDigits 10 number) :=
  fun _ member => Nat.isDigit_of_mem_toDigits (by decide) (by decide) member

theorem lowDigits (places number : ℕ) : Digits (lowDigits places number) := by
  induction places generalizing number with
  | zero => simp [Digits, Decimal.lowDigits]
  | succ places ih =>
    refine append (ih _) ?_
    intro char member
    rw [List.mem_singleton.mp member]
    exact digitChar (Nat.mod_lt _ (by decide))

end Digits

theorem length_lowDigits (places number : ℕ) : (lowDigits places number).length = places := by
  induction places generalizing number with
  | zero => rfl
  | succ places ih => simp [lowDigits, ih]

theorem ofDigitChars_lowDigits (places number : ℕ) :
    Nat.ofDigitChars 10 (lowDigits places number) 0 = number % 10 ^ places := by
  induction places generalizing number with
  | zero => simp [lowDigits, Nat.mod_one]
  | succ places ih =>
    have small : number % 10 < 10 := Nat.mod_lt _ (by decide)
    rw [lowDigits, Nat.ofDigitChars_append, ih, Nat.ofDigitChars_cons, Nat.ofDigitChars_nil,
      Nat.toNat_digitChar_of_lt_ten small, pow_succ', Nat.mod_mul]
    have zero : '0'.toNat = 48 := rfl
    omega

/-- The digits after the point, up to the last that is not zero. -/
def fraction (places units : ℕ) : List Char := dropTrailing (· == '0') (lowDigits places units)

/-- Digits after a point; without digits there is no point. -/
def withPoint : List Char → List Char
  | [] => []
  | digits => '.' :: digits

@[simp] theorem withPoint_nil : withPoint [] = [] := rfl

@[simp] theorem withPoint_cons (first : Char) (rest : List Char) :
    withPoint (first :: rest) = '.' :: first :: rest := rfl

theorem pointed_eq (places units : ℕ) :
    pointed places units =
      Nat.toDigits 10 (units / 10 ^ places) ++ withPoint (fraction places units) := by
  unfold pointed fraction withPoint
  dsimp only
  split <;> simp_all

theorem lowDigits_eq_fraction (places units : ℕ) :
    ∃ zeros, lowDigits places units = fraction places units ++ List.replicate zeros '0' := by
  obtain ⟨dropped, split, zero⟩ := dropTrailing_append (· == '0') (lowDigits places units)
  have all : dropped = List.replicate dropped.length '0' :=
    List.eq_replicate_of_mem fun char member => eq_of_beq (zero char member)
  exact ⟨dropped.length, by rw [← all]; exact split⟩

theorem Digits.fraction (places units : ℕ) : Digits (fraction places units) := by
  obtain ⟨zeros, split⟩ := lowDigits_eq_fraction places units
  intro char member
  apply Digits.lowDigits places units
  rw [split]
  exact List.mem_append_left _ member

/-- Before an exponent there are digits and at most a point. -/
theorem digit_or_point {whole decimals : List Char} (digits : Digits whole)
    (parts : Digits decimals) {char : Char} (member : char ∈ whole ++ withPoint decimals) :
    char.isDigit = true ∨ char = '.' := by
  rcases List.mem_append.mp member with before | rest
  · exact .inl (digits char before)
  · cases decimals with
    | nil => cases rest
    | cons first later =>
      rcases List.mem_cons.mp rest with point | decimal
      · exact .inr point
      · exact .inl (parts char decimal)

theorem digit_or_point_of_mem_pointed {places units : ℕ} {char : Char}
    (member : char ∈ pointed places units) : char.isDigit = true ∨ char = '.' := by
  rw [pointed_eq] at member
  exact digit_or_point (Digits.toDigits _) (Digits.fraction _ _) member

theorem ofDigitChars_two {size : ℕ} (small : size < 10) :
    Nat.ofDigitChars 10 ['0', Nat.digitChar size] 0 = size := by
  rw [Nat.ofDigitChars_cons, Nat.ofDigitChars_cons, Nat.ofDigitChars_nil,
    Nat.toNat_digitChar_of_lt_ten small]
  have zero : '0'.toNat = 48 := rfl
  omega

theorem exponentText_eq (exponent : ℤ) :
    ∃ digits, exponentText exponent = (if exponent < 0 then '-' else '+') :: digits ∧
      Digits digits ∧ 2 ≤ digits.length ∧ Nat.ofDigitChars 10 digits 0 = exponent.natAbs := by
  refine ⟨_, rfl, ?_⟩
  split
  next small =>
    have digits : Digits ['0', Nat.digitChar exponent.natAbs] := by simp [Digits, small]
    exact ⟨digits, le_rfl, ofDigitChars_two small⟩
  next large =>
    refine ⟨Digits.toDigits _, ?_, Nat.ofDigitChars_toDigits (by decide) (by decide)⟩
    rw [Nat.toDigits_of_base_le (by decide) (not_lt.mp large), List.length_append]
    have more : 0 < (Nat.toDigits 10 (exponent.natAbs / 10)).length :=
      List.length_pos_iff.mpr Nat.toDigits_ne_nil
    exact Nat.succ_le_succ more

end ValueScript.Decimal
