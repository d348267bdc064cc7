import Mathlib.Algebra.Order.Field.Rat
import Mathlib.Tactic.FieldSimp
import ValueScript.Proofs.Decimal.Digits
import ValueScript.Proofs.Delimited

namespace ValueScript.Decimal

/-- What stands before and after the first mark of a text. -/
def cut? (mark : Char) (text : List Char) : Option (List Char × List Char) :=
  match text.dropWhile (· != mark) with
  | [] => none
  | _ :: after => some (text.takeWhile (· != mark), after)

/-- At least one digit, and nothing else. -/
def natural? (text : List Char) : Option ℕ :=
  if text ≠ [] ∧ text.all Char.isDigit = true then some (Nat.ofDigitChars 10 text 0) else none

def integer? : List Char → Option ℤ
  | '-' :: digits => (natural? digits).map fun (size : ℕ) => -(size : ℤ)
  | '+' :: digits => (natural? digits).map Nat.cast
  | digits => (natural? digits).map Nat.cast

/-- Digits, or digits on both sides of a point. -/
def positional? (text : List Char) : Option ℚ :=
  match cut? '.' text with
  | none => (natural? text).map Nat.cast
  | some (whole, fraction) => do
    let units ← natural? whole
    let parts ← natural? fraction
    some (units + parts / 10 ^ fraction.length)

/-- A positional number, or one times a power of ten. -/
def size? (text : List Char) : Option ℚ :=
  match cut? 'e' text with
  | none => positional? text
  | some (mantissa, power) => do
    let size ← positional? mantissa
    let power ← integer? power
    some (size * 10 ^ power)

/-- The number that a decimal text stands for. -/
def number? : List Char → Option ℚ
  | '-' :: size => (size? size).map fun size => -size
  | size => size? size

theorem cut?_of_not_mem {mark : Char} {text : List Char} (absent : mark ∉ text) :
    cut? mark text = none := by
  have kept : ∀ char ∈ text, (char != mark) = true := by
    intro char member
    rw [bne_iff_ne]
    rintro rfl
    exact absent member
  have rest := dropWhile_delimited kept Stops.nil
  rw [List.append_nil] at rest
  simp only [cut?, rest]

theorem cut?_at {mark : Char} {before : List Char} (absent : mark ∉ before) (after : List Char) :
    cut? mark (before ++ mark :: after) = some (before, after) := by
  have kept : ∀ char ∈ before, (char != mark) = true := by
    intro char member
    rw [bne_iff_ne]
    rintro rfl
    exact absent member
  have stop : Stops (· != mark) (mark :: after) := Stops.cons (by simp) after
  simp only [cut?, dropWhile_delimited kept stop, takeWhile_delimited kept stop]

theorem Digits.natural?_eq {text : List Char} (digits : Digits text) (nonempty : text ≠ []) :
    natural? text = some (Nat.ofDigitChars 10 text 0) :=
  if_pos ⟨nonempty, List.all_eq_true.mpr digits⟩

theorem Digits.integer?_eq {text : List Char} (digits : Digits text) :
    integer? text = (natural? text).map Nat.cast := by
  unfold integer?
  split
  next => exact absurd List.mem_cons_self (digits.not_mem rfl)
  next => exact absurd List.mem_cons_self (digits.not_mem rfl)
  next => rfl

theorem natural?_toDigits (number : ℕ) : natural? (Nat.toDigits 10 number) = some number := by
  rw [(Digits.toDigits number).natural?_eq Nat.toDigits_ne_nil,
    Nat.ofDigitChars_toDigits (by decide) (by decide)]

/-- The zeros left out at the end of a fraction count for nothing. -/
theorem fraction_value (places units : ℕ) :
    (Nat.ofDigitChars 10 (fraction places units) 0 : ℚ) / 10 ^ (fraction places units).length =
      (units % 10 ^ places : ℕ) / 10 ^ places := by
  obtain ⟨zeros, split⟩ := lowDigits_eq_fraction places units
  have long := congrArg List.length split
  rw [length_lowDigits, List.length_append, List.length_replicate] at long
  have value := ofDigitChars_lowDigits places units
  rw [split, Nat.ofDigitChars_append, Nat.ofDigitChars_replicate_zero] at value
  rw [← value]
  generalize Nat.ofDigitChars 10 (fraction places units) 0 = parts
  generalize (fraction places units).length = kept at long
  rw [long, pow_add]
  push_cast
  field_simp

theorem positional?_pointed (places units : ℕ) :
    positional? (pointed places units) = some (units / 10 ^ places : ℚ) := by
  have wholeNoPoint : '.' ∉ Nat.toDigits 10 (units / 10 ^ places) :=
    (Digits.toDigits _).not_mem rfl
  have parts : (units : ℚ) / 10 ^ places =
      (units / 10 ^ places : ℕ) + (units % 10 ^ places : ℕ) / 10 ^ places := by
    have whole : (units : ℚ) =
        10 ^ places * (units / 10 ^ places : ℕ) + (units % 10 ^ places : ℕ) := by
      exact_mod_cast (Nat.div_add_mod units (10 ^ places)).symm
    field_simp
    exact whole
  have value := fraction_value places units
  have digits := Digits.fraction places units
  rw [pointed_eq, parts, ← value, positional?]
  generalize fraction places units = decimals at digits
  cases decimals with
  | nil => simp [cut?_of_not_mem wholeNoPoint, natural?_toDigits]
  | cons first rest =>
    simp only [withPoint_cons, cut?_at wholeNoPoint, natural?_toDigits,
      digits.natural?_eq (List.cons_ne_nil _ _)]
    rfl

theorem integer?_exponentText (exponent : ℤ) : integer? (exponentText exponent) = some exponent := by
  obtain ⟨digits, text, decimal, long, size⟩ := exponentText_eq exponent
  have nonempty : digits ≠ [] := List.ne_nil_of_length_pos (by omega)
  have read := decimal.natural?_eq nonempty
  rw [size] at read
  rw [text]
  by_cases negative : exponent < 0
  · rw [if_pos negative, integer?, read, Option.map_some]
    congr 1
    omega
  · rw [if_neg negative, integer?, read, Option.map_some]
    congr 1
    omega

end ValueScript.Decimal
