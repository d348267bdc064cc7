import ValueScript.Json.Numeral
import ValueScript.Proofs.Decimal.Digits
import ValueScript.Proofs.Json.Remaining

namespace ValueScript.Json

/-- Whether what is left begins with a comma or a line feed, as it does after a value. -/
def Closed (rest : List UInt8) : Prop := rest.head? = some 0x2c ∨ rest.head? = some 0x0a

theorem Closed.apart {rest : List UInt8} (closed : Closed rest) {byte : UInt8}
    (notComma : byte ≠ 0x2c) (notFeed : byte ≠ 0x0a) : rest.head? ≠ some byte := by
  rintro head
  obtain comma | feed := closed
  · exact notComma (Option.some.inj (head.symm.trans comma))
  · exact notFeed (Option.some.inj (head.symm.trans feed))

theorem Closed.not_digit {rest : List UInt8} (closed : Closed rest) :
    rest.head? >>= digit? = none := by
  obtain comma | feed := closed
  · rw [comma]
    rfl
  · rw [feed]
    rfl

theorem encoded_digit {char : Char} (digit : char.isDigit = true) :
    ∃ byte, String.utf8EncodeChar char = [byte] ∧ digit? byte = some (char.toNat - '0'.toNat) := by
  have bounds : 48 ≤ char.toNat ∧ char.toNat < 58 := by
    simp only [Char.isDigit, Bool.and_eq_true, decide_eq_true_eq, ge_iff_le,
      UInt32.le_iff_toNat_le] at digit
    exact ⟨digit.1, Nat.lt_succ_of_le digit.2⟩
  have known : ∀ number < 58, 48 ≤ number → digit? (UInt8.ofNat number) = some (number - 48) := by
    decide
  exact ⟨_, utf8EncodeChar_of_lt (by omega), known _ bounds.2 bounds.1⟩

theorem digitAt?_of_left {text : ByteArray} {index : Nat} {bytes : List UInt8}
    (left : Left text index bytes) : digitAt? text index = bytes.head? >>= digit? := by
  rw [digitAt?, left.byteAt?_eq]

theorem le_ofDigitChars (digits : List Char) (number : Nat) :
    number ≤ Nat.ofDigitChars 10 digits number := by
  induction digits generalizing number with
  | nil => exact Nat.le_refl _
  | cons char digits ih =>
    have first := ih (10 * number + (char.toNat - '0'.toNat))
    rw [Nat.ofDigitChars_cons]
    omega

/-- Digits are gathered up to what is none, if they make a number below the bound. -/
theorem gather_reads {text : ByteArray} {index number bound : Nat} {digits : List Char}
    {rest : List UInt8} (all : Decimal.Digits digits) (left : Left text index (encoded digits ++ rest))
    (ends : rest.head? >>= digit? = none) (small : Nat.ofDigitChars 10 digits number < bound) :
    (gather bound text number index).1 = Nat.ofDigitChars 10 digits number ∧
      Left text (gather bound text number index).2 rest := by
  induction digits generalizing number index with
  | nil =>
    have none : digitAt? text index = none := (digitAt?_of_left left).trans ends
    rw [gather]
    split
    next found => cases found.symm.trans none
    next => exact ⟨rfl, left⟩
  | cons char digits ih =>
    obtain ⟨first, others⟩ := List.forall_mem_cons.mp all
    obtain ⟨byte, alone, value⟩ := encoded_digit first
    rw [encoded_cons, alone] at left
    have here : digitAt? text index = some (char.toNat - '0'.toNat) :=
      (digitAt?_of_left left).trans value
    rw [Nat.ofDigitChars_cons] at small ⊢
    have fits := Nat.lt_of_le_of_lt (le_ofDigitChars digits _) small
    rw [gather]
    split
    next found =>
      cases found.symm.trans here
      dsimp only
      rw [if_pos fits]
      exact ih others left.tail small
    next none => cases none.symm.trans here

/-- A number is written without zeros before it. -/
theorem toDigits_head (number : Nat) :
    ∃ first rest, Nat.toDigits 10 number = first :: rest ∧ first.isDigit = true ∧
      (first.toNat - '0'.toNat = 0 → rest = []) := by
  induction number using Nat.strongRecOn with
  | ind number ih =>
    by_cases small : number < 10
    · exact ⟨Nat.digitChar number, [], Nat.toDigits_of_lt_base small,
        Decimal.Digits.digitChar small, fun _ => rfl⟩
    · have least : 10 ≤ number := Nat.le_of_not_lt small
      obtain ⟨first, rest, digits, digit, zero⟩ := ih (number / 10) (by omega)
      refine ⟨first, rest ++ [Nat.digitChar (number % 10)], ?_, digit, fun none => ?_⟩
      · rw [Nat.toDigits_of_base_le (by decide) least, digits]
        rfl
      · cases zero none
        have value := @Nat.ofDigitChars_ten_toDigits (number / 10)
        rw [digits, Nat.ofDigitChars_cons, none, Nat.ofDigitChars_nil] at value
        omega

theorem skipDigits_eq_self {text : ByteArray} {index : Nat} (ends : digitAt? text index = none) :
    skipDigits text index = index := by
  rw [skipDigits, skipWhile]
  unfold digitAt? byteAt? at ends
  split
  next inside =>
    rw [dif_pos inside] at ends
    have none : digit? text[index] = none := ends
    rw [if_neg (by simp [none])]
  next => rfl

/-- A number is read from its digits, if it is a significand. -/
theorem numeral_reads {text : ByteArray} {start number : Nat} {rest : List UInt8}
    (left : Left text start (encoded (Nat.toDigits 10 number) ++ rest)) (closed : Closed rest)
    (small : number < significandBound) :
    Reads text (numeral false text start) (.int number) rest := by
  obtain ⟨first, others, digits, digit, zero⟩ := toDigits_head number
  have all : Decimal.Digits others := by
    have := Decimal.Digits.toDigits number
    rw [digits] at this
    exact (List.forall_mem_cons.mp this).2
  have value := @Nat.ofDigitChars_ten_toDigits number
  rw [digits, Nat.ofDigitChars_cons, Nat.mul_zero, Nat.zero_add] at value
  obtain ⟨byte, alone, shown⟩ := encoded_digit digit
  rw [digits, encoded_cons, alone, List.append_assoc, List.singleton_append] at left
  have ends := closed.not_digit
  obtain ⟨whole, after⟩ := gather_reads all left.tail ends (value ▸ small)
  rw [value] at whole
  have plain : ¬(first.toNat - '0'.toNat = 0 ∧ (digitAt? text (start + 1)).isSome = true) := by
    rintro ⟨leading, another⟩
    have here := left.tail
    rw [zero leading, encoded_nil, List.nil_append] at here
    rw [digitAt?_of_left here, ends] at another
    cases another
  have last := skipDigits_eq_self ((digitAt?_of_left after).trans ends)
  rw [numeral, left.byteAt?_eq]
  dsimp only [List.head?_cons]
  split
  next none => cases none.symm.trans shown
  next found =>
    cases found.symm.trans shown
    rw [if_neg plain]
    have past := after
    rw [← last] at past
    have next := past.byteAt?_eq
    split
    next point => exact absurd (next.symm.trans point) (closed.apart (by decide) (by decide))
    next small => exact absurd (next.symm.trans small) (closed.apart (by decide) (by decide))
    next large => exact absurd (next.symm.trans large) (closed.apart (by decide) (by decide))
    next =>
      rw [if_pos last, whole]
      exact reads_ok _ past

end ValueScript.Json
