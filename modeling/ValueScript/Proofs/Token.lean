import ValueScript.Token
import ValueScript.Proofs.Attempt
import ValueScript.Proofs.Decimal.Digits
import ValueScript.Proofs.Tree

namespace ValueScript

namespace Token

/-- The characters that number tokens are made of. -/
def plain (char : Char) : Bool := char.isAlphanum || char = '+' || char = '-' || char = '.'

theorem plain_of_isDigit {char : Char} (digit : char.isDigit = true) : plain char = true := by
  simp [plain, Char.isAlphanum, digit]

theorem plain_of_mem_toDigits {number : Nat} {char : Char}
    (member : char ∈ Nat.toDigits 10 number) : plain char = true :=
  plain_of_isDigit (Nat.isDigit_of_mem_toDigits (by decide) (by decide) member)

end Token

namespace Decimal

open Token

theorem pointed_ne_nil (places units : Nat) : pointed places units ≠ [] := by
  unfold pointed
  split <;> simp [Nat.toDigits_ne_nil]

theorem plain_of_mem_pointed {places units : Nat} {char : Char}
    (member : char ∈ pointed places units) : plain char = true := by
  rcases digit_or_point_of_mem_pointed member with digit | rfl
  · exact plain_of_isDigit digit
  · rfl

theorem plain_of_mem_exponentText {exponent : Int} {char : Char}
    (member : char ∈ exponentText exponent) : plain char = true := by
  obtain ⟨digits, text, decimal, _⟩ := exponentText_eq exponent
  rw [text] at member
  rcases List.mem_cons.mp member with sign | digit
  · rw [sign]
    split <;> rfl
  · exact plain_of_isDigit (decimal char digit)

theorem general_ne_nil (places num den : Nat) : general places num den ≠ [] := by
  rw [general]
  dsimp only
  split
  · exact pointed_ne_nil _ _
  · exact fun none => List.cons_ne_nil _ _ (List.append_eq_nil_iff.mp none).2

theorem plain_of_mem_general {places num den : Nat} {char : Char}
    (member : char ∈ general places num den) : plain char = true := by
  unfold general at member
  dsimp only at member
  split at member
  · exact plain_of_mem_pointed member
  · rcases List.mem_append.mp member with digits | exponent
    · exact plain_of_mem_pointed digits
    · rcases List.mem_cons.mp exponent with rfl | later
      · rfl
      · exact plain_of_mem_exponentText later

end Decimal

namespace Token

/-- The form of number tokens: at least one character, and plain ones only. -/
def Plain (token : String) : Prop :=
  token.toList ≠ [] ∧ ∀ char ∈ token.toList, plain char = true

/-- The form of the tokens of entries: a number, or text between quotes that holds no quote and no
line end. -/
def Clear (token : String) : Prop :=
  Plain token ∨ ∃ chars, token = quoted chars ∧ '\'' ∉ chars ∧ '\n' ∉ chars

theorem plain_of_all {token : String} (nonempty : token.toList ≠ [])
    (all : token.toList.all plain = true) : Plain token :=
  ⟨nonempty, List.all_eq_true.mp all⟩

theorem plain_ofList {chars : List Char} (nonempty : chars ≠ [])
    (all : ∀ char ∈ chars, plain char = true) : Plain (String.ofList chars) := by
  unfold Plain
  rw [String.toList_ofList]
  exact ⟨nonempty, all⟩

theorem plain_float (number : Float) : Plain (float number) := by
  unfold float
  split
  · exact plain_of_all (List.cons_ne_nil _ _) rfl
  · split <;> exact plain_of_all (List.cons_ne_nil _ _) rfl
  · split <;> exact plain_of_all (List.cons_ne_nil _ _) rfl
  · apply plain_ofList
    · split
      · exact List.cons_ne_nil _ _
      · exact Decimal.general_ne_nil _ _ _
    · intro char member
      split at member
      · rcases List.mem_cons.mp member with rfl | size
        · rfl
        · exact Decimal.plain_of_mem_general size
      · exact Decimal.plain_of_mem_general member

theorem plain_int (number : Int64) : Plain (int number) := by
  unfold int
  generalize number.toInt = value
  cases value with
  | ofNat size => exact plain_ofList Nat.toDigits_ne_nil fun _ member => plain_of_mem_toDigits member
  | negSucc size =>
    have negative : Int.repr (Int.negSucc size) =
        String.ofList ('-' :: Nat.toDigits 10 (size + 1)) := by
      apply String.toList_injective
      simp [Int.repr]
    rw [negative]
    apply plain_ofList (List.cons_ne_nil _ _)
    intro char member
    rcases List.mem_cons.mp member with rfl | digit
    · rfl
    · exact plain_of_mem_toDigits digit

theorem plain_logical (truth : Bool) : Plain (logical truth) := by
  cases truth <;> exact plain_of_all (List.cons_ne_nil _ _) rfl

end Token

theorem Elements.plain_tokens (elements : Elements) : ∀ token ∈ elements.tokens, Token.Plain token := by
  intro token member
  cases elements with
  | float cells =>
    obtain ⟨number, _, rfl⟩ := List.mem_map.mp member
    exact Token.plain_float number
  | int cells =>
    obtain ⟨number, _, rfl⟩ := List.mem_map.mp member
    exact Token.plain_int number
  | logical cells =>
    obtain ⟨truth, _, rfl⟩ := List.mem_map.mp member
    exact Token.plain_logical truth

theorem Elements.length_tokens (elements : Elements) : elements.tokens.length = elements.length := by
  cases elements <;> exact List.length_map _

/-- The token of an entry is clear when the entry, if it is text, holds no quote and no line end. -/
theorem Value.clear_token {name token : String} {value : Value} (quoteless : '\'' ∉ value.chars)
    (single : '\n' ∉ value.chars) (written : value.token name = .ok token) : Token.Clear token := by
  have placeholder : Token.Clear Token.recordPlaceholder :=
    .inr ⟨"FIXME".toList, by decide, by decide, by decide⟩
  match value with
  | .text grid =>
    refine .inr ⟨grid.chars, ?_, quoteless, single⟩
    rw [Value.token] at written
    cases checked : grid.checkCells with
    | error fault => simp [checked, bind, Except.bind] at written
    | ok _ =>
      simp only [checked, bind, Except.bind] at written
      split at written
      · cases written
        rfl
      · cases written
  | .numeric grid =>
    rw [Value.token] at written
    split at written
    · rename_i alone _
      cases written
      exact .inl (grid.elements.plain_tokens token (by simp [alone]))
    · cases written
  | .record _ =>
    cases written
    exact placeholder
  | .records [_] =>
    cases written
    exact placeholder
  | .records [] | .records (_ :: _ :: _) | .collection .. | .unsupported _ => cases written

namespace Value

/-- Why a value has no token at a name: it is text whose characters do not fill its shape, or it
needs more than one token. -/
def tokenFault? (name : String) (value : Value) : Option Fault :=
  match value with
  | .text grid =>
    if grid.shape.cells ≠ grid.chars.length then
      some (.shapeMismatch grid.shape.cells grid.chars.length)
    else if grid.shape.extent.higher = [] ∧ grid.shape.extent.rows ≤ 1 then none
    else some (value.unwritable name)
  | .numeric grid =>
    if grid.elements.length = 1 ∧ grid.shape.extent = ⟨1, 1, []⟩ then none
    else some (value.unwritable name)
  | .record _ | .records [_] => none
  | .records _ | .collection .. | .unsupported _ => some (value.unwritable name)

private theorem failure?_token_text (name : String) (grid : TextGrid) :
    failure? ((text grid).token name) = (text grid).tokenFault? name := by
  rw [token, tokenFault?]
  unfold TextGrid.checkCells checkCells
  by_cases full : grid.shape.cells = grid.chars.length
  · by_cases single : grid.shape.extent.higher = [] ∧ grid.shape.extent.rows ≤ 1
    · simp [full, single, bind, Except.bind, pure, Except.pure]
    · simp only [full, single, bind, Except.bind, if_true, if_false, ne_eq, not_true]
      rfl
  · simp [full, bind, Except.bind]

private theorem failure?_token_numeric (name : String) (grid : NumericGrid) :
    failure? ((numeric grid).token name) = (numeric grid).tokenFault? name := by
  rw [token, tokenFault?, ← grid.elements.length_tokens]
  split
  next token alone single => simp [alone, single]
  next other =>
    rw [if_neg]
    · rfl
    · rintro ⟨one, single⟩
      obtain ⟨token, alone⟩ := List.length_eq_one_iff.mp one
      exact other token alone single

theorem failure?_token (name : String) (value : Value) :
    failure? (value.token name) = value.tokenFault? name := by
  match value with
  | .text grid => exact failure?_token_text name grid
  | .numeric grid => exact failure?_token_numeric name grid
  | .record _ | .records [_] => rfl
  | .records [] | .records (_ :: _ :: _) | .collection .. | .unsupported _ => rfl

end Value

end ValueScript
