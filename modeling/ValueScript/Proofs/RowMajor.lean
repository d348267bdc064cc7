import Mathlib.Algebra.BigOperators.Group.List.Basic
import ValueScript.Rows

namespace ValueScript

universe u
variable {α : Type u}

theorem length_flatten_of_full {rows : List (List α)} {width : Nat}
    (full : ∀ row ∈ rows, row.length = width) : rows.flatten.length = rows.length * width := by
  rw [List.length_flatten, List.map_congr_left full, List.map_const', List.sum_replicate_nat]

/-- Rows of one width are found again where they were stored one after another. -/
theorem cutRows_of_full {rows : List (List α)} {width : Nat} (positive : 0 < width)
    (full : ∀ row ∈ rows, row.length = width) : cutRows width rows.flatten = rows := by
  induction rows with
  | nil => exact cutRows_nil width
  | cons first rest ih =>
    obtain ⟨wide, others⟩ := List.forall_mem_cons.mp full
    rw [List.flatten_cons, cutRows_append width first _ positive wide, ih others]

/-- The cell at a column of a row stands after all rows before and the columns before it. -/
theorem getElem?_flatten_of_full {rows : List (List α)} {width place column : Nat} {row : List α}
    (full : ∀ row ∈ rows, row.length = width) (here : rows[place]? = some row)
    (inside : column < width) : rows.flatten[place * width + column]? = row[column]? := by
  induction rows generalizing place with
  | nil => cases here
  | cons first rest ih =>
    obtain ⟨wide, others⟩ := List.forall_mem_cons.mp full
    rw [List.flatten_cons]
    cases place with
    | zero =>
      cases here
      rw [Nat.zero_mul, Nat.zero_add, List.getElem?_append_left (wide ▸ inside)]
    | succ place =>
      have before : (place + 1) * width + column = first.length + (place * width + column) := by
        rw [wide, Nat.succ_mul]
        omega
      rw [before, List.getElem?_append_right (Nat.le_add_right ..), Nat.add_sub_cancel_left]
      exact ih others here

end ValueScript
