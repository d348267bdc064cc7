/-! Row-major storage cut into rows. Cutting loses nothing, and a list that fills its rows gives
that many rows of full width. -/

namespace ValueScript

universe u
variable {α : Type u}

/-- Cuts a list into pieces of `width` cells, the last of which may be short. The width is at
least one: a zero width cuts single cells. -/
def cutRows (width : Nat) : List α → List (List α)
  | [] => []
  | cell :: rest => (cell :: rest.take (width - 1)) :: cutRows width (rest.drop (width - 1))
termination_by cells => cells.length
decreasing_by simp only [List.length_drop, List.length_cons]; omega

@[simp] theorem cutRows_nil (width : Nat) : cutRows width ([] : List α) = [] := by
  rw [cutRows]

theorem cutRows_flatten (width : Nat) (cells : List α) : (cutRows width cells).flatten = cells := by
  fun_induction cutRows width cells with
  | case1 => rfl
  | case2 cell rest ih => simp [ih, List.take_append_drop]

/-- A first row of full width is the first piece. -/
theorem cutRows_append (width : Nat) (row rest : List α) (positive : 0 < width)
    (full : row.length = width) : cutRows width (row ++ rest) = row :: cutRows width rest := by
  match row with
  | [] => simp at full; omega
  | cell :: more =>
    have same : width - 1 = more.length := by simp at full; omega
    rw [List.cons_append, cutRows, same, List.take_left, List.drop_left]

/-- Cells that fill a number of rows are cut into that many rows of full width. -/
theorem cutRows_full {rows width : Nat} {cells : List α} (positive : 0 < width)
    (full : cells.length = rows * width) :
    (cutRows width cells).length = rows ∧ ∀ row ∈ cutRows width cells, row.length = width := by
  induction rows generalizing cells with
  | zero =>
    have none : cells = [] := by simpa using full
    simp [none]
  | succ rows ih =>
    rw [Nat.succ_mul] at full
    have first : (cells.take width).length = width := by simp; omega
    have others : (cells.drop width).length = rows * width := by simp; omega
    obtain ⟨count, wide⟩ := ih others
    rw [← List.take_append_drop width cells, cutRows_append width _ _ positive first]
    constructor
    · simp [count]
    · intro row member
      rcases List.mem_cons.mp member with rfl | later
      · exact first
      · exact wide row later

/-- Cells that fill a number of rows are cut at the multiples of the width. -/
theorem cutRows_eq_map_range {rows width : Nat} {cells : List α} (positive : 0 < width)
    (full : cells.length = rows * width) :
    cutRows width cells = (List.range rows).map fun row => (cells.drop (row * width)).take width := by
  induction rows generalizing cells with
  | zero =>
    have none : cells = [] := by simpa using full
    simp [none]
  | succ rows ih =>
    rw [Nat.succ_mul] at full
    have first : (cells.take width).length = width := by simp; omega
    have others : (cells.drop width).length = rows * width := by simp; omega
    have step := cutRows_append width (cells.take width) (cells.drop width) positive first
    rw [List.take_append_drop, ih others] at step
    simp only [step, List.range_succ_eq_map, List.map_cons, List.map_map, Function.comp_def,
      List.drop_drop, Nat.zero_mul, List.drop_zero, Nat.succ_eq_add_one, Nat.add_mul, Nat.one_mul,
      Nat.add_comm width]

/-- Cutting looks at places only, not at what the cells are. -/
theorem cutRows_map {β : Type u} (width : Nat) (change : α → β) (cells : List α) :
    cutRows width (cells.map change) = (cutRows width cells).map (List.map change) := by
  fun_induction cutRows width cells with
  | case1 => simp
  | case2 cell rest ih => rw [List.map_cons, cutRows]; simp [← ih, List.map_take, List.map_drop]

end ValueScript
