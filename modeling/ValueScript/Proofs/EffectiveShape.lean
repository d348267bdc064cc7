import ValueScript.Emission
import ValueScript.Proofs.Machine.Grid

/-! Layouts written out as shapes. All that reads the shape of a grid reads its layout or the count of
its cells, and a layout written out has both, so that a grid may store its layout in place of its
shape. -/

namespace ValueScript

namespace Shape

/-- The sizes of the layout of a shape. -/
def effective (shape : Shape) : Shape := shape.extent.shape

@[simp] theorem extent_effective (shape : Shape) : shape.effective.extent = shape.extent :=
  shape.extent_shape_extent

@[simp] theorem cells_effective (shape : Shape) : shape.effective.cells = shape.cells :=
  shape.cells_extent

theorem effective_idem (shape : Shape) : shape.effective.effective = shape.effective :=
  congrArg Extent.shape shape.extent_effective

theorem two_le_length_effective (shape : Shape) : 2 ≤ shape.effective.length := by
  rw [effective, ← Extent.rank_eq_length_shape]
  exact Nat.le_add_left ..

theorem getLast?_effective (shape : Shape) :
    shape.effective.length = 2 ∨ shape.effective.getLast? ≠ some 1 := by
  match shape with
  | [] => exact .inl rfl
  | [size] => exact .inl rfl
  | rows :: cols :: higher =>
    have sizes : effective (rows :: cols :: higher) =
      rows :: cols :: dropTrailing (· == 1) higher := rfl
    by_cases flat : dropTrailing (· == 1) higher = []
    · exact .inl (by rw [sizes, flat]; rfl)
    · right
      have last := dropTrailing_getLast (· == 1) higher flat
      rw [sizes, List.getLast?_cons_of_ne_nil (List.cons_ne_nil _ _),
        List.getLast?_cons_of_ne_nil flat, List.getLast?_eq_some_getLast flat]
      simpa using last

example : effective [2, 3, 1, 4, 1, 1] = [2, 3, 1, 4] := rfl

theorem cells_of_extent {shape other : Shape} (same : shape.extent = other.extent) :
    shape.cells = other.cells := by
  rw [← shape.cells_extent, same, other.cells_extent]

end Shape

/-- Whether two values are written alike: whatever the limit and the name, they have the same script,
text and token, or fail for the same reason. -/
structure Value.WrittenAlike (value other : Value) : Prop where
  script : ∀ limit name, value.script limit name = other.script limit name
  serialize : ∀ name, value.serialize name = other.serialize name
  token : ∀ name, value.token name = other.token name

section Alike

variable {shape other : Shape}

/-- Number grids of one layout that store the same numbers are written alike. -/
theorem NumericGrid.writtenAlike (same : shape.extent = other.extent) (elements : Elements) :
    (Value.numeric ⟨shape, elements⟩).WrittenAlike (.numeric ⟨other, elements⟩) := by
  have statement (name : String) :
      NumericGrid.statement name ⟨shape, elements⟩ = NumericGrid.statement name ⟨other, elements⟩ := by
    simp only [NumericGrid.statement, NumericGrid.checkCells, same, Shape.cells_of_extent same]
  have script (limit : Nat) (name : String) : (Value.numeric ⟨shape, elements⟩).script limit name =
      (Value.numeric ⟨other, elements⟩).script limit name := by
    simp only [Value.script, Value.emit, Emit.numeric, statement]
  refine ⟨script, fun name => congrArg (Except.map Script.text) (script _ name), fun name => ?_⟩
  simp only [Value.token, same]
  rfl

theorem TextGrid.writtenAlike (same : shape.extent = other.extent) (chars : List Char) :
    (Value.text ⟨shape, chars⟩).WrittenAlike (.text ⟨other, chars⟩) := by
  have rows : TextGrid.rows ⟨shape, chars⟩ = TextGrid.rows ⟨other, chars⟩ := by
    simp only [TextGrid.rows, same]
  have check : TextGrid.checkCells ⟨shape, chars⟩ = TextGrid.checkCells ⟨other, chars⟩ := by
    simp only [TextGrid.checkCells, Shape.cells_of_extent same]
  have statement (name : String) :
      TextGrid.statement name ⟨shape, chars⟩ = TextGrid.statement name ⟨other, chars⟩ := by
    simp only [TextGrid.statement, check, same, rows]
  have script (limit : Nat) (name : String) : (Value.text ⟨shape, chars⟩).script limit name =
      (Value.text ⟨other, chars⟩).script limit name := by
    simp only [Value.script, Value.emit, Emit.text, statement]
  refine ⟨script, fun name => congrArg (Except.map Script.text) (script _ name), fun name => ?_⟩
  simp only [Value.token, check, same]
  rfl

end Alike

/-- A layout written out is its shape with ones trimmed off the end. It has at least two sizes, does not
end in a one beyond the second, holds the cells of its shape, and stays as it is when it is written
out again. A grid that stores it in place of its shape is written alike, with the same rank and the
same rows. -/
theorem only_layout_matters :
    (∀ shape : Shape, Machine.dims shape = shape.effective ∧ 2 ≤ shape.effective.length ∧
      (shape.effective.length = 2 ∨ shape.effective.getLast? ≠ some 1) ∧
      shape.effective.cells = shape.cells ∧ shape.effective.effective = shape.effective) ∧
    (∀ (shape : Shape) (elements : Elements),
      (Value.numeric ⟨shape.effective, elements⟩).WrittenAlike (.numeric ⟨shape, elements⟩) ∧
      NumericGrid.rank ⟨shape.effective, elements⟩ = NumericGrid.rank ⟨shape, elements⟩) ∧
    ∀ (shape : Shape) (chars : List Char),
      (Value.text ⟨shape.effective, chars⟩).WrittenAlike (.text ⟨shape, chars⟩) ∧
      TextGrid.rank ⟨shape.effective, chars⟩ = TextGrid.rank ⟨shape, chars⟩ ∧
      TextGrid.rows ⟨shape.effective, chars⟩ = TextGrid.rows ⟨shape, chars⟩ := by
  refine ⟨fun shape => ?_, fun shape elements => ?_, fun shape chars => ?_⟩
  · exact ⟨Machine.dims_eq shape, shape.two_le_length_effective, shape.getLast?_effective,
      shape.cells_effective, shape.effective_idem⟩
  · refine ⟨NumericGrid.writtenAlike shape.extent_effective elements, ?_⟩
    simp only [NumericGrid.rank, Shape.extent_effective]
  · refine ⟨TextGrid.writtenAlike shape.extent_effective chars, ?_, ?_⟩
    · simp only [TextGrid.rank, Shape.extent_effective]
    · simp only [TextGrid.rows, Shape.extent_effective]

namespace Machine

theorem lt_of_word {number result : Nat} (reached : word number = .ok result) : result < wordBound := by
  unfold word at reached
  split at reached
  · cases reached
    assumption
  · cases reached

/-- Sizes of one at the end do not change what a shape is multiplied up to, nor whether it overflows. -/
private theorem foldlM_multiply_append {ones : List Nat} (idle : ∀ size ∈ ones, (size == 1) = true)
    (sizes : List Nat) {start : Nat} (small : start < wordBound) :
    (sizes ++ ones).foldlM multiply start = sizes.foldlM multiply start := by
  induction sizes generalizing start with
  | nil =>
    rw [List.nil_append]
    induction ones with
    | nil => rfl
    | cons size rest ih =>
      obtain ⟨first, others⟩ := List.forall_mem_cons.mp idle
      rw [List.foldlM_cons, beq_iff_eq.mp first, multiply, Nat.mul_one, word_of_lt small]
      exact ih others
  | cons size rest ih =>
    rw [List.cons_append, List.foldlM_cons, List.foldlM_cons]
    cases reached : multiply start size with
    | error panic => rfl
    | ok count => exact ih (lt_of_word reached)

/-- A layout is multiplied up to the word that its shape is, or overflows when the shape does. -/
theorem cellCount_effective (shape : Shape) : cellCount shape.effective = cellCount shape := by
  match shape with
  | [] => rfl
  | [size] => rfl
  | rows :: cols :: higher =>
    obtain ⟨dropped, split, idle⟩ := dropTrailing_append (· == 1) higher
    have sizes : rows :: cols :: higher = Shape.effective (rows :: cols :: higher) ++ dropped :=
      congrArg (fun rest => rows :: cols :: rest) split
    conv => rhs; rw [sizes]
    exact (foldlM_multiply_append idle _ (by decide)).symm

theorem dims_effective (shape : Shape) : dims shape.effective = dims shape := by
  rw [dims_eq, dims_eq, Shape.extent_effective]

/-- Also a machine takes the same steps for a layout as for its shape, panics included. -/
theorem steps_effective (name : String) (shape : Shape) :
    (∀ elements, numericStatement name ⟨shape.effective, elements⟩ =
        numericStatement name ⟨shape, elements⟩ ∧
      token name (.numeric ⟨shape.effective, elements⟩) = token name (.numeric ⟨shape, elements⟩)) ∧
    ∀ chars, textStatement name ⟨shape.effective, chars⟩ = textStatement name ⟨shape, chars⟩ ∧
      token name (.text ⟨shape.effective, chars⟩) = token name (.text ⟨shape, chars⟩) ∧
      textRows ⟨shape.effective, chars⟩ = textRows ⟨shape, chars⟩ := by
  have filled (stored : Nat) : checkFilled shape.effective stored = checkFilled shape stored := by
    simp only [checkFilled, cellCount_effective]
  refine ⟨fun elements => ⟨?_, ?_⟩, fun chars => ⟨?_, ?_, ?_⟩⟩
  · simp only [numericStatement, dims_effective, filled]
  · simp only [token, dims_effective, Value.unwritable, Value.kind]
  · simp only [textStatement, textTail, textRows, dims_effective, filled]
  · simp only [token, dims_effective, filled, Value.unwritable, Value.kind]
  · simp only [textRows, dims_effective]

end Machine

end ValueScript
