import ValueScript.Trailing

/-! Sizes of stored grids. A shape lists sizes as they are stored; its extent is the layout it
stands for, with at least a row and a column count and no idle dimension at the end. -/

namespace ValueScript

/-- The sizes of a grid's dimensions, outermost first. -/
abbrev Shape := List Nat

/-- The layout of a grid: rows, columns, and the sizes of any dimensions beyond these two. -/
structure Extent where
  rows : Nat
  cols : Nat
  higher : List Nat
  deriving DecidableEq, Repr

/-- The number of cells a shape holds, be it a word or not; the empty shape holds one. -/
def Shape.cells : Shape → Nat
  | [] => 1
  | size :: rest => size * Shape.cells rest

/-- A single value is one row of one column, a single size is one row of that many columns. -/
def Shape.extent : Shape → Extent
  | [] => ⟨1, 1, []⟩
  | [size] => ⟨1, size, []⟩
  | rows :: cols :: higher => ⟨rows, cols, dropTrailing (· == 1) higher⟩

namespace Extent

/-- The shape that writes this layout out in full. -/
def shape (extent : Extent) : Shape := extent.rows :: extent.cols :: extent.higher

/-- The number of dimensions that matter, never less than two. -/
def rank (extent : Extent) : Nat := extent.higher.length + 2

/-- Whether a grid of this layout has no cell because it has no row or no column. -/
def isEmpty (extent : Extent) : Bool := extent.rows == 0 || extent.cols == 0

theorem rank_eq_length_shape (extent : Extent) : extent.rank = extent.shape.length := by
  simp [rank, shape]

end Extent

theorem cells_append (outer inner : List Nat) :
    Shape.cells (outer ++ inner) = Shape.cells outer * Shape.cells inner := by
  induction outer with
  | nil => simp [Shape.cells]
  | cons size rest ih => simp [Shape.cells, ih, Nat.mul_assoc]

theorem cells_of_ones (sizes : List Nat) (ones : ∀ size ∈ sizes, (size == 1) = true) :
    Shape.cells sizes = 1 := by
  induction sizes with
  | nil => rfl
  | cons size rest ih =>
    have one : size = 1 := by simpa using ones size (by simp)
    simp [Shape.cells, one, ih (fun other member => ones other (by simp [member]))]

/-- Dimensions of size one at the end hold nothing of their own. -/
theorem cells_dropTrailing (sizes : List Nat) :
    Shape.cells (dropTrailing (· == 1) sizes) = Shape.cells sizes := by
  obtain ⟨dropped, split, ones⟩ := dropTrailing_append (· == 1) sizes
  conv => rhs; rw [split]
  rw [cells_append, cells_of_ones dropped ones, Nat.mul_one]

/-- The layout of a shape holds the same number of cells. -/
theorem Shape.cells_extent (shape : Shape) : shape.extent.shape.cells = shape.cells := by
  match shape with
  | [] => rfl
  | [size] => simp [Shape.extent, Extent.shape, Shape.cells]
  | rows :: cols :: higher =>
    simp [Shape.extent, Extent.shape, Shape.cells, cells_dropTrailing]

/-- Without dimensions beyond two, rows times columns are all the cells there are. -/
theorem Shape.cells_of_flat {shape : Shape} (flat : shape.extent.higher = []) :
    shape.cells = shape.extent.rows * shape.extent.cols := by
  rw [← shape.cells_extent, Extent.shape, flat]
  simp [Shape.cells]

/-- Writing a layout out as a shape and reading it again gives the same layout. -/
theorem Shape.extent_shape_extent (shape : Shape) : shape.extent.shape.extent = shape.extent := by
  match shape with
  | [] => rfl
  | [size] => rfl
  | rows :: cols :: higher => simp [Shape.extent, Extent.shape, dropTrailing_idem]

end ValueScript
