import ValueScript.Value.Basic
import ValueScript.Rows

/-! Ways to build values. The checked builders accept exactly the parts that fit together. -/

namespace ValueScript

namespace NumericGrid

/-- A grid whose cells fill its shape. -/
def ofShape (shape : Shape) (elements : Elements) : Except Fault NumericGrid := do
  let grid : NumericGrid := ⟨shape, elements⟩
  grid.checkCells
  return grid

def empty : NumericGrid := ⟨[0, 0], .float []⟩

def floatRow (cells : List Float) : NumericGrid := ⟨[1, cells.length], .float cells⟩

/-- A grid of rows that all have the length of the first. -/
def floatRows (rows : List (List Float)) : Except Fault NumericGrid :=
  let cols := (rows.head?.map List.length).getD 0
  match rows.find? (fun row => row.length != cols) with
  | some row => .error (.shapeMismatch cols row.length)
  | none => ofShape [rows.length, cols] (.float rows.flatten)

def rank (grid : NumericGrid) : Nat := grid.shape.extent.rank

end NumericGrid

namespace TextGrid

/-- A grid whose characters fill its shape. -/
def ofShape (shape : Shape) (chars : List Char) : Except Fault TextGrid := do
  let grid : TextGrid := ⟨shape, chars⟩
  grid.checkCells
  return grid

/-- Text as one row; the empty text has no row and no column. -/
def ofString (text : String) : TextGrid :=
  match text.toList with
  | [] => ⟨[0, 0], []⟩
  | chars => ⟨[1, chars.length], chars⟩

/-- The first row, counted from `row`, whose length differs from the expected one. -/
def firstRagged (expected : Nat) : (row : Nat) → List String → Option (Nat × Nat)
  | _, [] => none
  | row, text :: rest =>
    if text.length = expected then firstRagged expected (row + 1) rest else some (row, text.length)

/-- A grid of text rows that all have the length of the first. -/
def ofRows (rows : List String) : Except Fault TextGrid :=
  let cols := (rows.head?.map String.length).getD 0
  match firstRagged cols 0 rows with
  | some (row, actual) => .error (.raggedRows row cols actual)
  | none => .ok ⟨[rows.length, cols], rows.flatMap String.toList⟩

def rank (grid : TextGrid) : Nat := grid.shape.extent.rank

/-- The rows as text: the stored characters cut at the column count, or, when that is zero, as
many empty texts as there are rows. -/
def rows (grid : TextGrid) : List String :=
  let extent := grid.shape.extent
  if extent.cols = 0 then List.replicate extent.rows ""
  else (cutRows extent.cols grid.chars).map String.ofList

end TextGrid

namespace Value

def ofFloat (number : Float) : Value := .numeric ⟨[1, 1], .float [number]⟩

def ofInt (number : Int64) : Value := .numeric ⟨[1, 1], .int [number]⟩

def ofBool (truth : Bool) : Value := .numeric ⟨[1, 1], .logical [truth]⟩

def ofString (text : String) : Value := .text (.ofString text)

/-- A collection whose items fill its rows and columns. -/
def ofItems (rows cols : Nat) (items : List Value) : Except Fault Value := do
  checkCells (rows * cols) items.length
  return .collection rows cols items

def ofRow (items : List Value) : Value := .collection 1 items.length items

/-- The record that setting each member in turn leaves. -/
def ofMembers (members : List (String × Value)) : Value := .record (Fields.ofMembers members)

end Value

end ValueScript
