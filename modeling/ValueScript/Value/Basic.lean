import ValueScript.Shape
import ValueScript.Fields
import ValueScript.Fault

/-! Value trees: records, lists of records, number and text grids, and grids of arbitrary values.
A grid is stored as given; whether its cells fill its shape is checked where it matters. -/

namespace ValueScript

/-- The cells of a number grid, all of one type. -/
inductive Elements
  | float (cells : List Float)
  | int (cells : List Int64)
  | logical (cells : List Bool)

def Elements.length : Elements → Nat
  | .float cells => cells.length
  | .int cells => cells.length
  | .logical cells => cells.length

def Elements.isEmpty (elements : Elements) : Bool := elements.length == 0

/-- A grid of numbers or truth values, stored row by row. -/
structure NumericGrid where
  shape : Shape
  elements : Elements

/-- A grid of characters, stored row by row; one row is plain text. -/
structure TextGrid where
  shape : Shape
  chars : List Char
  deriving DecidableEq

/-- A value that a script may assign. -/
inductive Value
  | record (fields : List (String × Value))
  | records (elements : List (List (String × Value)))
  | numeric (grid : NumericGrid)
  | text (grid : TextGrid)
  /-- Rows times columns of values, stored row by row. -/
  | collection (rows cols : Nat) (items : List Value)
  /-- A value of a class that scripts cannot write. -/
  | unsupported (cls : String)

/-- What a value is, as far as the entries of a collection have to agree. -/
inductive Kind
  | record
  | float
  | int
  | logical
  | text
  | collection
  | unsupported (cls : String)
  deriving DecidableEq, Repr

/-- The class name shown for a kind. An unsupported value brings its own, which may be one of the
others' without making the two kinds equal. -/
def Kind.label : Kind → String
  | .record => "struct"
  | .float => "double"
  | .int => "int64"
  | .logical => "logical"
  | .text => "char"
  | .collection => "cell"
  | .unsupported cls => cls

def Elements.kind : Elements → Kind
  | .float _ => .float
  | .int _ => .int
  | .logical _ => .logical

namespace Value

/-- The kind of a value; a list of records is of the kind of its records. -/
def kind : Value → Kind
  | .record _ => .record
  | .records _ => .record
  | .numeric grid => grid.elements.kind
  | .text _ => .text
  | .collection .. => .collection
  | .unsupported cls => .unsupported cls

/-- The sizes shown for a value: those of a grid as stored, none for an unsupported value. -/
def dims : Value → Shape
  | .record _ => [1, 1]
  | .records elements => [1, elements.length]
  | .numeric grid => grid.shape
  | .text grid => grid.shape
  | .collection rows cols _ => [rows, cols]
  | .unsupported _ => []

end Value

def NumericGrid.checkCells (grid : NumericGrid) : Except Fault Unit :=
  ValueScript.checkCells grid.shape.cells grid.elements.length

def TextGrid.checkCells (grid : TextGrid) : Except Fault Unit :=
  ValueScript.checkCells grid.shape.cells grid.chars.length

end ValueScript
