import ValueScript.Binary
import ValueScript.Decimal.General
import ValueScript.Value.Basic

/-! Literals of one token: numbers, truth values, single-row text, and the placeholder that stands
for a record inside a collection. -/

namespace ValueScript

def floatDigits : Nat := 6

namespace Token

def float (number : Float) : String :=
  match Binary.ofFloat number with
  | .nan => "NaN"
  | .infinite negative => if negative then "-Inf" else "Inf"
  | .zero negative => if negative then "-0" else "0"
  | .finite negative mantissa exponent =>
    let size := Decimal.general floatDigits (Binary.numerator mantissa exponent)
      (Binary.denominator exponent)
    String.ofList (if negative then '-' :: size else size)

def int (number : Int64) : String := number.toInt.repr

def logical (truth : Bool) : String := if truth then "1" else "0"

/-- Text between single quotes; what it holds is not escaped. -/
def quoted (chars : List Char) : String := "'" ++ String.ofList chars ++ "'"

def recordPlaceholder : String := "'FIXME'"

end Token

def Elements.tokens : Elements → List String
  | .float cells => cells.map Token.float
  | .int cells => cells.map Token.int
  | .logical cells => cells.map Token.logical

/-- Fails because the value has no literal form at this name. -/
def Value.unwritable (name : String) (value : Value) : Fault :=
  .unsupportedType name value.kind.label

/-- The literal of a value that needs only one token: a number, a text of at most one row, or a
record. The name is where a fault is reported. -/
def Value.token (name : String) (value : Value) : Except Fault String :=
  match value with
  | .text grid => do
    grid.checkCells
    let extent := grid.shape.extent
    if extent.higher = [] ∧ extent.rows ≤ 1 then return Token.quoted grid.chars
    else throw (value.unwritable name)
  | .numeric grid =>
    match grid.elements.tokens, grid.shape.extent with
    | [token], ⟨1, 1, []⟩ => .ok token
    | _, _ => .error (value.unwritable name)
  | .record _ => .ok Token.recordPlaceholder
  | .records [_] => .ok Token.recordPlaceholder
  | .records _ => .error (value.unwritable name)
  | .collection .. => .error (value.unwritable name)
  | .unsupported _ => .error (value.unwritable name)

end ValueScript
