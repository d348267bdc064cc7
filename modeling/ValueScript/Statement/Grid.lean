import ValueScript.Rows
import ValueScript.Token
import ValueScript.Value.Build

/-! Statements that assign number and text grids. A grid of more than two dimensions, or one whose
cells do not fill its shape, has no statement. -/

namespace ValueScript

/-- Fails when a grid has more than two dimensions. -/
def Extent.checkFlat (name : String) (extent : Extent) : Except Fault Unit :=
  if extent.higher = [] then .ok () else .error (.unsupportedRank name extent.rank)

namespace NumericGrid

/-- One row of a block: a space follows each token. -/
def line (tokens : List String) : String := String.join (tokens.map (· ++ " ")) ++ "\n"

/-- The right-hand side for a grid with these tokens: nothing, one token, one row in brackets, or
a line for each row. -/
def literal (extent : Extent) (tokens : List String) : String :=
  if extent.isEmpty then "[]"
  else if extent.rows = 1 then
    match tokens with
    | [token] => token
    | _ => "[" ++ " ".intercalate tokens ++ "]"
  else "[\n" ++ String.join ((cutRows extent.cols tokens).map line) ++ "]"

def statement (name : String) (grid : NumericGrid) : Except Fault String := do
  let extent := grid.shape.extent
  extent.checkFlat name
  grid.checkCells
  return name ++ " = " ++ literal extent grid.elements.tokens ++ ";\n"

end NumericGrid

namespace TextGrid

/-- One row of a block: an indented quoted line. -/
def line (row : String) : String := "  '" ++ row ++ "'\n"

/-- The statement that assigns a text grid. Several rows follow the name line by line, and no
semicolon ends them. -/
def statement (name : String) (grid : TextGrid) : Except Fault String := do
  let extent := grid.shape.extent
  extent.checkFlat name
  grid.checkCells
  if extent.isEmpty then return name ++ " = '';\n"
  else if extent.rows = 1 then return name ++ " = " ++ Token.quoted grid.chars ++ ";\n"
  else return name ++ " = \n" ++ String.join (grid.rows.map line)

end TextGrid

end ValueScript
