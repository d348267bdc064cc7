/-! The reasons why a value cannot be built or written as a script. -/

namespace ValueScript

/-- A reason why a value has no script, or why no value has the parts given. -/
inductive Fault
  /-- The value of this class has no literal form at this name. -/
  | unsupportedType (name cls : String)
  /-- The grid at this name has more than two dimensions. -/
  | unsupportedRank (name : String) (rank : Nat)
  /-- A node lies deeper than the limit. -/
  | depthExceeded (limit : Nat)
  /-- A shape promises another number of cells than are stored. -/
  | shapeMismatch (expected actual : Nat)
  /-- A text row, counted from zero, differs in length from the first one. -/
  | raggedRows (row expected actual : Nat)
  deriving DecidableEq, Repr

def Fault.message : Fault → String
  | .unsupportedType name cls => "unsupported type " ++ cls ++ " at " ++ name
  | .unsupportedRank name rank =>
    "unsupported rank " ++ rank.repr ++ " at " ++ name ++ " (expected <= 2)"
  | .depthExceeded limit => "emit depth exceeded (max=" ++ limit.repr ++ ")"
  | .shapeMismatch expected actual =>
    "shape mismatch: shape holds " ++ expected.repr ++ " elements, got " ++ actual.repr
  | .raggedRows row expected actual =>
    "ragged text rows: row " ++ row.repr ++ " has " ++ actual.repr ++ " chars, expected "
      ++ expected.repr

/-- Fails when the number of stored cells is not the one that is promised. -/
def checkCells (expected actual : Nat) : Except Fault Unit :=
  if expected = actual then .ok () else .error (.shapeMismatch expected actual)

end ValueScript
