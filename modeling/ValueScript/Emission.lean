import ValueScript.Name
import ValueScript.Script
import ValueScript.Statement.Grid
import ValueScript.Statement.Collection

/-! Scripts of values. Records and lists of records are walked in order; every number grid, text
grid and collection met on the way is assigned under its qualified name. -/

namespace ValueScript

def defaultDepthLimit : Nat := 64

namespace Emit

def numeric (name : String) (grid : NumericGrid) : Emit Unit := do
  write (← grid.statement name)

def text (name : String) (grid : TextGrid) : Emit Unit := do
  write (← grid.statement name)

/-- Writes the statement of a collection, or notes that it was left out. -/
def collection (name : String) (rows cols : Nat) (items : List Value) : Emit Unit := do
  match ← (Collection.statement name rows cols items : Except Fault (Except Warning String)) with
  | .ok statement => write statement
  | .error warning => warn warning

end Emit

namespace Value

mutual

/-- Writes a node at a depth. A record's fields lie one level below it; the elements of a list lie
one level below the list, whatever their number, and their fields one more. A single element goes
under the name of its list. -/
def emit (limit : Nat) (name : String) (depth : Nat) (value : Value) : Emit Unit :=
  if limit < depth then throw (.depthExceeded limit)
  else
    match value with
    | .record fields => emitFields limit name (depth + 1) fields
    | .records [] => pure ()
    | .records [fields] => emitFields limit name (depth + 2) fields
    | .records elements => emitElements limit name 1 (depth + 2) elements
    | .numeric grid => Emit.numeric name grid
    | .text grid => Emit.text name grid
    | .collection rows cols items => Emit.collection name rows cols items
    | .unsupported cls => throw (.unsupportedType name cls)

/-- Writes the fields of a record, all at one depth. -/
def emitFields (limit : Nat) (name : String) (depth : Nat) :
    List (String × Value) → Emit Unit
  | [] => pure ()
  | (label, entry) :: rest => do
    emit limit (Name.field name label) depth entry
    emitFields limit name depth rest

/-- Writes the fields of each element, counting elements from `index`. -/
def emitElements (limit : Nat) (name : String) (index depth : Nat) :
    List (List (String × Value)) → Emit Unit
  | [] => pure ()
  | fields :: rest => do
    emitFields limit (Name.indexed name index) depth fields
    emitElements limit name (index + 1) depth rest

end

/-- The script that assigns a value under a root name, with no node deeper than the limit. -/
def script (limit : Nat) (name : String) (value : Value) : Except Fault Script :=
  (value.emit limit name 0).script

/-- The text of a value's script under the limit that stands when none is given. -/
def serialize (name : String) (value : Value) : Except Fault String :=
  (value.script defaultDepthLimit name).map Script.text

end Value

end ValueScript
