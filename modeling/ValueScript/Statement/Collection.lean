import ValueScript.Rows
import ValueScript.Script
import ValueScript.Token

/-! Statements that assign collections. Entries that are not all of one kind give a notice in place
of a statement, even when some of them have no literal form. -/

namespace ValueScript.Collection

/-- Whether a collection of these sizes has no entry. -/
def isEmpty (rows cols : Nat) : Bool := rows == 0 || cols == 0

/-- The first entry of another kind, with its place counted from `index`. -/
def firstOther (kind : Kind) : (index : Nat) → List Value → Option (Nat × Kind)
  | _, [] => none
  | index, item :: rest =>
    if item.kind = kind then firstOther kind (index + 1) rest else some (index, item.kind)

/-- The rows of a block. A comma follows each token but the last one of all, also at the end of a
row. -/
def lines : List (List String) → String
  | [] => ""
  | [last] => ", ".intercalate last ++ "\n"
  | row :: rest => String.join (row.map (· ++ ", ")) ++ "\n" ++ lines rest

/-- The right-hand side for entries with these tokens. -/
def literal (cols : Nat) (tokens : List String) : String :=
  match tokens with
  | [] => "\x7b\x7d"
  | [token] => "\x7b " ++ token ++ " \x7d"
  | _ => "\x7b\n" ++ lines (cutRows cols tokens) ++ "\x7d"

/-- The statement that assigns a collection, or the notice that takes its place. -/
def statement (name : String) (rows cols : Nat) (items : List Value) :
    Except Fault (Except Warning String) := do
  checkCells (rows * cols) items.length
  let mixed := do
    let first ← items.head?
    let (index, found) ← firstOther first.kind 0 items
    return ⟨name, first.kind, found, index / cols + 1, index % cols + 1⟩
  match mixed with
  | some warning => return .error warning
  | none =>
    let tokens ← items.mapM (Value.token name)
    return .ok (name ++ " = " ++ literal cols tokens ++ ";\n")

end ValueScript.Collection
