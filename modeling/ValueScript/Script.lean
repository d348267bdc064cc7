import ValueScript.Value.Basic

/-! Scripts under construction. Writing only appends: a step that fails leaves what was written
before it untouched. -/

namespace ValueScript

/-- Notice of a collection that was left out because its entries are not all of one kind. Row and
column of the first entry of another kind count from one. -/
structure Warning where
  name : String
  first : Kind
  found : Kind
  row : Nat
  col : Nat
  deriving DecidableEq, Repr

def Warning.message (warning : Warning) : String :=
  warning.name ++ ": mixed collection entries (" ++ warning.first.label ++ " vs "
    ++ warning.found.label ++ " at " ++ warning.row.repr ++ "," ++ warning.col.repr
    ++ "), skipped"

/-- Assignment statements and the notices that came up while they were written. -/
structure Script where
  text : String
  warnings : List Warning
  deriving DecidableEq

def Script.empty : Script := ⟨"", []⟩

/-- Steps that write to a script and may fail. -/
abbrev Emit := ExceptT Fault (StateM Script)

namespace Emit

def write (text : String) : Emit Unit :=
  modify fun script => ⟨script.text ++ text, script.warnings⟩

def warn (warning : Warning) : Emit Unit :=
  modify fun script => ⟨script.text, script.warnings ++ [warning]⟩

/-- The outcome of writing to an empty script; a failure keeps nothing. -/
def script (steps : Emit Unit) : Except Fault Script :=
  match steps.run.run .empty with
  | (.ok (), script) => .ok script
  | (.error fault, _) => .error fault

end Emit

end ValueScript
