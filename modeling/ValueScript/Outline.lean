import ValueScript.Name
import ValueScript.Value.Basic

/-! Outlines of values: every node that a script walks, in the order of the walk. -/

namespace ValueScript

/-- A node with the name that a script gives it. -/
structure Node where
  name : String
  kind : Kind
  dims : Shape
  deriving DecidableEq, Repr

namespace Value

mutual

/-- The node of a value followed by the nodes inside it. A list of one record has no node for its
element, whose fields stand under the list's own name. Collections are not entered. -/
def outline (name : String) (value : Value) : List Node :=
  ⟨name, value.kind, value.dims⟩ ::
    match value with
    | .record fields => outlineFields name fields
    | .records [fields] => outlineFields name fields
    | .records elements => outlineElements name 1 elements
    | .numeric _ | .text _ | .collection .. | .unsupported _ => []

def outlineFields (name : String) : List (String × Value) → List Node
  | [] => []
  | (label, entry) :: rest => outline (Name.field name label) entry ++ outlineFields name rest

/-- A node for each element, counting from `index`, each followed by its fields. -/
def outlineElements (name : String) (index : Nat) :
    List (List (String × Value)) → List Node
  | [] => []
  | fields :: rest =>
    ⟨Name.indexed name index, .record, [1, 1]⟩ ::
      (outlineFields (Name.indexed name index) fields ++ outlineElements name (index + 1) rest)

end

theorem outlineFields_eq_flatMap (name : String) (fields : List (String × Value)) :
    outlineFields name fields =
      fields.flatMap fun field => field.2.outline (Name.field name field.1) := by
  induction fields with
  | nil => rfl
  | cons field rest ih =>
    obtain ⟨label, entry⟩ := field
    rw [outlineFields, ih, List.flatMap_cons]

theorem outlineElements_eq_flatMap (name : String) (index : Nat)
    (elements : List (List (String × Value))) :
    outlineElements name index elements = (elements.zipIdx index).flatMap fun element =>
      ⟨Name.indexed name element.2, .record, [1, 1]⟩ ::
        outlineFields (Name.indexed name element.2) element.1 := by
  induction elements generalizing index with
  | nil => rfl
  | cons fields rest ih =>
    rw [outlineElements, ih, List.zipIdx_cons, List.flatMap_cons]
    rfl

end Value

end ValueScript
