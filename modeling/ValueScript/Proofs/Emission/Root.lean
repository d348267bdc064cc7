import ValueScript.Proofs.Emission.FirstFault
import ValueScript.Proofs.Token

namespace ValueScript

namespace Name

theorem field_append (root parent label : String) :
    field (root ++ parent) label = root ++ field parent label := by
  simp [field, String.append_assoc]

theorem indexed_append (root parent : String) (index : Nat) :
    indexed (root ++ parent) index = root ++ indexed parent index := by
  simp [indexed, String.append_assoc]

end Name

/-- The same visit when the walk starts at another root. -/
def Visit.below (root : String) (visit : Visit) : Visit :=
  { visit with name := root ++ visit.name }

/-- The same fault when it is reported below another root. -/
def Fault.below (root : String) : Fault → Fault
  | .unsupportedType name cls => .unsupportedType (root ++ name) cls
  | .unsupportedRank name rank => .unsupportedRank (root ++ name) rank
  | .depthExceeded limit => .depthExceeded limit
  | .shapeMismatch expected actual => .shapeMismatch expected actual
  | .raggedRows row expected actual => .raggedRows row expected actual

namespace Value

private theorem fieldVisits_append (root : String) {fields : List (String × Value)}
    (entries : ∀ field ∈ fields, ∀ name depth,
      field.2.visits (root ++ name) depth = (field.2.visits name depth).map (Visit.below root))
    (name : String) (depth : Nat) :
    fieldVisits (root ++ name) depth fields =
      (fieldVisits name depth fields).map (Visit.below root) := by
  rw [fieldVisits_eq_flatMap, fieldVisits_eq_flatMap, List.map_flatMap]
  refine List.flatMap_congr fun field member => ?_
  rw [Name.field_append, entries field member]

private theorem elementVisits_append (root : String) {elements : List (List (String × Value))}
    (entries : ∀ fields ∈ elements, ∀ field ∈ fields, ∀ name depth,
      field.2.visits (root ++ name) depth = (field.2.visits name depth).map (Visit.below root))
    (name : String) (index depth : Nat) :
    elementVisits (root ++ name) index depth elements =
      (elementVisits name index depth elements).map (Visit.below root) := by
  rw [elementVisits_eq_flatMap, elementVisits_eq_flatMap, List.map_flatMap]
  refine List.flatMap_congr fun element member => ?_
  rw [Name.indexed_append, fieldVisits_append root (entries _ (List.fst_mem_of_mem_zipIdx member))]

/-- A longer root name changes nothing on the walk but the names. -/
theorem visits_append (root : String) (value : Value) (name : String) (depth : Nat) :
    value.visits (root ++ name) depth = (value.visits name depth).map (Visit.below root) := by
  induction value generalizing name depth with
  | record fields ih =>
    exact congrArg (List.cons _) (fieldVisits_append root ih name (depth + 1))
  | records elements ih =>
    match elements with
    | [] => rfl
    | [fields] =>
      have inner := fieldVisits_append root (ih _ List.mem_cons_self) name (depth + 2)
      exact congrArg (List.cons _) inner
    | _ :: _ :: _ =>
      exact congrArg (List.cons _) (elementVisits_append root ih name 1 (depth + 2))
  | numeric _ => rfl
  | text _ => rfl
  | collection _ _ _ _ => rfl
  | unsupported _ => rfl

/-- The walk below a root is the walk below the empty name with the root put before each name. -/
theorem visits_eq_map (root : String) (value : Value) (depth : Nat) :
    value.visits root depth = (value.visits "" depth).map (Visit.below root) := by
  rw [← visits_append, String.append_empty]

private theorem tokenFault?_append (root name : String) (value : Value) :
    value.tokenFault? (root ++ name) = (value.tokenFault? name).map (Fault.below root) := by
  match value with
  | .text grid =>
    by_cases full : grid.shape.cells = grid.chars.length
    · by_cases single : grid.shape.extent.higher = [] ∧ grid.shape.extent.rows ≤ 1 <;>
        simp [tokenFault?, full, single, unwritable, Fault.below]
    · simp [tokenFault?, full, Fault.below]
  | .numeric grid =>
    by_cases single : grid.elements.length = 1 ∧ grid.shape.extent = ⟨1, 1, []⟩ <;>
      simp [tokenFault?, single, unwritable, Fault.below]
  | .record _ | .records [_] => rfl
  | .records [] | .records (_ :: _ :: _) | .collection .. | .unsupported _ => rfl

private theorem gridFault?_append (root name : String) (shape : Shape) (stored : Nat) :
    gridFault? (root ++ name) shape stored =
      (gridFault? name shape stored).map (Fault.below root) := by
  unfold gridFault?
  split
  · rfl
  · split <;> rfl

theorem fault?_append (root name : String) (value : Value) :
    value.fault? (root ++ name) = (value.fault? name).map (Fault.below root) := by
  match value with
  | .record _ | .records _ | .unsupported _ => rfl
  | .numeric grid => exact gridFault?_append ..
  | .text grid => exact gridFault?_append ..
  | .collection rows cols items =>
    by_cases full : rows * cols = items.length
    · by_cases same : Collection.OneKind items
      · simp [fault?, full, same, List.map_findSome?, Function.comp_def, failure?_token,
          tokenFault?_append]
      · simp [fault?, full, same]
    · simp [fault?, full, Fault.below]

end Value

end ValueScript
