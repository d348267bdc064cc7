import ValueScript.Proofs.Emission.Yield
import ValueScript.Proofs.Tree

/-! The walk of a script as a list of visits. A script is the concatenation of what each visited
value contributes on its own, and the first visit that fails decides the fault of the whole. -/

namespace ValueScript

/-- A value met on the walk, with the name and the depth at which it is met. -/
structure Visit where
  name : String
  depth : Nat
  value : Value

namespace Value

mutual

/-- A value and the values met inside it, in the order of the walk. The fields of a record lie one
level deeper; the fields of the elements of a list lie two levels below the list. -/
def visits (name : String) (depth : Nat) (value : Value) : List Visit :=
  ⟨name, depth, value⟩ ::
    match value with
    | .record fields => fieldVisits name (depth + 1) fields
    | .records [fields] => fieldVisits name (depth + 2) fields
    | .records elements => elementVisits name 1 (depth + 2) elements
    | .numeric _ | .text _ | .collection .. | .unsupported _ => []

/-- The visits of the fields of a record. -/
def fieldVisits (name : String) (depth : Nat) : List (String × Value) → List Visit
  | [] => []
  | (label, entry) :: rest =>
    visits (Name.field name label) depth entry ++ fieldVisits name depth rest

/-- The visits of the fields of each element, counting elements from `index`. -/
def elementVisits (name : String) (index depth : Nat) :
    List (List (String × Value)) → List Visit
  | [] => []
  | fields :: rest =>
    fieldVisits (Name.indexed name index) depth fields ++ elementVisits name (index + 1) depth rest

end

theorem fieldVisits_eq_flatMap (name : String) (depth : Nat) (fields : List (String × Value)) :
    fieldVisits name depth fields =
      fields.flatMap fun field => field.2.visits (Name.field name field.1) depth := by
  induction fields with
  | nil => rfl
  | cons field rest ih =>
    obtain ⟨label, entry⟩ := field
    rw [fieldVisits, ih, List.flatMap_cons]

theorem elementVisits_eq_flatMap (name : String) (index depth : Nat)
    (elements : List (List (String × Value))) :
    elementVisits name index depth elements = (elements.zipIdx index).flatMap fun element =>
      fieldVisits (Name.indexed name element.2) depth element.1 := by
  induction elements generalizing index with
  | nil => rfl
  | cons fields rest ih => rw [elementVisits, ih, List.zipIdx_cons, List.flatMap_cons]

/-- What a value contributes itself, whatever is inside it: a leaf its statement or notice, a
record or a list of records nothing. -/
def own (name : String) : Value → Except Fault Script
  | .record _ | .records _ => .ok .empty
  | .numeric grid => (grid.statement name).map (⟨·, []⟩)
  | .text grid => (grid.statement name).map (⟨·, []⟩)
  | .collection rows cols items =>
    (Collection.statement name rows cols items).map fun
      | .ok statement => ⟨statement, []⟩
      | .error warning => ⟨"", [warning]⟩
  | .unsupported cls => .error (.unsupportedType name cls)

end Value

/-- What a visit contributes under a depth limit. -/
def Visit.output (limit : Nat) (visit : Visit) : Except Fault Script :=
  if limit < visit.depth then .error (.depthExceeded limit) else visit.value.own visit.name

theorem Visit.output_eq_ok {limit : Nat} {visit : Visit} {part : Script}
    (success : visit.output limit = .ok part) : visit.value.own visit.name = .ok part := by
  unfold output at success
  split at success
  · cases success
  · exact success

open Emit

theorem yields_numeric (name : String) (grid : NumericGrid) :
    (Emit.numeric name grid).Yields ((Value.numeric grid).own name) :=
  yields_of_outcome _ yields_write

theorem yields_text (name : String) (grid : TextGrid) :
    (Emit.text name grid).Yields ((Value.text grid).own name) :=
  yields_of_outcome _ yields_write

theorem yields_collection (name : String) (rows cols : Nat) (items : List Value) :
    (Emit.collection name rows cols items).Yields ((Value.collection rows cols items).own name) := by
  apply yields_of_outcome
  intro result
  cases result with
  | ok statement => exact yields_write statement
  | error warning => exact yields_warn warning

private theorem emitFields_yields (limit : Nat) (fields : List (String × Value))
    (entries : ∀ field ∈ fields, ∀ name depth, (field.2.emit limit name depth).Yields
      (Script.collect (Visit.output limit) (field.2.visits name depth)))
    (name : String) (depth : Nat) :
    (Value.emitFields limit name depth fields).Yields
      (Script.collect (Visit.output limit) (Value.fieldVisits name depth fields)) := by
  induction fields with
  | nil => exact yields_pure
  | cons field rest ih =>
    obtain ⟨label, entry⟩ := field
    have first := entries _ (List.mem_cons_self ..) (Name.field name label) depth
    have others := ih fun other member => entries other (List.mem_cons_of_mem _ member)
    simp only [Value.emitFields, Value.fieldVisits, Script.collect_append]
    exact first.seq others

private theorem emitElements_yields (limit : Nat) (elements : List (List (String × Value)))
    (entries : ∀ fields ∈ elements, ∀ field ∈ fields, ∀ name depth,
      (field.2.emit limit name depth).Yields
        (Script.collect (Visit.output limit) (field.2.visits name depth)))
    (name : String) (index depth : Nat) :
    (Value.emitElements limit name index depth elements).Yields
      (Script.collect (Visit.output limit) (Value.elementVisits name index depth elements)) := by
  induction elements generalizing index with
  | nil => exact yields_pure
  | cons fields rest ih =>
    have first := emitFields_yields limit fields (entries _ (List.mem_cons_self ..))
      (Name.indexed name index) depth
    have others := ih (fun other member => entries other (List.mem_cons_of_mem _ member)) (index + 1)
    simp only [Value.emitElements, Value.elementVisits, Script.collect_append]
    exact first.seq others

/-- A visit below the limit fails before anything is written; it is enough to look at the others,
where the first visit contributes what its value does. -/
private theorem emit_yields_of_shallow {limit depth : Nat} {name : String} {value : Value}
    (shallow : ¬limit < depth → Visit.output limit ⟨name, depth, value⟩ = value.own name →
      (value.emit limit name depth).Yields
        (Script.collect (Visit.output limit) (value.visits name depth))) :
    (value.emit limit name depth).Yields
      (Script.collect (Visit.output limit) (value.visits name depth)) := by
  by_cases deep : limit < depth
  · have failed : Visit.output limit ⟨name, depth, value⟩ = .error (.depthExceeded limit) :=
      if_pos deep
    rw [Value.emit.eq_def, if_pos deep, Value.visits.eq_def, Script.collect_cons_of_error _ failed]
    exact yields_throw _
  · exact shallow deep (if_neg deep)

/-- Emission appends the contributions of the visits in order, up to the first that fails. -/
theorem emit_yields (limit : Nat) (value : Value) (name : String) (depth : Nat) :
    (value.emit limit name depth).Yields
      (Script.collect (Visit.output limit) (value.visits name depth)) := by
  induction value generalizing name depth with
  | record fields ih =>
    refine emit_yields_of_shallow fun shallow own => ?_
    rw [Value.emit, if_neg shallow, Value.visits, Script.collect_cons_of_empty _ own]
    exact emitFields_yields limit fields ih name (depth + 1)
  | records elements ih =>
    refine emit_yields_of_shallow fun shallow own => ?_
    rw [Value.emit.eq_def, if_neg shallow, Value.visits.eq_def, Script.collect_cons_of_empty _ own]
    match elements with
    | [] => exact yields_pure
    | [fields] =>
      exact emitFields_yields limit fields (ih _ (List.mem_singleton_self _)) name (depth + 2)
    | _ :: _ :: _ => exact emitElements_yields limit _ ih name 1 (depth + 2)
  | numeric grid =>
    refine emit_yields_of_shallow fun shallow own => ?_
    rw [Value.emit, if_neg shallow, Value.visits, Script.collect_singleton, own]
    exact yields_numeric name grid
  | text grid =>
    refine emit_yields_of_shallow fun shallow own => ?_
    rw [Value.emit, if_neg shallow, Value.visits, Script.collect_singleton, own]
    exact yields_text name grid
  | collection rows cols items _ =>
    refine emit_yields_of_shallow fun shallow own => ?_
    rw [Value.emit, if_neg shallow, Value.visits, Script.collect_singleton, own]
    exact yields_collection name rows cols items
  | unsupported cls =>
    refine emit_yields_of_shallow fun shallow own => ?_
    rw [Value.emit, if_neg shallow, Value.visits, Script.collect_singleton, own]
    exact yields_throw _

/-- The script of a value is what the visits of its walk contribute, one after another. -/
theorem script_eq_collect (limit : Nat) (name : String) (value : Value) :
    value.script limit name = Script.collect (Visit.output limit) (value.visits name 0) :=
  (emit_yields limit value name 0).script_eq

namespace Value

variable {name : String} {depth : Nat} {visit : Visit}

theorem mem_fieldVisits {fields : List (String × Value)}
    (met : visit ∈ fieldVisits name depth fields) :
    ∃ field ∈ fields, visit ∈ field.2.visits (Name.field name field.1) depth := by
  rw [fieldVisits_eq_flatMap] at met
  exact List.mem_flatMap.mp met

theorem mem_elementVisits {elements : List (List (String × Value))} {index : Nat}
    (met : visit ∈ elementVisits name index depth elements) :
    ∃ fields ∈ elements, ∃ place, visit ∈ fieldVisits (Name.indexed name place) depth fields := by
  rw [elementVisits_eq_flatMap] at met
  obtain ⟨element, member, inside⟩ := List.mem_flatMap.mp met
  exact ⟨element.1, List.fst_mem_of_mem_zipIdx member, element.2, inside⟩

theorem mem_visits_of_records {elements : List (List (String × Value))}
    (met : visit ∈ (records elements).visits name depth) :
    visit = ⟨name, depth, records elements⟩ ∨
      ∃ fields ∈ elements, ∃ node, visit ∈ (record fields).visits node (depth + 1) := by
  rw [visits.eq_def] at met
  rcases List.mem_cons.mp met with own | inside
  · exact .inl own
  · match elements with
    | [] => cases inside
    | [fields] => exact .inr ⟨fields, List.mem_cons_self, name, List.mem_cons_of_mem _ inside⟩
    | _ :: _ :: _ =>
      obtain ⟨fields, member, place, below⟩ := mem_elementVisits inside
      exact .inr ⟨fields, member, Name.indexed name place, List.mem_cons_of_mem _ below⟩

end Value

section Walk

variable {Holds : String → Value → Prop}

private theorem forall_fieldVisits {fields : List (String × Value)}
    (entries : ∀ field ∈ fields, ∀ name depth, Holds name field.2 →
      ∀ visit ∈ field.2.visits name depth, Holds visit.name visit.value)
    {name : String} (start : ∀ field ∈ fields, Holds (Name.field name field.1) field.2) (depth : Nat) :
    ∀ visit ∈ Value.fieldVisits name depth fields, Holds visit.name visit.value := by
  intro visit met
  obtain ⟨field, member, inside⟩ := Value.mem_fieldVisits met
  exact entries field member _ depth (start field member) visit inside

private theorem forall_elementVisits {elements : List (List (String × Value))}
    (entries : ∀ fields ∈ elements, ∀ field ∈ fields, ∀ name depth, Holds name field.2 →
      ∀ visit ∈ field.2.visits name depth, Holds visit.name visit.value)
    {name : String} (start : ∀ fields ∈ elements, ∀ index, ∀ field ∈ fields,
      Holds (Name.field (Name.indexed name index) field.1) field.2) (index depth : Nat) :
    ∀ visit ∈ Value.elementVisits name index depth elements, Holds visit.name visit.value := by
  intro visit met
  obtain ⟨fields, member, place, inside⟩ := Value.mem_elementVisits met
  exact forall_fieldVisits (entries fields member) (start fields member place) depth visit inside

/-- What every step of the walk keeps holds of all that is met on the way. -/
theorem forall_visits
    (field : ∀ {name fields}, Holds name (.record fields) →
      ∀ field ∈ fields, Holds (Name.field name field.1) field.2)
    (only : ∀ {name fields}, Holds name (.records [fields]) → Holds name (.record fields))
    (element : ∀ {name elements}, Holds name (.records elements) → ∀ fields ∈ elements,
      ∀ index, Holds (Name.indexed name index) (.record fields))
    (value : Value) (name : String) (depth : Nat) (start : Holds name value) :
    ∀ visit ∈ value.visits name depth, Holds visit.name visit.value := by
  induction value generalizing name depth with
  | record fields ih =>
    exact List.forall_mem_cons.mpr ⟨start, forall_fieldVisits ih (field start) (depth + 1)⟩
  | records elements ih =>
    match elements with
    | [] => exact List.forall_mem_singleton.mpr start
    | [fields] =>
      have inner := forall_fieldVisits (ih fields List.mem_cons_self) (field (only start)) (depth + 2)
      exact List.forall_mem_cons.mpr ⟨start, inner⟩
    | first :: second :: rest =>
      refine List.forall_mem_cons.mpr ⟨start, ?_⟩
      exact forall_elementVisits ih (fun fields member index => field (element start fields member index))
        1 (depth + 2)
  | numeric grid =>
    exact List.forall_mem_singleton.mpr start
  | text grid =>
    exact List.forall_mem_singleton.mpr start
  | collection rows cols items ih =>
    exact List.forall_mem_singleton.mpr start
  | unsupported cls =>
    exact List.forall_mem_singleton.mpr start

end Walk

end ValueScript
