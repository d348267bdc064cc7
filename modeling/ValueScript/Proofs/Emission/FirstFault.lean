import ValueScript.Proofs.Emission.Visits
import ValueScript.Proofs.Statement.Outcome

namespace ValueScript

namespace Value

/-- Why a value has no script on account of itself, at a name. A collection fails when its items
do not fill its sizes; items of one kind must moreover all have a token. -/
def fault? (name : String) : Value → Option Fault
  | .record _ | .records _ => none
  | .numeric grid => gridFault? name grid.shape grid.elements.length
  | .text grid => gridFault? name grid.shape grid.chars.length
  | .collection rows cols items =>
    if rows * cols ≠ items.length then some (.shapeMismatch (rows * cols) items.length)
    else if Collection.OneKind items then items.findSome? fun item => failure? (item.token name)
    else none
  | .unsupported cls => some (.unsupportedType name cls)

theorem failure?_own (name : String) (value : Value) :
    failure? (value.own name) = value.fault? name := by
  match value with
  | .record _ | .records _ | .unsupported _ => rfl
  | .numeric grid =>
    rw [own, failure?_map, grid.statement_eq, fault?]
    split <;> simp [*]
  | .text grid =>
    rw [own, failure?_map, grid.statement_eq, fault?]
    split <;> simp [*]
  | .collection rows cols items =>
    rw [own, failure?_map, fault?]
    by_cases full : rows * cols = items.length
    · by_cases same : Collection.OneKind items
      · rw [Collection.statement_of_oneKind name full same, failure?_map, failure?_mapM]
        simp [full, same]
      · obtain ⟨warning, notice, _⟩ := Collection.statement_of_mixed name full same
        simp [notice, full, same]
    · simp [Collection.statement_of_mismatch name full, full]

end Value

/-- Why a visit fails under a depth limit: it lies too deep, or else its value fails. -/
def Visit.fault? (limit : Nat) (visit : Visit) : Option Fault :=
  if limit < visit.depth then some (.depthExceeded limit) else visit.value.fault? visit.name

theorem Visit.failure?_output (limit : Nat) (visit : Visit) :
    failure? (visit.output limit) = visit.fault? limit := by
  unfold Visit.output Visit.fault?
  split
  · rfl
  · exact visit.value.failure?_own visit.name

theorem failure?_script (limit : Nat) (name : String) (value : Value) :
    failure? (value.script limit name) =
      (value.visits name 0).findSome? (Visit.fault? limit) := by
  rw [script_eq_collect, Script.collect, failure?_map, failure?_mapM]
  exact congrArg (List.findSome? · _) (funext (Visit.failure?_output limit))

namespace Value

variable {limit : Nat} {name : String} {value : Value}

/-- A value has a script exactly when no visit of its walk fails. -/
theorem exists_script_iff : (∃ script, value.script limit name = .ok script) ↔
    ∀ visit ∈ value.visits name 0, visit.fault? limit = none := by
  rw [← failure?_eq_none_iff, failure?_script, List.findSome?_eq_none_iff]

/-- The fault that is reported is that of the first failing visit. -/
theorem script_eq_error_iff {fault : Fault} : value.script limit name = .error fault ↔
    ∃ before visit after, value.visits name 0 = before ++ visit :: after ∧
      visit.fault? limit = some fault ∧ ∀ earlier ∈ before, earlier.fault? limit = none := by
  rw [← failure?_eq_some_iff, failure?_script, List.findSome?_eq_some_iff]

end Value

end ValueScript
