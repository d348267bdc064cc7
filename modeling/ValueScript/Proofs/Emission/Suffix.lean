import Mathlib.Data.List.Flatten
import ValueScript.Proofs.Assignment
import ValueScript.Proofs.Emission.Limit

/-! Scripts and outlines without the name of their root. What stands below a root is the same
statements, notices and rows for all roots: the root's name goes before each of their names, and
nothing else depends on it. -/

namespace ValueScript

/-- The same row in the outline of another root. -/
def Node.below (root : String) (row : Node) : Node := { row with name := root ++ row.name }

/-- The same notice in the script of another root. -/
def Warning.below (root : String) (warning : Warning) : Warning :=
  { warning with name := root ++ warning.name }

/-- The same assignment in the script of another root. -/
def Assignment.below (root : String) (assignment : Assignment) : Assignment :=
  { assignment with name := root ++ assignment.name }

/-- What follows the name in a statement. -/
def Assignment.tail (assignment : Assignment) : String :=
  " = " ++ (assignment.body.1 ++ "\n" ++ String.join (assignment.body.2.map (· ++ "\n")))

theorem Assignment.statement_below (root : String) (assignment : Assignment) :
    (assignment.below root).statement = root ++ assignment.name ++ assignment.tail :=
  (statement_eq _).trans (String.append_assoc ..)

/-- A script without the name of its root: statements, each as what goes on from that name and what
follows then, and notices under names that go on from it. -/
structure Rootless where
  statements : List (String × String)
  warnings : List Warning

/-- The script below a root. -/
def Rootless.script (root : String) (parts : Rootless) : Script :=
  ⟨String.join (parts.statements.map fun (suffix, body) => root ++ suffix ++ body),
    parts.warnings.map (Warning.below root)⟩

namespace Value

private theorem outlineFields_append (root : String) {fields : List (String × Value)}
    (entries : ∀ field ∈ fields, ∀ name,
      field.2.outline (root ++ name) = (field.2.outline name).map (Node.below root))
    (name : String) :
    outlineFields (root ++ name) fields = (outlineFields name fields).map (Node.below root) := by
  rw [outlineFields_eq_flatMap, outlineFields_eq_flatMap, List.map_flatMap]
  refine List.flatMap_congr fun field member => ?_
  rw [Name.field_append, entries field member]

private theorem outlineElements_append (root : String) {elements : List (List (String × Value))}
    (entries : ∀ fields ∈ elements, ∀ field ∈ fields, ∀ name,
      field.2.outline (root ++ name) = (field.2.outline name).map (Node.below root))
    (name : String) (index : Nat) :
    outlineElements (root ++ name) index elements =
      (outlineElements name index elements).map (Node.below root) := by
  rw [outlineElements_eq_flatMap, outlineElements_eq_flatMap, List.map_flatMap]
  refine List.flatMap_congr fun element member => ?_
  have fields := outlineFields_append root (entries _ (List.fst_mem_of_mem_zipIdx member))
  rw [Name.indexed_append, fields, List.map_cons]
  rfl

/-- A longer root name changes nothing in an outline but the names. -/
theorem outline_append (root : String) (value : Value) (name : String) :
    value.outline (root ++ name) = (value.outline name).map (Node.below root) := by
  induction value generalizing name with
  | record fields ih => exact congrArg (List.cons _) (outlineFields_append root ih name)
  | records elements ih =>
    match elements with
    | [] => rfl
    | [fields] =>
      exact congrArg (List.cons _) (outlineFields_append root (ih _ List.mem_cons_self) name)
    | _ :: _ :: _ => exact congrArg (List.cons _) (outlineElements_append root ih name 1)
  | numeric _ => rfl
  | text _ => rfl
  | collection _ _ _ _ => rfl
  | unsupported _ => rfl

theorem token_append (root name : String) (value : Value) :
    value.token (root ++ name) = (value.token name).mapError (Fault.below root) := by
  match value with
  | .text grid =>
    unfold token TextGrid.checkCells checkCells
    by_cases full : grid.shape.cells = grid.chars.length
    · by_cases single : grid.shape.extent.higher = [] ∧ grid.shape.extent.rows ≤ 1
      · simp [full, single, bind, Except.bind, pure, Except.pure, Except.mapError]
      · simp only [full, single, bind, Except.bind, if_true, if_false]
        rfl
    · simp [full, bind, Except.bind, Except.mapError, Fault.below]
  | .numeric grid =>
    rw [token, token]
    split <;> rfl
  | .record _ | .records [_] => rfl
  | .records [] | .records (_ :: _ :: _) | .collection .. | .unsupported _ => rfl

theorem assignment?_append (root name : String) (value : Value) :
    value.assignment? (root ++ name) = (value.assignment? name).map (Assignment.below root) := by
  match value with
  | .record _ | .records _ | .unsupported _ | .numeric _ | .text _ => rfl
  | .collection rows cols items =>
    have tokens (item : Value) :
        (item.token (root ++ name)).toOption = (item.token name).toOption := by
      rw [token_append]
      cases item.token name <;> rfl
    simp only [assignment?, tokens]
    split <;> rfl

theorem assignments_below (root : String) (value : Value) :
    value.assignments root = (value.assignments "").map (Assignment.below root) := by
  unfold assignments
  rw [visits_eq_map, List.filterMap_map, List.map_filterMap]
  exact congrArg (List.filterMap · _) (funext fun visit =>
    assignment?_append root visit.name visit.value)

/-- The notice that a value gives in place of a statement, if it gives one. -/
def notice? (name : String) : Value → Option Warning
  | .collection _ cols items => Collection.notice? name cols items
  | _ => none

theorem notice?_append (root name : String) (value : Value) :
    value.notice? (root ++ name) = (value.notice? name).map (Warning.below root) := by
  match value with
  | .collection _ _ [] => rfl
  | .collection _ cols (first :: rest) =>
    simp only [notice?, Collection.notice?_cons, Option.map_map]
    rfl
  | .record _ | .records _ | .unsupported _ | .numeric _ | .text _ => rfl

theorem warnings_of_own {name : String} {value : Value} {part : Script}
    (success : value.own name = .ok part) : part.warnings = (value.notice? name).toList := by
  match value with
  | .record _ | .records _ =>
    cases success
    rfl
  | .unsupported _ => cases success
  | .numeric grid =>
    obtain ⟨text, _, rfl⟩ := map_eq_ok success
    rfl
  | .text grid =>
    obtain ⟨text, _, rfl⟩ := map_eq_ok success
    rfl
  | .collection rows cols items =>
    obtain ⟨result, written, rfl⟩ := map_eq_ok success
    have full := Collection.full_of_statement written
    cases mixed : Collection.notice? name cols items with
    | some warning =>
      cases written.symm.trans (Collection.statement_of_notice full mixed)
      rw [notice?, mixed]
      rfl
    | none =>
      have same := Collection.notice?_eq_none_iff.mp mixed
      rw [Collection.statement_of_oneKind name full same] at written
      obtain ⟨tokens, _, rfl⟩ := map_eq_ok written
      rw [notice?, mixed]
      rfl

/-- The notices of a script, in the order of the walk. -/
def notices (name : String) (value : Value) : List Warning :=
  (value.visits name 0).filterMap fun visit => visit.value.notice? visit.name

theorem notices_below (root : String) (value : Value) :
    value.notices root = (value.notices "").map (Warning.below root) := by
  unfold notices
  rw [visits_eq_map, List.filterMap_map, List.map_filterMap]
  exact congrArg (List.filterMap · _) (funext fun visit =>
    notice?_append root visit.name visit.value)

theorem warnings_of_script {limit : Nat} {name : String} {value : Value} {script : Script}
    (written : value.script limit name = .ok script) : script.warnings = value.notices name := by
  rw [script_eq_collect] at written
  unfold notices
  generalize value.visits name 0 = visits at written
  induction visits generalizing script with
  | nil =>
    cases written
    rfl
  | cons visit rest ih =>
    obtain ⟨part, others, first, remaining, rfl⟩ := Script.collect_cons_eq_ok written
    have own := warnings_of_own (Visit.output_eq_ok first)
    rw [Script.append_def, own, ih remaining, List.filterMap_cons]
    cases visit.value.notice? visit.name <;> rfl

end Value

theorem Visit.fault?_below (limit : Nat) (root : String) (visit : Visit) :
    (visit.below root).fault? limit = (visit.fault? limit).map (Fault.below root) := by
  unfold fault?
  rw [show (visit.below root).depth = visit.depth from rfl]
  split
  · rfl
  · exact visit.value.fault?_append root visit.name

namespace Value

theorem failure?_script_below (limit : Nat) (root : String) (value : Value) :
    failure? (value.script limit root) =
      (failure? (value.script limit "")).map (Fault.below root) := by
  rw [failure?_script, failure?_script, visits_eq_map, List.findSome?_map, List.map_findSome?]
  exact congrArg (List.findSome? · _) (funext (Visit.fault?_below limit root))

/-- The statements of a value, without the name of the root. -/
def rootless (value : Value) : Rootless :=
  ⟨(value.assignments "").map fun assignment => (assignment.name, assignment.tail),
    value.notices ""⟩

/-- A script is that of the parts below its root. -/
theorem script_eq_rootless {limit : Nat} {root : String} {value : Value} {script : Script}
    (written : value.script limit root = .ok script) : script = value.rootless.script root := by
  have text := text_of_script written
  have warnings := warnings_of_script written
  have statements : Assignment.statement ∘ Assignment.below root =
      fun assignment => root ++ assignment.name ++ assignment.tail :=
    funext (Assignment.statement_below root)
  rw [assignments_below, List.map_map, statements] at text
  rw [notices_below] at warnings
  rw [Rootless.script, rootless, List.map_map]
  obtain ⟨_, _⟩ := script
  exact Script.mk.injEq .. ▸ ⟨text, warnings⟩

private theorem rows_of_fieldVisits {fields : List (String × Value)}
    (entries : ∀ field ∈ fields, ∀ name depth,
      ((field.2.visits name depth).map Visit.row).Sublist (field.2.outline name))
    (name : String) (depth : Nat) :
    ((fieldVisits name depth fields).map Visit.row).Sublist (outlineFields name fields) := by
  rw [fieldVisits_eq_flatMap, outlineFields_eq_flatMap, List.map_flatMap]
  exact .flatMap_right fields fun field member => entries field member _ depth

private theorem rows_of_elementVisits {elements : List (List (String × Value))}
    (entries : ∀ fields ∈ elements, ∀ field ∈ fields, ∀ name depth,
      ((field.2.visits name depth).map Visit.row).Sublist (field.2.outline name))
    (name : String) (index depth : Nat) :
    ((elementVisits name index depth elements).map Visit.row).Sublist
      (outlineElements name index elements) := by
  rw [elementVisits_eq_flatMap, outlineElements_eq_flatMap, List.map_flatMap]
  refine .flatMap_right _ fun element member => .cons _ ?_
  exact rows_of_fieldVisits (entries _ (List.fst_mem_of_mem_zipIdx member)) _ depth

/-- An outline has a row for each visit, in the order of the walk. -/
theorem rows_of_visits (value : Value) (name : String) (depth : Nat) :
    ((value.visits name depth).map Visit.row).Sublist (value.outline name) := by
  induction value generalizing name depth with
  | record fields ih => exact .cons_cons _ (rows_of_fieldVisits ih name (depth + 1))
  | records elements ih =>
    match elements with
    | [] => exact .refl _
    | [fields] =>
      exact .cons_cons _ (rows_of_fieldVisits (ih fields List.mem_cons_self) name (depth + 2))
    | _ :: _ :: _ => exact .cons_cons _ (rows_of_elementVisits ih name 1 (depth + 2))
  | numeric _ => exact .refl _
  | text _ => exact .refl _
  | collection _ _ _ _ => exact .refl _
  | unsupported _ => exact .refl _

/-- What is found on a walk under the names of visits comes in the order of the outline. -/
private theorem names_of_found {Found : Type} (find : String → Value → Option Found)
    (label : Found → String)
    (named : ∀ name value found, find name value = some found → label found = name)
    (value : Value) (root : String) :
    (((value.visits root 0).filterMap fun visit => find visit.name visit.value).map label).Sublist
      ((value.outline root).map Node.name) := by
  have rows := (rows_of_visits value root 0).map Node.name
  rw [List.map_map] at rows
  refine List.Sublist.trans ?_ rows
  generalize value.visits root 0 = visits
  induction visits with
  | nil => exact .slnil
  | cons visit rest ih =>
    rw [List.filterMap_cons]
    cases met : find visit.name visit.value with
    | none => exact .cons _ ih
    | some found =>
      have same := named visit.name visit.value found met
      rw [List.map_cons, List.map_cons, same]
      exact .cons_cons _ ih

theorem name_of_notice? {name : String} {value : Value} {warning : Warning}
    (given : value.notice? name = some warning) : warning.name = name := by
  cases value with
  | record _ | records _ | unsupported _ | numeric _ | text _ => cases given
  | collection _ _ _ => exact Collection.name_of_notice given

/-- Below all roots a value has the same script and the same outline: statements, notices and rows
under names that go on from the root's, or a fault that it reports under such a name. The names of
statements and notices are those of rows, in the order of the outline. -/
theorem root_is_prefix (limit : Nat) (value : Value) :
    ∃ (outcome : Except Fault Rootless) (rows : List Node),
      (∀ root : String,
        value.script limit root =
            (outcome.map (Rootless.script root)).mapError (Fault.below root) ∧
          value.outline root = rows.map (Node.below root)) ∧
      ∀ parts, outcome = .ok parts →
        (parts.statements.map Prod.fst).Sublist (rows.map Node.name) ∧
        (∀ statement ∈ parts.statements, ∃ literal, statement.2 = " = " ++ literal) ∧
        (parts.warnings.map Warning.name).Sublist (rows.map Node.name) := by
  refine ⟨(value.script limit "").map fun _ => value.rootless, value.outline "", ?_, ?_⟩
  · intro root
    refine ⟨?_, (congrArg value.outline (String.append_empty).symm).trans (outline_append root value "")⟩
    have fault := failure?_script_below limit root value
    cases plain : value.script limit "" with
    | error cause =>
      rw [plain] at fault
      exact failure?_eq_some_iff.mp fault
    | ok _ =>
      rw [plain] at fault
      obtain ⟨script, written⟩ := failure?_eq_none_iff.mp fault
      rw [written, script_eq_rootless written]
      rfl
  · intro parts described
    obtain ⟨_, _, rfl⟩ := map_eq_ok described
    refine ⟨?_, ?_, ?_⟩
    · rw [rootless, List.map_map]
      exact names_of_found assignment? Assignment.name (fun _ _ _ => name_of_assignment?) value ""
    · intro statement member
      obtain ⟨assignment, _, rfl⟩ := List.mem_map.mp member
      exact ⟨_, rfl⟩
    · exact names_of_found notice? Warning.name (fun _ _ _ => name_of_notice?) value ""

end Value

end ValueScript
