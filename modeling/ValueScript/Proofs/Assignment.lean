import ValueScript.Proofs.Emission.Visits
import ValueScript.Proofs.Statement.Outcome

/-! What a script assigns. An assignment keeps of a leaf what its statement shows: the name, the
class, and, unless the leaf is empty, rows, columns and cells. The statement can be written from
these alone. -/

namespace ValueScript

/-- The three kinds of brackets a statement can have. -/
inductive LeafClass
  | numeric
  | text
  | collection
  deriving DecidableEq, Repr

/-- The cells of a leaf that is not empty, row by row. -/
structure Layout where
  rows : Nat
  cols : Nat
  cells : List String
  deriving DecidableEq, Repr

namespace Layout

/-- No layout when there is no row or no column. -/
def of? (extent : Extent) (cells : List String) : Option Layout :=
  if extent.isEmpty then none else some ⟨extent.rows, extent.cols, cells⟩

/-- The cells cut into rows. -/
def grid (layout : Layout) : List (List String) := cutRows layout.cols layout.cells

end Layout

/-- A leaf as its statement shows it. -/
structure Assignment where
  name : String
  cls : LeafClass
  layout : Option Layout
  deriving DecidableEq, Repr

namespace Value

/-- What is assigned for a value itself at a name: the tokens of a number grid, the characters of
a text grid, the tokens of a collection's entries. Nothing is assigned for a mixed collection. -/
def assignment? (name : String) : Value → Option Assignment
  | .record _ | .records _ | .unsupported _ => none
  | .numeric grid =>
    some ⟨name, .numeric, Layout.of? grid.shape.extent grid.elements.tokens⟩
  | .text grid =>
    some ⟨name, .text, Layout.of? grid.shape.extent (grid.chars.map String.singleton)⟩
  | .collection rows cols items =>
    if Collection.OneKind items then
      some ⟨name, .collection, Layout.of? ⟨rows, cols, []⟩
        (items.filterMap fun item => (item.token name).toOption)⟩
    else none

theorem name_of_assignment? {name : String} {value : Value} {assignment : Assignment}
    (assigned : value.assignment? name = some assignment) : assignment.name = name := by
  cases value with
  | record _ | records _ | unsupported _ => cases assigned
  | numeric _ | text _ =>
    cases assigned
    rfl
  | collection _ _ _ =>
    simp only [assignment?, Option.ite_none_right_eq_some] at assigned
    obtain ⟨_, same⟩ := assigned
    cases same
    rfl

/-- What the script of a value assigns, in the order of the walk. -/
def assignments (name : String) (value : Value) : List Assignment :=
  (value.visits name 0).filterMap fun visit => visit.value.assignment? visit.name

end Value

/-- The rows of a collection's block. A comma follows each token but the last one of all. -/
def entryLines : List (List String) → List String
  | [] => []
  | [last] => [", ".intercalate last]
  | row :: rest => String.join (row.map (· ++ ", ")) :: entryLines rest

theorem Collection.lines_eq_join (rows : List (List String)) :
    lines rows = String.join ((entryLines rows).map (· ++ "\n")) := by
  fun_induction lines rows with
  | case1 => simp [entryLines]
  | case2 last => simp [entryLines]
  | case3 row rest more ih => simp [entryLines, ih]

namespace Assignment

/-- What follows the name and the equals sign: the rest of that line, and the lines after it. -/
def body (assignment : Assignment) : String × List String :=
  match assignment.cls, assignment.layout with
  | .numeric, none => ("[];", [])
  | .numeric, some layout =>
    if layout.rows = 1 then
      match layout.cells with
      | [token] => (token ++ ";", [])
      | tokens => ("[" ++ " ".intercalate tokens ++ "];", [])
    else ("[", layout.grid.map (fun row => String.join (row.map (· ++ " "))) ++ ["];"])
  | .text, none => ("'';", [])
  | .text, some layout =>
    if layout.rows = 1 then ("'" ++ String.join layout.cells ++ "';", [])
    else ("", layout.grid.map fun row => "  '" ++ String.join row ++ "'")
  | .collection, none => ("\x7b\x7d;", [])
  | .collection, some layout =>
    match layout.cells with
    | [token] => ("\x7b " ++ token ++ " \x7d;", [])
    | _ => ("\x7b", entryLines layout.grid ++ ["\x7d;"])

/-- The lines of a statement. -/
def lines (assignment : Assignment) : List String :=
  (assignment.name ++ " = " ++ assignment.body.1) :: assignment.body.2

/-- The statement: its lines, each with its end. -/
def statement (assignment : Assignment) : String :=
  String.join (assignment.lines.map (· ++ "\n"))

end Assignment

namespace Assignment

theorem statement_eq (assignment : Assignment) :
    assignment.statement = assignment.name ++ " = " ++
      (assignment.body.1 ++ "\n" ++ String.join (assignment.body.2.map (· ++ "\n"))) := by
  simp [statement, lines, String.append_assoc]

theorem toList_statement (assignment : Assignment) :
    assignment.statement.toList =
      assignment.name.toList ++ ' ' :: '=' :: ' ' :: (assignment.body.1.toList ++
        '\n' :: assignment.body.2.flatMap fun line => line.toList ++ ['\n']) := by
  simp [statement, lines, String.toList_join, List.flatMap_map]

theorem statement_numeric (name : String) (extent : Extent) (tokens : List String) :
    name ++ " = " ++ NumericGrid.literal extent tokens ++ ";\n" =
      statement ⟨name, .numeric, Layout.of? extent tokens⟩ := by
  apply String.toList_injective
  rw [toList_statement]
  unfold NumericGrid.literal Layout.of? body
  by_cases empty : extent.isEmpty
  · simp [empty]
  · by_cases single : extent.rows = 1
    · match tokens with
      | [token] => simp [empty, single]
      | [] | _ :: _ :: _ => simp [empty, single]
    · simp [empty, single, Layout.grid, NumericGrid.line, String.toList_join, List.flatMap_map]

theorem statement_text (name : String) (grid : TextGrid) :
    name ++ " = " ++ grid.body =
      statement ⟨name, .text, Layout.of? grid.shape.extent (grid.chars.map String.singleton)⟩ := by
  apply String.toList_injective
  rw [toList_statement]
  unfold TextGrid.body Layout.of? body
  by_cases empty : grid.shape.extent.isEmpty
  · simp [empty]
  · by_cases single : grid.shape.extent.rows = 1
    · simp [empty, single, Token.quoted, String.toList_join, List.flatMap_map]
    · have wide : grid.shape.extent.cols ≠ 0 := by
        intro narrow
        simp [Extent.isEmpty, narrow] at empty
      simp [empty, single, wide, Layout.grid, TextGrid.rows, TextGrid.line, String.toList_join,
        List.flatMap_map, cutRows_map]

theorem statement_collection (name : String) {rows cols : Nat} (tokens : List String)
    (full : rows * cols = tokens.length) :
    name ++ " = " ++ Collection.literal cols tokens ++ ";\n" =
      statement ⟨name, .collection, Layout.of? ⟨rows, cols, []⟩ tokens⟩ := by
  apply String.toList_injective
  rw [toList_statement]
  unfold Collection.literal Layout.of? body
  have empty_iff : Extent.isEmpty ⟨rows, cols, []⟩ = true ↔ tokens.length = 0 := by
    rw [← full, Nat.mul_eq_zero]
    simp [Extent.isEmpty]
  match tokens with
  | [] => simp [empty_iff]
  | [token] => simp [empty_iff]
  | first :: second :: rest =>
    simp [empty_iff, Layout.grid, Collection.lines_eq_join, String.toList_join, List.flatMap_map]

end Assignment

namespace Value

/-- What a value contributes is the statement of what is assigned for it. -/
theorem text_of_own {name : String} {value : Value} {part : Script}
    (success : value.own name = .ok part) :
    part.text = ((value.assignment? name).map Assignment.statement).getD "" := by
  match value with
  | .record _ | .records _ =>
    cases success
    rfl
  | .unsupported _ => cases success
  | .numeric grid =>
    obtain ⟨text, written, rfl⟩ := map_eq_ok success
    rw [grid.statement_eq] at written
    split at written
    · cases written
    · cases written
      exact Assignment.statement_numeric name grid.shape.extent grid.elements.tokens
  | .text grid =>
    obtain ⟨text, written, rfl⟩ := map_eq_ok success
    rw [grid.statement_eq] at written
    split at written
    · cases written
    · cases written
      exact Assignment.statement_text name grid
  | .collection rows cols items =>
    obtain ⟨result, written, rfl⟩ := map_eq_ok success
    have full := Collection.full_of_statement written
    by_cases same : Collection.OneKind items
    · rw [Collection.statement_of_oneKind name full same] at written
      obtain ⟨tokens, all, rfl⟩ := map_eq_ok written
      rw [assignment?, if_pos same, filterMap_of_mapM all]
      exact Assignment.statement_collection name tokens (full.trans (length_of_mapM all).symm)
    · obtain ⟨warning, notice, _⟩ := Collection.statement_of_mixed name full same
      cases written.symm.trans notice
      rw [assignment?, if_neg same]
      rfl

/-- The text of a script is the statements of its assignments, one after another. -/
theorem text_of_script {limit : Nat} {name : String} {value : Value} {script : Script}
    (written : value.script limit name = .ok script) :
    script.text = String.join ((value.assignments name).map Assignment.statement) := by
  rw [script_eq_collect] at written
  unfold assignments
  generalize value.visits name 0 = visits at written
  induction visits generalizing script with
  | nil =>
    cases written
    rfl
  | cons visit rest ih =>
    obtain ⟨part, others, first, remaining, rfl⟩ := Script.collect_cons_eq_ok written
    have own := text_of_own (Visit.output_eq_ok first)
    have later := ih remaining
    rw [Script.append_def, own, later, List.filterMap_cons]
    cases visit.value.assignment? visit.name <;> simp

end Value

end ValueScript
