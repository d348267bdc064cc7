import ValueScript.Statement.Grid
import ValueScript.Statement.Collection
import ValueScript.Proofs.Attempt

namespace ValueScript

theorem eq_of_checkCells {expected stored : Nat} (filled : checkCells expected stored = .ok ()) :
    expected = stored := by
  unfold checkCells at filled
  split at filled
  · assumption
  · cases filled

/-- Why a grid of this shape with this many stored cells has no statement: too many dimensions,
or else cells that do not fill the shape. -/
def gridFault? (name : String) (shape : Shape) (stored : Nat) : Option Fault :=
  if 2 < shape.extent.rank then some (.unsupportedRank name shape.extent.rank)
  else if shape.cells ≠ stored then some (.shapeMismatch shape.cells stored)
  else none

theorem Extent.rank_le_two_iff (extent : Extent) : extent.rank ≤ 2 ↔ extent.higher = [] := by
  rw [← List.length_eq_zero_iff, rank]
  omega

theorem gridFault?_eq_none_iff {name : String} {shape : Shape} {stored : Nat} :
    gridFault? name shape stored = none ↔ shape.extent.higher = [] ∧ shape.cells = stored := by
  rw [← Extent.rank_le_two_iff, gridFault?]
  by_cases high : 2 < shape.extent.rank
  · simp [high, Nat.not_le.mpr high]
  · by_cases full : shape.cells = stored <;> simp [high, full, Nat.not_lt.mp high]

/-- What follows both checks of a grid is reached exactly when the grid has no fault. -/
private theorem checkGrid_then {α : Type} (name : String) (shape : Shape) (stored : Nat)
    (next : Except Fault α) :
    (do shape.extent.checkFlat name; checkCells shape.cells stored; next) =
      match gridFault? name shape stored with
      | some fault => .error fault
      | none => next := by
  have flat := shape.extent.rank_le_two_iff
  unfold Extent.checkFlat checkCells gridFault?
  by_cases higher : shape.extent.higher = []
  · have low : ¬2 < shape.extent.rank := Nat.not_lt.mpr (flat.mpr higher)
    by_cases full : shape.cells = stored <;> simp [higher, low, full, bind, Except.bind]
  · have high : 2 < shape.extent.rank := Nat.lt_of_not_le fun low => higher (flat.mp low)
    simp [higher, high, bind, Except.bind]

theorem NumericGrid.statement_eq (name : String) (grid : NumericGrid) :
    grid.statement name =
      match gridFault? name grid.shape grid.elements.length with
      | some fault => .error fault
      | none => .ok (name ++ " = " ++ literal grid.shape.extent grid.elements.tokens ++ ";\n") :=
  checkGrid_then name grid.shape grid.elements.length _

/-- The right-hand side of a text grid's statement: quoted and closed, or one line for each row. -/
def TextGrid.body (grid : TextGrid) : String :=
  if grid.shape.extent.isEmpty then "'';\n"
  else if grid.shape.extent.rows = 1 then Token.quoted grid.chars ++ ";\n"
  else "\n" ++ String.join (grid.rows.map line)

theorem TextGrid.statement_eq (name : String) (grid : TextGrid) :
    grid.statement name =
      match gridFault? name grid.shape grid.chars.length with
      | some fault => .error fault
      | none => .ok (name ++ " = " ++ grid.body) := by
  refine (checkGrid_then name grid.shape grid.chars.length _).trans ?_
  split
  · rfl
  · have header (lines : String) : " = \n" ++ lines = " = " ++ ("\n" ++ lines) := by
      rw [show " = \n" = " = " ++ "\n" from rfl, String.append_assoc]
    have quotes : " = '';\n" = " = " ++ "'';\n" := rfl
    unfold TextGrid.body
    by_cases empty : grid.shape.extent.isEmpty
    · simp [empty, quotes, String.append_assoc, pure, Except.pure]
    · by_cases single : grid.shape.extent.rows = 1 <;>
        simp [empty, single, header, String.append_assoc, pure, Except.pure]

namespace Collection

/-- Whether the entries of a collection all have one kind. -/
def OneKind (items : List Value) : Prop :=
  ∀ left ∈ items, ∀ right ∈ items, left.kind = right.kind

instance (items : List Value) : Decidable (OneKind items) :=
  inferInstanceAs (Decidable (∀ left ∈ items, ∀ right ∈ items, left.kind = right.kind))

theorem firstOther_eq_none_iff (kind : Kind) (index : Nat) (items : List Value) :
    firstOther kind index items = none ↔ ∀ item ∈ items, item.kind = kind := by
  induction items generalizing index with
  | nil => simp [firstOther]
  | cons item rest ih =>
    by_cases same : item.kind = kind
    · simp [firstOther, same, ih]
    · simp [firstOther, same]

theorem firstOther_lt {kind found : Kind} {index place : Nat} {items : List Value}
    (other : firstOther kind index items = some (place, found)) : place < index + items.length := by
  induction items generalizing index with
  | nil => cases other
  | cons item rest ih =>
    rw [firstOther] at other
    rw [List.length_cons]
    split at other
    · have later := ih other
      omega
    · cases other
      omega

private theorem oneKind_cons_iff (first : Value) (rest : List Value) :
    OneKind (first :: rest) ↔ firstOther first.kind 0 (first :: rest) = none := by
  rw [firstOther_eq_none_iff]
  constructor
  · intro same item member
    exact same item member first (List.mem_cons_self ..)
  · intro same left inLeft right inRight
    exact (same left inLeft).trans (same right inRight).symm

theorem statement_of_mismatch (name : String) {rows cols : Nat} {items : List Value}
    (mismatch : rows * cols ≠ items.length) :
    statement name rows cols items = .error (.shapeMismatch (rows * cols) items.length) := by
  simp [statement, checkCells, mismatch, bind, Except.bind]

theorem full_of_statement {name : String} {rows cols : Nat} {items : List Value}
    {result : Except Warning String} (written : statement name rows cols items = .ok result) :
    rows * cols = items.length := Decidable.byContradiction fun mismatch => by
  rw [statement_of_mismatch name mismatch] at written
  cases written

theorem statement_of_oneKind (name : String) {rows cols : Nat} {items : List Value}
    (full : rows * cols = items.length) (same : OneKind items) :
    statement name rows cols items =
      (items.mapM (Value.token name)).map fun tokens =>
        .ok (name ++ " = " ++ literal cols tokens ++ ";\n") := by
  unfold statement checkCells
  rw [if_pos full]
  cases items with
  | nil => rfl
  | cons first rest =>
    have found := (oneKind_cons_iff first rest).mp same
    simp only [List.head?_cons, found, bind, Except.bind, Option.bind]
    rfl

/-- The notice that entries give when they are not all of one kind. -/
def notice? (name : String) (cols : Nat) (items : List Value) : Option Warning := do
  let first ← items.head?
  let (index, found) ← firstOther first.kind 0 items
  return ⟨name, first.kind, found, index / cols + 1, index % cols + 1⟩

theorem notice?_cons (name : String) (cols : Nat) (first : Value) (rest : List Value) :
    notice? name cols (first :: rest) =
      (firstOther first.kind 0 (first :: rest)).map fun (index, found) =>
        ⟨name, first.kind, found, index / cols + 1, index % cols + 1⟩ := by
  cases found : firstOther first.kind 0 (first :: rest) <;> simp [notice?, found]

theorem notice?_eq_none_iff {name : String} {cols : Nat} {items : List Value} :
    notice? name cols items = none ↔ OneKind items := by
  cases items with
  | nil => simp [notice?, OneKind]
  | cons first rest => rw [notice?_cons, Option.map_eq_none_iff, oneKind_cons_iff]

theorem name_of_notice {name : String} {cols : Nat} {items : List Value} {warning : Warning}
    (mixed : notice? name cols items = some warning) : warning.name = name := by
  cases items with
  | nil => cases mixed
  | cons first rest =>
    rw [notice?_cons] at mixed
    obtain ⟨_, _, rfl⟩ := Option.map_eq_some_iff.mp mixed
    rfl

theorem statement_eq (name : String) (rows cols : Nat) (items : List Value) :
    statement name rows cols items = do
      checkCells (rows * cols) items.length
      match notice? name cols items with
      | some warning => return .error warning
      | none =>
        let tokens ← items.mapM (Value.token name)
        return .ok (name ++ " = " ++ literal cols tokens ++ ";\n") := rfl

theorem statement_of_notice {name : String} {rows cols : Nat} {items : List Value} {warning : Warning}
    (full : rows * cols = items.length) (mixed : notice? name cols items = some warning) :
    statement name rows cols items = .ok (.error warning) := by
  rw [statement_eq, checkCells, if_pos full, mixed]
  rfl

/-- Mixed kinds give a notice at the collection's own name, whatever else is wrong with an
entry. -/
theorem statement_of_mixed (name : String) {rows cols : Nat} {items : List Value}
    (full : rows * cols = items.length) (mixed : ¬OneKind items) :
    ∃ warning : Warning, statement name rows cols items = .ok (.error warning) ∧
      warning.name = name := by
  cases found : notice? name cols items with
  | none => exact absurd (notice?_eq_none_iff.mp found) mixed
  | some warning => exact ⟨warning, statement_of_notice full found, name_of_notice found⟩

end Collection

end ValueScript
