import Mathlib.Data.List.Induction
import ValueScript.Proofs.Machine.Steps
import ValueScript.Proofs.Statement.Outcome
import ValueScript.Proofs.Token

namespace ValueScript

/-- Whether a shape can be multiplied up size by size. -/
def Shape.Fits (shape : Shape) : Prop :=
  ∀ count ≤ shape.length, Shape.cells (shape.take count) < Machine.wordBound

instance (shape : Shape) : Decidable shape.Fits :=
  inferInstanceAs (Decidable (∀ count ≤ shape.length, Shape.cells (shape.take count) < _))

namespace Machine

/-- Drops ones from the end of a list of sizes, down to two sizes. -/
def trim (sizes : List Nat) : List Nat :=
  if 2 < sizes.length ∧ sizes.getLast? = some 1 then trim sizes.dropLast else sizes
termination_by sizes.length
decreasing_by
  rw [List.length_dropLast]
  omega

/-- The sizes of a layout as a list, at least two of them. -/
def dims : Shape → List Nat
  | [] => trim [1, 1]
  | [size] => trim [1, size]
  | sizes => trim sizes

private theorem trim_cons_cons (rows cols : Nat) (higher : List Nat) :
    trim (rows :: cols :: higher) = rows :: cols :: dropTrailing (· == 1) higher := by
  induction higher using List.reverseRecOn with
  | nil =>
    rw [trim, if_neg (by simp)]
    rfl
  | append_singleton higher last ih =>
    rw [trim, dropTrailing_concat]
    by_cases one : last = 1
    · have long : 2 < (rows :: cols :: (higher ++ [last])).length := by simp
      have ends : (rows :: cols :: (higher ++ [last])).getLast? = some 1 := by
        simp [List.getLast?_cons, one]
      have front : (rows :: cols :: (higher ++ [last])).dropLast = rows :: cols :: higher := by
        simp [List.dropLast_cons_of_ne_nil]
      rw [if_pos ⟨long, ends⟩, front, ih, if_pos (beq_iff_eq.mpr one)]
    · have ends : (rows :: cols :: (higher ++ [last])).getLast? ≠ some 1 := by
        simp [List.getLast?_cons, one]
      rw [if_neg fun both => ends both.2, if_neg (beq_iff_eq.not.mpr one)]

theorem dims_eq (shape : Shape) : dims shape = shape.extent.shape := by
  match shape with
  | [] => exact trim_cons_cons 1 1 []
  | [size] => exact trim_cons_cons 1 size []
  | rows :: cols :: higher => exact trim_cons_cons rows cols higher

theorem length_dims (shape : Shape) : (dims shape).length = shape.extent.rank := by
  rw [dims_eq, Extent.rank_eq_length_shape]

/-- The number of cells that a shape holds, multiplied up from its first size. -/
def cellCount (shape : Shape) : Run Nat := shape.foldlM multiply 1

private theorem foldlM_multiply {shape : Shape} {start : Nat}
    (fits : ∀ count ≤ shape.length, start * Shape.cells (shape.take count) < wordBound) :
    shape.foldlM multiply start = .ok (start * shape.cells) := by
  induction shape generalizing start with
  | nil => exact congrArg Except.ok (Nat.mul_one start).symm
  | cons size rest ih =>
    have first : start * size < wordBound := by
      simpa [Shape.cells] using fits 1 (by simp)
    have others (count : Nat) (within : count ≤ rest.length) :
        start * size * Shape.cells (rest.take count) < wordBound := by
      rw [Nat.mul_assoc]
      exact fits (count + 1) (Nat.succ_le_succ within)
    rw [List.foldlM_cons, multiply, word_of_lt first]
    refine (ih others).trans ?_
    rw [Shape.cells, Nat.mul_assoc]

theorem cellCount_of_fits {shape : Shape} (fits : shape.Fits) : cellCount shape = .ok shape.cells := by
  have counted := @foldlM_multiply shape 1 fun count within => by
    rw [Nat.one_mul]
    exact fits count within
  rwa [Nat.one_mul] at counted

private theorem fits_of_foldlM {shape : Shape} {start count : Nat} (small : start < wordBound)
    (counted : shape.foldlM multiply start = .ok count) :
    ∀ count ≤ shape.length, start * Shape.cells (shape.take count) < wordBound := by
  induction shape generalizing start with
  | nil => simpa [Shape.cells] using small
  | cons size rest ih =>
    rw [List.foldlM_cons, multiply, word] at counted
    split at counted
    next first =>
      intro count within
      cases count with
      | zero => simpa [Shape.cells] using small
      | succ count =>
        have later := ih first counted count (Nat.le_of_succ_le_succ within)
        rwa [Nat.mul_assoc] at later
    next => cases counted

theorem cellCount_of_not_fits {shape : Shape} (fails : ¬shape.Fits) :
    ∃ panic, cellCount shape = .error panic := by
  cases counted : cellCount shape with
  | error panic => exact ⟨panic, rfl⟩
  | ok count =>
    refine absurd (fun count within => ?_) fails
    simpa using fits_of_foldlM (by decide) counted count within

theorem cells_lt_of_fits {shape : Shape} (fits : shape.Fits) : shape.cells < wordBound := by
  simpa using fits shape.length (Nat.le_refl _)

/-- Fails when the stored cells do not fill a shape. -/
def checkFilled (shape : Shape) (stored : Nat) : Attempt Unit := do
  let expected ← cellCount shape
  checkCells expected stored

theorem checkFilled_settles {shape : Shape} (fits : shape.Fits) (stored : Nat) :
    (checkFilled shape stored).Settles (checkCells shape.cells stored) :=
  Attempt.settles_run (cellCount_of_fits fits) (Attempt.settles_outcome _)

theorem checkFilled_of_not_fits {shape : Shape} (fails : ¬shape.Fits) (stored : Nat) :
    ∃ panic, (checkFilled shape stored).run = .error panic := by
  obtain ⟨panic, panics⟩ := cellCount_of_not_fits fails
  refine ⟨panic, ?_⟩
  rw [checkFilled, panics]
  rfl

/-- Fails when there are more than two sizes. -/
def checkFlat (name : String) (sizes : List Nat) : Attempt Unit :=
  if 2 < sizes.length then throw (.unsupportedRank name sizes.length) else pure ()

theorem checkFlat_settles (name : String) (shape : Shape) :
    (checkFlat name (dims shape)).Settles (shape.extent.checkFlat name) := by
  have flat := shape.extent.rank_le_two_iff
  rw [checkFlat, length_dims, Extent.checkFlat]
  by_cases higher : shape.extent.higher = []
  · rw [if_neg (Nat.not_lt.mpr (flat.mpr higher)), if_pos higher]
    exact Attempt.settles_pure ()
  · rw [if_pos (Nat.lt_of_not_le fun low => higher (flat.mp low)), if_neg higher]
    exact Attempt.settles_throw _

/-- A grid of two sizes holds as many cells as these multiply to. -/
theorem flat_of_checkFlat {name : String} {shape : Shape}
    (flat : shape.extent.checkFlat name = .ok ()) :
    ∃ rows cols, shape.extent = ⟨rows, cols, []⟩ ∧ dims shape = [rows, cols] ∧
      shape.cells = rows * cols := by
  have sizes := dims_eq shape
  rw [Extent.checkFlat] at flat
  split at flat
  next none =>
    rw [Extent.shape, none] at sizes
    refine ⟨shape.extent.rows, shape.extent.cols, ?_, sizes, Shape.cells_of_flat none⟩
    rw [← none]
  next => cases flat

/-- The token of a stored number. -/
def tokenAt (elements : Elements) (position : Nat) : Run String :=
  match elements with
  | .float cells => return Token.float (← get cells position)
  | .int cells => return Token.int (← get cells position)
  | .logical cells => return Token.logical (← get cells position)

theorem tokenAt_eq (elements : Elements) : tokenAt elements = get elements.tokens := by
  funext position
  cases elements with
  | float cells => exact (get_map Token.float cells position).symm
  | int cells => exact (get_map Token.int cells position).symm
  | logical cells => exact (get_map Token.logical cells position).symm

/-- What is stored for a row, looked up cell by cell. -/
def rowAt {α : Type} (read : Nat → Run α) (cols row : Nat) : Run (List α) :=
  (List.range cols).mapM fun col => do read (← place cols row col)

theorem rowAt_get {α : Type} {cells : List α} {rows cols row : Nat}
    (full : cells.length = rows * cols) (small : rows * cols < wordBound) (inside : row < rows) :
    rowAt (get cells) cols row = .ok ((cells.drop (row * cols)).take cols) := by
  have enough : row * cols + cols ≤ cells.length := by
    rw [full, ← Nat.succ_mul]
    exact Nat.mul_le_mul_right cols inside
  rw [← mapM_get_range' enough, List.range'_eq_map_range, List.mapM_map, rowAt]
  refine mapM_congr fun col member => ?_
  rw [place_of_lt small inside (List.mem_range.mp member)]
  rfl

theorem mapM_rowAt {α : Type} {cells : List α} {rows cols : Nat} (positive : 0 < cols)
    (full : cells.length = rows * cols) (small : rows * cols < wordBound) :
    (List.range rows).mapM (rowAt (get cells) cols) = .ok (cutRows cols cells) := by
  rw [cutRows_eq_map_range positive full]
  exact mapM_of_forall fun row member => rowAt_get full small (List.mem_range.mp member)

/-- The right-hand side for a number grid of two sizes. -/
def numericLiteral (sizes : List Nat) (elements : Elements) : Run String := do
  let rows ← get sizes 0
  let cols ← get sizes 1
  if rows = 0 ∨ cols = 0 then return "[]"
  else if rows = 1 ∧ cols = 1 then tokenAt elements 0
  else if rows = 1 then
    let tokens ← (List.range cols).mapM (tokenAt elements)
    return "[" ++ " ".intercalate tokens ++ "]"
  else
    let lines ← (List.range rows).mapM (rowAt (tokenAt elements) cols)
    return "[\n" ++ String.join (lines.map NumericGrid.line) ++ "]"

theorem numericLiteral_eq {rows cols : Nat} {elements : Elements}
    (full : rows * cols = elements.length) (small : rows * cols < wordBound) :
    numericLiteral [rows, cols] elements =
      .ok (NumericGrid.literal ⟨rows, cols, []⟩ elements.tokens) := by
  have count := elements.length_tokens.trans full.symm
  rw [numericLiteral, tokenAt_eq]
  change (if rows = 0 ∨ cols = 0 then _ else _) = _
  unfold NumericGrid.literal
  by_cases empty : rows = 0 ∨ cols = 0
  · have none : Extent.isEmpty ⟨rows, cols, []⟩ = true := by simpa [Extent.isEmpty] using empty
    rw [if_pos empty, if_pos none]
    rfl
  · have some : ¬Extent.isEmpty ⟨rows, cols, []⟩ = true := by simpa [Extent.isEmpty] using empty
    rw [if_neg empty, if_neg some]
    by_cases row : rows = 1
    · subst row
      rw [Nat.one_mul] at count
      by_cases col : cols = 1
      · subst col
        obtain ⟨token, alone⟩ := List.length_eq_one_iff.mp count
        rw [if_pos ⟨rfl, rfl⟩, if_pos rfl, alone]
        rfl
      · rw [if_neg fun both => col both.2, if_pos rfl, if_pos rfl, mapM_get_range count]
        split
        next token alone => exact absurd (count.symm.trans (congrArg List.length alone)) col
        next => rfl
    · have positive : 0 < cols := by omega
      rw [if_neg fun both => row both.1, if_neg row, if_neg row, mapM_rowAt positive count small]
      rfl

/-- With fewer cells than the sizes say, a cell would be looked up past the end. -/
example : numericLiteral [1, 2] (.int [7]) = .error (.outOfRange 1 1) := rfl

/-- The statement of a number grid. -/
def numericStatement (name : String) (grid : NumericGrid) : Attempt String := do
  checkFlat name (dims grid.shape)
  checkFilled grid.shape grid.elements.length
  let literal ← numericLiteral (dims grid.shape) grid.elements
  return name ++ " = " ++ literal ++ ";\n"

theorem numericStatement_settles (name : String) {grid : NumericGrid} (fits : grid.shape.Fits) :
    (numericStatement name grid).Settles (grid.statement name) := by
  refine (checkFlat_settles name grid.shape).bind fun _ flat => ?_
  refine (checkFilled_settles fits grid.elements.length).bind fun _ filled => ?_
  obtain ⟨rows, cols, extent, sizes, count⟩ := flat_of_checkFlat flat
  have full := count.symm.trans (eq_of_checkCells filled)
  have small : rows * cols < wordBound := count ▸ cells_lt_of_fits fits
  rw [sizes, extent]
  exact Attempt.settles_run (numericLiteral_eq full small) (Attempt.settles_pure _)

/-- At sizes that cannot be multiplied up, the dimensions are still checked. -/
private theorem settlesIf_of_checkFlat {name : String} {shape : Shape} {stored : Nat}
    {next : Attempt String} {after : Except Fault String} (fails : ¬shape.Fits) :
    (do checkFlat name (dims shape); checkFilled shape stored; next).SettlesIf shape.Fits
      (do shape.extent.checkFlat name; after) := by
  obtain ⟨panic, panics⟩ := checkFilled_of_not_fits fails stored
  exact (checkFlat_settles name shape).settlesIf.bind fun _ _ =>
    Attempt.settlesIf_panic fails panics after

theorem numericStatement_settlesIf (name : String) (grid : NumericGrid) :
    (numericStatement name grid).SettlesIf grid.shape.Fits (grid.statement name) :=
  if fits : grid.shape.Fits then (numericStatement_settles name fits).settlesIf
  else settlesIf_of_checkFlat fits

/-- The rows of a text grid. -/
def textRows (grid : TextGrid) : Run (List String) := do
  let sizes := dims grid.shape
  let cols := sizes[1]?.getD 0
  if cols = 0 then return List.replicate (← get sizes 0) ""
  else return (← chunks cols grid.chars).map String.ofList

theorem textRows_eq (grid : TextGrid) : textRows grid = .ok grid.rows := by
  rw [textRows, dims_eq, TextGrid.rows]
  by_cases narrow : grid.shape.extent.cols = 0
  · have none : grid.shape.extent.shape[1]?.getD 0 = 0 := narrow
    rw [if_pos narrow]
    simp only [none, if_true]
    rfl
  · have some : grid.shape.extent.shape[1]?.getD 0 = grid.shape.extent.cols := rfl
    rw [if_neg narrow]
    simp only [some, narrow, if_false, chunks]
    rfl

/-- What follows the name in the statement of a text grid of two sizes. -/
def textTail (sizes : List Nat) (grid : TextGrid) : Run String := do
  let rows ← get sizes 0
  let cols ← get sizes 1
  if rows = 0 ∨ cols = 0 then return " = '';\n"
  else if rows = 1 then return " = " ++ Token.quoted grid.chars ++ ";\n"
  else return " = \n" ++ String.join ((← textRows grid).map TextGrid.line)

/-- The statement of a text grid. -/
def textStatement (name : String) (grid : TextGrid) : Attempt String := do
  checkFlat name (dims grid.shape)
  checkFilled grid.shape grid.chars.length
  let tail ← textTail (dims grid.shape) grid
  return name ++ tail

theorem textStatement_settles (name : String) {grid : TextGrid} (fits : grid.shape.Fits) :
    (textStatement name grid).Settles (grid.statement name) := by
  refine (checkFlat_settles name grid.shape).bind fun _ flat => ?_
  refine (checkFilled_settles fits grid.chars.length).bind fun _ filled => ?_
  obtain ⟨rows, cols, extent, sizes, count⟩ := flat_of_checkFlat flat
  have empty : Extent.isEmpty ⟨rows, cols, []⟩ = true ↔ rows = 0 ∨ cols = 0 := by
    simp [Extent.isEmpty]
  rw [sizes, textTail, textRows_eq, extent]
  change Attempt.Settles _ (if _ then _ else if rows = 1 then _ else _)
  by_cases none : rows = 0 ∨ cols = 0
  · rw [if_pos (empty.mpr none)]
    exact Attempt.settles_run (if_pos none) (Attempt.settles_pure _)
  · rw [if_neg (empty.not.mpr none)]
    by_cases single : rows = 1
    · rw [if_pos single]
      refine Attempt.settles_run ((if_neg none).trans (if_pos single)) ?_
      simp only [← String.append_assoc]
      exact Attempt.settles_pure _
    · rw [if_neg single]
      refine Attempt.settles_run ((if_neg none).trans (if_neg single)) ?_
      simp only [← String.append_assoc]
      exact Attempt.settles_pure _

theorem textStatement_settlesIf (name : String) (grid : TextGrid) :
    (textStatement name grid).SettlesIf grid.shape.Fits (grid.statement name) :=
  if fits : grid.shape.Fits then (textStatement_settles name fits).settlesIf
  else settlesIf_of_checkFlat fits

/-- Whether there are two sizes and the first is no more than one. -/
def singleRow (sizes : List Nat) : Run Bool := do
  if sizes.length = 2 then return (← get sizes 0) ≤ 1 else return false

/-- The token of a value. -/
def token (name : String) (value : Value) : Attempt String :=
  match value with
  | .text grid => do
    checkFilled grid.shape grid.chars.length
    if ← singleRow (dims grid.shape) then return Token.quoted grid.chars
    else throw (value.unwritable name)
  | .numeric grid =>
    if grid.elements.length = 1 ∧ dims grid.shape = [1, 1] then tokenAt grid.elements 0
    else throw (value.unwritable name)
  | .record _ => return Token.recordPlaceholder
  | .records elements =>
    if elements.length = 1 then return Token.recordPlaceholder else throw (value.unwritable name)
  | .collection .. => throw (value.unwritable name)
  | .unsupported _ => throw (value.unwritable name)

end Machine

/-- Whether the sizes of a value can be multiplied up, whatever it stores. -/
def Value.Fits : Value → Prop
  | .numeric grid => grid.shape.Fits
  | .text grid => grid.shape.Fits
  | .collection rows cols _ => rows * cols < Machine.wordBound
  | .record _ | .records _ | .unsupported _ => True

instance : (value : Value) → Decidable value.Fits
  | .numeric grid => inferInstanceAs (Decidable grid.shape.Fits)
  | .text grid => inferInstanceAs (Decidable grid.shape.Fits)
  | .collection rows cols _ => inferInstanceAs (Decidable (rows * cols < Machine.wordBound))
  | .record _ | .records _ | .unsupported _ => inferInstanceAs (Decidable True)

namespace Machine

private theorem singleRow_dims (shape : Shape) :
    singleRow (dims shape) = .ok (decide (shape.extent.higher = [] ∧ shape.extent.rows ≤ 1)) := by
  have flat := shape.extent.rank_le_two_iff
  have least : 2 ≤ shape.extent.rank := Nat.le_add_left ..
  rw [singleRow, length_dims, dims_eq]
  by_cases none : shape.extent.higher = []
  · rw [if_pos (Nat.le_antisymm (flat.mpr none) least)]
    simp only [none, true_and]
    rfl
  · rw [if_neg fun two => none (flat.mp (Nat.le_of_eq two))]
    simp only [none, false_and, decide_false]
    rfl

private theorem token_numeric_settles (name : String) (grid : NumericGrid) :
    (token name (.numeric grid)).Settles (Value.token name (.numeric grid)) := by
  have sizes : dims grid.shape = [1, 1] ↔ grid.shape.extent = ⟨1, 1, []⟩ := by
    rw [dims_eq, Extent.mk.injEq, Extent.shape]
    simp
  rw [token, Value.token, ← grid.elements.length_tokens, tokenAt_eq]
  split
  next single =>
    obtain ⟨one, flat⟩ := single
    obtain ⟨token, alone⟩ := List.length_eq_one_iff.mp one
    rw [sizes.mp flat, alone]
    exact Attempt.settles_outcome _
  next several =>
    split
    next token alone extent =>
      exact absurd ⟨congrArg List.length alone, sizes.mpr extent⟩ several
    next => exact Attempt.settles_throw _

theorem token_settles (name : String) {value : Value} (fits : value.Fits) :
    (token name value).Settles (value.token name) := by
  match value with
  | .text grid =>
    refine (checkFilled_settles fits grid.chars.length).bind fun _ _ => ?_
    refine Attempt.settles_run (singleRow_dims grid.shape) ?_
    dsimp only
    by_cases single : grid.shape.extent.higher = [] ∧ grid.shape.extent.rows ≤ 1
    · rw [if_pos (decide_eq_true single), if_pos single]
      exact Attempt.settles_pure _
    · rw [if_neg (by simpa using single), if_neg single]
      exact Attempt.settles_throw _
  | .numeric grid => exact token_numeric_settles name grid
  | .record _ => exact Attempt.settles_pure _
  | .records [] => exact Attempt.settles_throw _
  | .records [_] => exact Attempt.settles_pure _
  | .records (_ :: _ :: _) => exact Attempt.settles_throw _
  | .collection .. => exact Attempt.settles_throw _
  | .unsupported _ => exact Attempt.settles_throw _

theorem token_settlesIf (name : String) (value : Value) :
    (token name value).SettlesIf value.Fits (value.token name) := by
  by_cases fits : value.Fits
  · exact (token_settles name fits).settlesIf
  · cases value with
    | text grid =>
      obtain ⟨panic, panics⟩ := checkFilled_of_not_fits fits grid.chars.length
      exact Attempt.settlesIf_panic fits panics _
    | numeric grid => exact (token_numeric_settles name grid).settlesIf
    | collection => exact (Attempt.settles_throw _).settlesIf
    | record | records | unsupported => exact absurd trivial fits

end Machine

end ValueScript
