import ValueScript.Fault
import ValueScript.Proofs.Attempt
import ValueScript.Rows

/-! Steps as a machine takes them. Sizes are words and depths are counted in half a word, cells are
looked up by position, and a step that has no outcome stops the machine in a panic. Faults of values
are outcomes like others. -/

namespace ValueScript.Machine

/-- Why a machine stops in the middle of what it does for one value. -/
inductive Panic
  /-- A position at or past the end of what is stored. -/
  | outOfRange (position length : Nat)
  | divisionByZero
  /-- A list to be cut into pieces of no cells. -/
  | noWidth
  | wordOverflow
  /-- A word less than nothing. -/
  | wordUnderflow
  deriving DecidableEq, Repr

/-- Why a machine stops on its way through the values of a tree. -/
inductive Stop
  /-- A panic at one of the values. -/
  | panic (cause : Panic)
  | depthOverflow
  deriving DecidableEq, Repr

/-- Steps that come to an outcome or stop in a panic. -/
abbrev Run := Except Panic

/-- Steps through a tree that come to an outcome or stop on the way. -/
abbrev Walk := Except Stop

/-- The least number that is no word. -/
def wordBound : Nat := 0x10000000000000000

/-- The least number that is no depth. -/
def depthBound : Nat := 0x100000000

variable {α β : Type}

def get (cells : List α) (position : Nat) : Run α :=
  match cells[position]? with
  | some cell => .ok cell
  | none => .error (.outOfRange position cells.length)

def word (number : Nat) : Run Nat :=
  if number < wordBound then .ok number else .error .wordOverflow

def add (left right : Nat) : Run Nat := word (left + right)

def multiply (left right : Nat) : Run Nat := word (left * right)

def subtract (left right : Nat) : Run Nat :=
  if right ≤ left then .ok (left - right) else .error .wordUnderflow

def divide (number divisor : Nat) : Run Nat :=
  if divisor = 0 then .error .divisionByZero else .ok (number / divisor)

def remainder (number divisor : Nat) : Run Nat :=
  if divisor = 0 then .error .divisionByZero else .ok (number % divisor)

/-- The pieces of a list that have `width` cells each, up to a last one that may be short. -/
def chunks (width : Nat) (cells : List α) : Run (List (List α)) :=
  if width = 0 then .error .noWidth else .ok (cutRows width cells)

/-- The next depth. -/
def deeper (depth : Nat) : Walk Nat :=
  if depth + 1 < depthBound then .ok (depth + 1) else .error .depthOverflow

theorem get_of_lt {cells : List α} {position : Nat} (inside : position < cells.length) :
    get cells position = .ok cells[position] := by
  rw [get, List.getElem?_eq_getElem inside]

theorem get_map (make : α → β) (cells : List α) (position : Nat) :
    get (cells.map make) position = (get cells position).map make := by
  unfold get
  rw [List.getElem?_map, List.length_map]
  cases cells[position]? <;> rfl

theorem word_of_lt {number : Nat} (small : number < wordBound) : word number = .ok number :=
  if_pos small

theorem subtract_of_le {left right : Nat} (enough : right ≤ left) :
    subtract left right = .ok (left - right) := if_pos enough

theorem divide_of_pos {divisor : Nat} (positive : 0 < divisor) (number : Nat) :
    divide number divisor = .ok (number / divisor) := if_neg (Nat.ne_of_gt positive)

theorem remainder_of_pos {divisor : Nat} (positive : 0 < divisor) (number : Nat) :
    remainder number divisor = .ok (number % divisor) := if_neg (Nat.ne_of_gt positive)

theorem chunks_of_pos {width : Nat} (positive : 0 < width) (cells : List α) :
    chunks width cells = .ok (cutRows width cells) := if_neg (Nat.ne_of_gt positive)

theorem deeper_of_lt {depth : Nat} (small : depth + 1 < depthBound) :
    deeper depth = .ok (depth + 1) := if_pos small

theorem deeper_of_le {depth : Nat} (high : depthBound ≤ depth + 1) :
    deeper depth = .error .depthOverflow := if_neg (Nat.not_lt.mpr high)

/-- The place of a cell: those of full rows before it, and those before it in its own row. -/
def place (cols row col : Nat) : Run Nat := do
  add (← multiply row cols) col

theorem place_lt {rows cols row col : Nat} (inRow : row < rows) (inCol : col < cols) :
    row * cols + col < rows * cols := by
  have next : (row + 1) * cols ≤ rows * cols := Nat.mul_le_mul_right cols inRow
  rw [Nat.succ_mul] at next
  omega

theorem place_of_lt {rows cols row col : Nat} (small : rows * cols < wordBound) (inRow : row < rows)
    (inCol : col < cols) : place cols row col = .ok (row * cols + col) := by
  have inside := place_lt inRow inCol
  have first : row * cols < wordBound := by omega
  have whole : row * cols + col < wordBound := by omega
  rw [place, multiply, word_of_lt first]
  exact word_of_lt whole

theorem mapM_get_range' {cells : List α} {start count : Nat} (inside : start + count ≤ cells.length) :
    (List.range' start count).mapM (get cells) = .ok ((cells.drop start).take count) := by
  induction count generalizing start with
  | zero => rfl
  | succ count ih =>
    have here : start < cells.length := by omega
    have others := @ih (start + 1) (by omega)
    rw [List.range'_succ, List.mapM_cons, get_of_lt here, others, List.drop_eq_getElem_cons here,
      List.take_succ_cons]
    rfl

theorem mapM_get_range {cells : List α} {count : Nat} (full : cells.length = count) :
    (List.range count).mapM (get cells) = .ok cells := by
  have inside : 0 + count ≤ cells.length := by omega
  rw [List.range_eq_range', mapM_get_range' inside, List.drop_zero, List.take_of_length_le (by omega)]

/-- Steps that may also come to the fault of a value. -/
abbrev Attempt := ExceptT Fault Run

namespace Attempt

/-- Whether steps come to an outcome, without a panic on the way. -/
def Settles (steps : Attempt α) (outcome : Except Fault α) : Prop := steps.run = .ok outcome

theorem settles_pure (result : α) : (pure result : Attempt α).Settles (.ok result) := rfl

theorem settles_throw (fault : Fault) : (throw fault : Attempt α).Settles (.error fault) := rfl

theorem settles_outcome (outcome : Except Fault α) : (liftM outcome : Attempt α).Settles outcome := rfl

/-- Steps in a row settle when each of them does, given what came before. -/
theorem Settles.bind {first : Attempt α} {next : α → Attempt β} {before : Except Fault α}
    {after : α → Except Fault β} (start : first.Settles before)
    (rest : ∀ result, before = .ok result → (next result).Settles (after result)) :
    (first >>= next).Settles (before >>= after) := by
  unfold Settles at *
  cases before with
  | error fault =>
    rw [ExceptT.run_bind, start]
    rfl
  | ok result =>
    rw [ExceptT.run_bind, start]
    exact rest result rfl

/-- Steps that begin with some that have no fault. -/
theorem settles_run {run : Run α} {next : α → Attempt β} {result : α} {outcome : Except Fault β}
    (reached : run = .ok result) (rest : (next result).Settles outcome) :
    (liftM run >>= next : Attempt β).Settles outcome := by
  subst reached
  exact rest

/-- Whether steps come to an outcome, or else panic where it is not safe. -/
def SettlesIf (safe : Prop) (steps : Attempt α) (outcome : Except Fault α) : Prop :=
  steps.Settles outcome ∨ ¬safe ∧ ∃ panic, steps.run = .error panic

section SettlesIf

variable {safe : Prop}

theorem Settles.settlesIf {steps : Attempt α} {outcome : Except Fault α}
    (settles : steps.Settles outcome) : steps.SettlesIf safe outcome := .inl settles

theorem SettlesIf.of_imp {other : Prop} {steps : Attempt α} {outcome : Except Fault α}
    (settles : steps.SettlesIf safe outcome) (safer : other → safe) : steps.SettlesIf other outcome :=
  settles.imp_right fun panics => ⟨fun holds => panics.1 (safer holds), panics.2⟩

/-- Steps that begin with some that panic. -/
theorem settlesIf_panic {first : Attempt α} {next : α → Attempt β} {panic : Panic}
    (fails : ¬safe) (panics : first.run = .error panic) (outcome : Except Fault β) :
    (first >>= next).SettlesIf safe outcome := by
  refine .inr ⟨fails, panic, ?_⟩
  rw [ExceptT.run_bind, panics]
  rfl

theorem SettlesIf.bind {first : Attempt α} {next : α → Attempt β} {before : Except Fault α}
    {after : α → Except Fault β} (start : first.SettlesIf safe before)
    (rest : ∀ result, before = .ok result → (next result).SettlesIf safe (after result)) :
    (first >>= next).SettlesIf safe (before >>= after) := by
  obtain settles | ⟨fails, panic, panics⟩ := start
  · cases before with
    | error fault => exact .inl (settles.bind fun result reached => nomatch reached)
    | ok result =>
      obtain settled | ⟨fails, panic, panics⟩ := rest result rfl
      · refine .inl (settles.bind fun other reached => ?_)
        cases reached
        exact settled
      · refine .inr ⟨fails, panic, ?_⟩
        rw [ExceptT.run_bind, settles]
        exact panics
  · exact settlesIf_panic fails panics _

theorem settlesIf_run {run : Run α} {next : α → Attempt β} {result : α} {outcome : Except Fault β}
    (reached : run = .ok result) (rest : (next result).SettlesIf safe outcome) :
    (liftM run >>= next : Attempt β).SettlesIf safe outcome := by
  subst reached
  exact rest

theorem settlesIf_mapM {steps : α → Attempt β} {outcome : α → Except Fault β} {items : List α}
    (each : ∀ item ∈ items, (steps item).SettlesIf safe (outcome item)) :
    (items.mapM steps).SettlesIf safe (items.mapM outcome) := by
  induction items with
  | nil => exact .inl rfl
  | cons item rest ih =>
    obtain ⟨first, others⟩ := List.forall_mem_cons.mp each
    rw [List.mapM_cons, List.mapM_cons]
    exact first.bind fun _ _ => (ih others).bind fun _ _ => (settles_pure _).settlesIf

end SettlesIf

end Attempt

end ValueScript.Machine
