import ValueScript.Proofs.Machine.Writing

namespace ValueScript

/-- How the writing of a leaf ends if it gives no notice: with a fault, or with a statement of which
the rest follows the name on the same line. -/
inductive Ending (name : String)
  | failed (fault : Fault)
  | assigned (rest : String)

/-- What a statement says at an ending: the fault, or the block. -/
def Ending.outcome {name : String} : Ending name → Except Fault String
  | .failed fault => .error fault
  | .assigned rest => .ok (name ++ rest ++ "\n")

namespace Emit

variable {name : String}

/-- Whether steps end so on every script. -/
def Ends (steps : Emit Unit) : Ending name → Prop
  | .failed fault => ∀ script, steps.run.run script = (.error fault, script)
  | .assigned rest => ∀ script,
    steps.run.run script = (.ok (), ⟨script.text ++ (name ++ rest ++ "\n"), script.warnings⟩)

/-- Whether steps add a notice to every script and leave its text as it was. -/
def Notes (steps : Emit Unit) (warning : Warning) : Prop := ∀ script,
  steps.run.run script = (.ok (), ⟨script.text, script.warnings ++ [warning]⟩)

theorem write_ends (ending : Ending name) : (do write (← ending.outcome) : Emit Unit).Ends ending := by
  cases ending <;> exact fun _ => rfl

end Emit

namespace Machine.Writing

variable {α : Type} {name : String}

/-- Whether steps end so on every buffer, and come to this result if they do not fail. -/
def Ends (steps : Writing α) (result : α) : Ending name → Prop
  | .failed fault => ∀ before, steps.run.run before = .ok (.error fault, before)
  | .assigned rest => ∀ before,
    steps.run.run before = .ok (.ok result, before ++ (name ++ rest ++ "\n"))

/-- Whether steps come to this result and leave every buffer as it was. -/
def Leaves (steps : Writing α) (result : α) : Prop := ∀ before,
  steps.run.run before = .ok (.ok result, before)

def Panics (steps : Writing α) : Prop := ∃ panic, ∀ before, steps.run.run before = .error panic

theorem Adds.run_or_panics {steps : Writing α} {outcome : Attempt (α × String)} {safe : Prop}
    {reached : Except Fault (α × String)} (adds : steps.Adds outcome)
    (settles : outcome.SettlesIf safe reached) :
    (∀ before, steps.run.run before = .ok (added before reached)) ∨ ¬safe ∧ steps.Panics := by
  refine settles.imp (fun settled before => ?_) fun ⟨fails, panic, panics⟩ =>
    ⟨fails, panic, fun before => ?_⟩
  · rw [adds before, settled]
    rfl
  · rw [adds before, panics]
    rfl

theorem Adds.ends_or_panics {steps : Writing α} {statement : Attempt String} {result : α}
    {safe : Prop} {ending : Ending name} (adds : steps.Adds (do return (result, ← statement)))
    (settles : statement.SettlesIf safe ending.outcome) :
    steps.Ends result ending ∨ ¬safe ∧ steps.Panics := by
  have reached := adds.run_or_panics (settles.bind fun _ _ => (Attempt.settles_pure _).settlesIf)
  cases ending <;> exact reached

end Machine.Writing

private theorem closed (name body : String) :
    name ++ (" = " ++ body ++ ";") ++ "\n" = name ++ " = " ++ body ++ ";\n" := by
  apply String.toList_injective
  simp

theorem NumericGrid.exists_ending (name : String) (grid : NumericGrid) :
    ∃ ending : Ending name, grid.statement name = ending.outcome := by
  rw [statement_eq]
  cases gridFault? name grid.shape grid.elements.length with
  | some fault => exact ⟨.failed fault, rfl⟩
  | none => exact ⟨.assigned _, congrArg Except.ok (closed ..).symm⟩

/-- The last line of a text grid's statement is closed by a semicolon, or it is that of its last row,
or of the name if there is none. -/
theorem TextGrid.exists_body (grid : TextGrid) : ∃ rest, grid.body = rest ++ "\n" := by
  unfold body
  split
  next => exact ⟨"'';", rfl⟩
  next =>
    split
    next => exact ⟨Token.quoted grid.chars ++ ";", by rw [String.append_assoc]; rfl⟩
    next =>
      obtain none | ⟨front, last, rows⟩ := grid.rows.eq_nil_or_concat'
      · exact ⟨"", by rw [none]; rfl⟩
      · refine ⟨"\n" ++ String.join (front.map line) ++ "  '" ++ last ++ "'", ?_⟩
        apply String.toList_injective
        simp [rows, line, String.toList_join]

theorem TextGrid.exists_ending (name : String) (grid : TextGrid) :
    ∃ ending : Ending name, grid.statement name = ending.outcome := by
  rw [statement_eq]
  cases gridFault? name grid.shape grid.chars.length with
  | some fault => exact ⟨.failed fault, rfl⟩
  | none =>
    obtain ⟨rest, body⟩ := grid.exists_body
    refine ⟨.assigned (" = " ++ rest), congrArg Except.ok ?_⟩
    simp only [body, String.append_assoc]

theorem Collection.exists_ending (name : String) (rows cols : Nat) (items : List Value) :
    (∃ ending : Ending name, statement name rows cols items = ending.outcome.map .ok) ∨
      ∃ warning, statement name rows cols items = .ok (.error warning) := by
  rw [statement_eq]
  cases checkCells (rows * cols) items.length with
  | error fault => exact .inl ⟨.failed fault, rfl⟩
  | ok filled =>
    cases notice? name cols items with
    | some warning => exact .inr ⟨warning, rfl⟩
    | none =>
      cases items.mapM (Value.token name) with
      | error fault => exact .inl ⟨.failed fault, rfl⟩
      | ok tokens =>
        refine .inl ⟨.assigned (" = " ++ literal cols tokens ++ ";"), ?_⟩
        rw [Ending.outcome, closed]
        rfl

namespace Machine

/-- For each leaf there is one ending, or else one notice, that its writing comes to whatever was
written before, as a whole and piece by piece: a fault or a notice leaves the text as it was, and a
statement adds one block to it. A machine panics only where sizes cannot be multiplied up. -/
theorem leaf_written_whole_or_not_at_all (name : String) :
    (∀ grid : NumericGrid, ∃ ending : Ending name,
      (Emit.numeric name grid).Ends ending ∧
        ((Writing.numeric name grid).Ends () ending ∨
          ¬grid.shape.Fits ∧ (Writing.numeric name grid).Panics)) ∧
    (∀ grid : TextGrid, ∃ ending : Ending name,
      (Emit.text name grid).Ends ending ∧
        ((Writing.text name grid).Ends () ending ∨
          ¬grid.shape.Fits ∧ (Writing.text name grid).Panics)) ∧
    ∀ (rows cols : Nat) (items : List Value),
      let writing := Writing.collection name rows cols items
      let panics := ¬(rows * cols < wordBound ∧ ∀ item ∈ items, item.Fits) ∧ writing.Panics
      (∃ ending : Ending name, (Emit.collection name rows cols items).Ends ending ∧
        (writing.Ends none ending ∨ panics)) ∨
      ∃ warning, (Emit.collection name rows cols items).Notes warning ∧
        (writing.Leaves (some warning) ∨ panics) := by
  refine ⟨fun grid => ?_, fun grid => ?_, fun rows cols items => ?_⟩
  · obtain ⟨ending, statement⟩ := grid.exists_ending name
    have settles := numericStatement_settlesIf name grid
    rw [statement] at settles
    refine ⟨ending, ?_, (Writing.numeric_adds name grid).ends_or_panics settles⟩
    rw [Emit.numeric, statement]
    exact Emit.write_ends ending
  · obtain ⟨ending, statement⟩ := grid.exists_ending name
    have settles := textStatement_settlesIf name grid
    rw [statement] at settles
    refine ⟨ending, ?_, (Writing.text_adds name grid).ends_or_panics settles⟩
    rw [Emit.text, statement]
    exact Emit.write_ends ending
  · intro writing panics
    have settles := collectionStatement_settlesIf name rows cols items
    have reached := (Writing.collection_adds name rows cols items).run_or_panics
      (settles.bind fun _ _ => (Attempt.settles_pure _).settlesIf)
    obtain ⟨ending, statement⟩ | ⟨warning, statement⟩ :=
      Collection.exists_ending name rows cols items
    · refine .inl ⟨ending, ?_, ?_⟩
      · rw [Emit.collection, statement]
        cases ending <;> exact fun _ => rfl
      · rw [statement] at reached
        cases ending <;> exact reached
    · refine .inr ⟨warning, ?_, ?_⟩
      · rw [Emit.collection, statement]
        exact fun _ => rfl
      · rw [statement] at reached
        refine reached.imp_left fun runs before => (runs before).trans ?_
        exact congrArg (fun text => Except.ok (Except.ok _, text)) String.append_empty

end Machine

end ValueScript
