import ValueScript.Emission
import ValueScript.Proofs.Attempt

namespace ValueScript

namespace Script

/-- Statements and notices of one script followed by those of another. -/
instance : Append Script :=
  ⟨fun first second => ⟨first.text ++ second.text, first.warnings ++ second.warnings⟩⟩

theorem append_def (first second : Script) :
    first ++ second = ⟨first.text ++ second.text, first.warnings ++ second.warnings⟩ := rfl

@[simp] theorem empty_append (script : Script) : empty ++ script = script := by
  simp [append_def, empty]

@[simp] theorem append_empty (script : Script) : script ++ empty = script := by
  simp [append_def, empty]

theorem append_assoc (first second third : Script) :
    first ++ second ++ third = first ++ (second ++ third) := by
  simp [append_def, String.append_assoc]

/-- Scripts one after another. -/
def join (parts : List Script) : Script :=
  ⟨String.join (parts.map Script.text), parts.flatMap Script.warnings⟩

@[simp] theorem join_nil : join [] = empty := rfl

@[simp] theorem join_cons (part : Script) (rest : List Script) :
    join (part :: rest) = part ++ join rest := by
  simp [join, append_def]

theorem join_append (first second : List Script) :
    join (first ++ second) = join first ++ join second := by
  induction first with
  | nil => simp
  | cons part rest ih => simp [ih, append_assoc]

/-- The scripts of some items one after another, if each of them has one; else the first fault. -/
def collect {α : Type} (outcome : α → Except Fault Script) (items : List α) :
    Except Fault Script :=
  (items.mapM outcome).map join

section collect

variable {α : Type} (outcome : α → Except Fault Script)

@[simp] theorem collect_nil : collect outcome [] = .ok empty := rfl

theorem collect_append (first second : List α) :
    collect outcome (first ++ second) =
      (do return (← collect outcome first) ++ (← collect outcome second)) := by
  simp only [collect, List.mapM_append]
  cases before : first.mapM outcome with
  | error fault => rfl
  | ok parts =>
    cases after : second.mapM outcome with
    | error fault => rfl
    | ok more => exact congrArg Except.ok (join_append parts more)

theorem collect_cons (item : α) (rest : List α) :
    collect outcome (item :: rest) =
      (do return (← outcome item) ++ (← collect outcome rest)) := by
  simp only [collect, List.mapM_cons]
  cases first : outcome item with
  | error fault => rfl
  | ok part =>
    cases others : rest.mapM outcome with
    | error fault => rfl
    | ok more => exact congrArg Except.ok (join_cons part more)

theorem collect_cons_eq_ok {outcome : α → Except Fault Script} {item : α} {rest : List α}
    {script : Script} (collected : collect outcome (item :: rest) = .ok script) :
    ∃ part others, outcome item = .ok part ∧ collect outcome rest = .ok others ∧
      script = part ++ others := by
  obtain ⟨parts, all, rfl⟩ := map_eq_ok collected
  obtain ⟨part, more, first, remaining, rfl⟩ := mapM_cons_eq_ok all
  refine ⟨part, join more, first, ?_, join_cons part more⟩
  rw [collect, remaining]
  rfl

theorem eq_ok_of_collect {outcome : α → Except Fault Script} {items : List α} {script : Script}
    (collected : collect outcome items = .ok script) {item : α} (member : item ∈ items) :
    ∃ part, outcome item = .ok part := by
  induction items generalizing script with
  | nil => cases member
  | cons head rest ih =>
    obtain ⟨part, others, first, remaining, _⟩ := collect_cons_eq_ok collected
    rcases List.mem_cons.mp member with rfl | later
    · exact ⟨part, first⟩
    · exact ih remaining later

theorem collect_cons_of_empty {item : α} (nothing : outcome item = .ok empty) (rest : List α) :
    collect outcome (item :: rest) = collect outcome rest := by
  rw [collect_cons, nothing]
  cases others : collect outcome rest with
  | error fault => rfl
  | ok script => exact congrArg Except.ok (empty_append script)

theorem collect_cons_of_error {item : α} {fault : Fault} (failed : outcome item = .error fault)
    (rest : List α) : collect outcome (item :: rest) = .error fault := by
  rw [collect_cons, failed]
  rfl

theorem collect_singleton (item : α) : collect outcome [item] = outcome item := by
  rw [collect_cons]
  cases only : outcome item with
  | error fault => rfl
  | ok part => exact congrArg Except.ok (append_empty part)

end collect

end Script

namespace Emit

/-- What a step does to any script: it appends the part it yields, or it fails. -/
def Yields (steps : Emit Unit) (outcome : Except Fault Script) : Prop :=
  ∀ script : Script,
    match outcome with
    | .ok part => steps.run.run script = (.ok (), script ++ part)
    | .error fault => (steps.run.run script).1 = .error fault

theorem Yields.script_eq {steps : Emit Unit} {outcome : Except Fault Script}
    (yields : steps.Yields outcome) : steps.script = outcome := by
  have run := yields .empty
  unfold Emit.script
  cases outcome with
  | ok part => rw [run, Script.empty_append]
  | error fault =>
    cases reached : steps.run.run Script.empty with
    | mk result left =>
      rw [reached] at run
      cases run
      rfl

theorem yields_pure : (pure () : Emit Unit).Yields (.ok .empty) :=
  fun script => congrArg (Prod.mk _) (Script.append_empty script).symm

theorem yields_throw (fault : Fault) : (throw fault : Emit Unit).Yields (.error fault) :=
  fun _ => rfl

/-- Steps in a row yield their parts in a row; what follows a failing step is not run. -/
theorem Yields.seq {first second : Emit Unit} {before after : Except Fault Script}
    (start : first.Yields before) (rest : second.Yields after) :
    (do first; second : Emit Unit).Yields (do return (← before) ++ (← after)) := by
  intro script
  cases before with
  | error fault =>
    have failed := start script
    cases reached : first.run.run script with
    | mk result left =>
      rw [reached] at failed
      subst failed
      simp only [ExceptT.run_bind, StateT.run_bind, reached]
      rfl
  | ok part =>
    have appended := start script
    have next := rest (script ++ part)
    cases after with
    | error fault =>
      simp only [ExceptT.run_bind, StateT.run_bind, appended]
      exact next
    | ok more =>
      simp only [ExceptT.run_bind, StateT.run_bind, appended]
      simpa [Script.append_assoc, bind, Except.bind, pure, Except.pure] using next

/-- A step that needs a statement first: without one nothing is written. -/
theorem yields_of_outcome {α : Type} (outcome : Except Fault α) {next : α → Emit Unit}
    {part : α → Script} (appends : ∀ result, (next result).Yields (.ok (part result))) :
    (do next (← outcome) : Emit Unit).Yields (outcome.map part) := by
  intro script
  cases outcome with
  | error fault => rfl
  | ok result => exact appends result script

theorem yields_write (text : String) : (write text).Yields (.ok ⟨text, []⟩) := by
  intro script
  simp [write, Script.append_def]
  rfl

theorem yields_warn (warning : Warning) : (warn warning).Yields (.ok ⟨"", [warning]⟩) := by
  intro script
  simp [warn, Script.append_def]
  rfl

end Emit

end ValueScript
