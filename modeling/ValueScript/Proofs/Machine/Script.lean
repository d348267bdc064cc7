import ValueScript.Proofs.Machine.Emission
import ValueScript.Proofs.Reading.Legible

namespace ValueScript.Machine

/-- A machine that comes to an outcome wrote the script exactly if no visit of the walk fails, and
reports the fault of the first failing visit otherwise. Where it comes to none it was stopped before
any visit failed, at one whose sizes or depth it cannot count up. So it does come to an outcome when
it can count up all of them. -/
theorem script_fails_first (limit : Nat) (name : String) (value : Value) :
    let visits := value.visits name 0
    (∀ outcome, script limit name value = .ok outcome →
      ((∃ written, outcome = .ok written) ↔ ∀ visit ∈ visits, visit.fault? limit = none) ∧
      ∀ fault, outcome = .error fault ↔
        ∃ before visit after, visits = before ++ visit :: after ∧
          visit.fault? limit = some fault ∧ ∀ earlier ∈ before, earlier.fault? limit = none) ∧
    (∀ stop, script limit name value = .error stop →
      ∃ before visit after, visits = before ++ visit :: after ∧ StopsAt limit visit stop ∧
        ∀ earlier ∈ before, earlier.fault? limit = none) ∧
    ((∀ part ∈ value.parts, part.Fits) → (∀ visit ∈ visits, Roomy limit visit) →
      ∃ outcome, script limit name value = .ok outcome) := by
  intro visits
  refine ⟨?_, ?_, fun fits room => ⟨_, script_eq_of_fits fits room⟩⟩
  · intro outcome reached
    rw [← script_of_ok reached]
    exact ⟨Value.exists_script_iff, fun fault => Value.script_eq_error_iff⟩
  · intro stop reached
    obtain came | ⟨cause, stopped, stops⟩ := script_eq_or_stops limit name value
    · cases came.symm.trans reached
    · cases stopped.symm.trans reached
      exact stops

/-- A record that fails at its second field, before the sizes of its third are multiplied up, and one
whose sizes stop the machine. -/
theorem script_fails_first_of_vast_text :
    let vast : Value := .text ⟨[0x100000000, 0x100000000], []⟩
    let value : Value := .record [("a", .ofInt 1), ("b", .unsupported "map"), ("c", vast)]
    let fault := Fault.unsupportedType "r.b" "map"
    script 9 "r" value = .ok (.error fault) ∧
      (∃ before visit after, value.visits "r" 0 = before ++ visit :: after ∧
        visit.fault? 9 = some fault ∧ ∀ earlier ∈ before, earlier.fault? 9 = none) ∧
      script 9 "x" vast = .error (.panic .wordOverflow) ∧
      ∃ before visit after, vast.visits "x" 0 = before ++ visit :: after ∧
        StopsAt 9 visit (.panic .wordOverflow) ∧ ∀ earlier ∈ before, earlier.fault? 9 = none := by
  intro vast value fault
  have failed : script 9 "r" value = .ok (.error fault) := by with_unfolding_all rfl
  have stopped : script 9 "x" vast = .error (.panic .wordOverflow) := by with_unfolding_all rfl
  exact ⟨failed, (((script_fails_first 9 "r" value).1 _ failed).2 fault).mp rfl, stopped,
    (script_fails_first 9 "x" vast).2.1 _ stopped⟩

/-- Two values for which a machine wrote one text assign the same: leaf by leaf the same name, the
same class and, unless both are empty, the same rows, columns and cells. -/
theorem assignments_of_same_text {limit limit' : Nat} {root : String} {first second : Value}
    {written written' : Script} (named : Name.Legible root) (legible : first.Legible)
    (legible' : second.Legible) (reached : script limit root first = .ok (.ok written))
    (reached' : script limit' root second = .ok (.ok written'))
    (same : written.text = written'.text) : first.assignments root = second.assignments root :=
  Value.assignments_eq_of_text_eq named legible legible' (script_of_ok reached)
    (script_of_ok reached') same

/-- A record and a list of one record, whose grids have other shapes of the same layout. -/
theorem assignments_of_record_and_list :
    let first : Value := .record [
      ("x=", .numeric ⟨[1, 1], .int [-7]⟩), ("t", .text ⟨[2], ['a', ';']⟩),
      ("c", .ofRow [.ofString "a, b"])]
    let second : Value := .records [[
      ("x=", .numeric ⟨[], .int [-7]⟩), ("t", .text ⟨[1, 2, 1], ['a', ';']⟩),
      ("c", .ofRow [.text ⟨[4], ['a', ',', ' ', 'b']⟩])]]
    first.Legible ∧ second.Legible ∧ first.assignments "cfg" = second.assignments "cfg" := by
  intro first second
  have legible : first.Legible := by decide
  have legible' : second.Legible := by decide
  have reached : script 1 "cfg" first =
      .ok (.ok ⟨"cfg.x= = -7;\ncfg.t = 'a;';\ncfg.c = \x7b 'a, b' \x7d;\n", []⟩) := by
    with_unfolding_all rfl
  have reached' : script 2 "cfg" second =
      .ok (.ok ⟨"cfg.x= = -7;\ncfg.t = 'a;';\ncfg.c = \x7b 'a, b' \x7d;\n", []⟩) := by
    with_unfolding_all rfl
  have named : Name.Legible "cfg" := by decide
  exact ⟨legible, legible', assignments_of_same_text named legible legible' reached reached' rfl⟩

end ValueScript.Machine
