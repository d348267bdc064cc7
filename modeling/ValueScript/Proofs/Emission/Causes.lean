import ValueScript.Proofs.Emission.FirstFault
import ValueScript.Proofs.Token

namespace ValueScript

namespace Value

/-- Whether what a value stores itself fills the sizes it gives. -/
def Filled : Value → Prop
  | .numeric grid => grid.shape.cells = grid.elements.length
  | .text grid => grid.shape.cells = grid.chars.length
  | .collection rows cols items => rows * cols = items.length
  | .record _ | .records _ | .unsupported _ => True

private theorem gridFault?_cases {name : String} {shape : Shape} {stored : Nat} {fault : Fault}
    (failed : gridFault? name shape stored = some fault) :
    fault = .unsupportedRank name shape.extent.rank ∨
      fault = .shapeMismatch shape.cells stored ∧ shape.cells ≠ stored := by
  unfold gridFault? at failed
  split at failed
  · exact .inl (Option.some.inj failed).symm
  · split at failed
    next apart => exact .inr ⟨(Option.some.inj failed).symm, apart⟩
    next => cases failed

theorem tokenFault?_cases {name : String} {value : Value} {fault : Fault}
    (failed : value.tokenFault? name = some fault) :
    fault = value.unwritable name ∨
      (∃ expected actual, fault = .shapeMismatch expected actual) ∧ ¬value.Filled := by
  match value with
  | .text grid =>
    rw [tokenFault?] at failed
    split at failed
    next apart =>
      cases failed
      exact .inr ⟨⟨_, _, rfl⟩, apart⟩
    next =>
      split at failed
      · cases failed
      · exact .inl (Option.some.inj failed).symm
  | .numeric grid =>
    rw [tokenFault?] at failed
    split at failed
    · cases failed
    · exact .inl (Option.some.inj failed).symm
  | .record _ | .records [_] => cases failed
  | .records [] | .records (_ :: _ :: _) | .collection .. | .unsupported _ =>
    exact .inl (Option.some.inj failed).symm

theorem fault?_cases {name : String} {value : Value} {fault : Fault}
    (failed : value.fault? name = some fault) :
    (∃ cls, fault = .unsupportedType name cls) ∨ (∃ rank, fault = .unsupportedRank name rank) ∨
      (∃ expected actual, fault = .shapeMismatch expected actual) ∧
        ∃ part ∈ value.parts, ¬part.Filled := by
  match value with
  | .record _ | .records _ => cases failed
  | .unsupported cls => exact .inl ⟨cls, (Option.some.inj failed).symm⟩
  | .numeric grid =>
    rcases gridFault?_cases failed with rank | ⟨mismatch, apart⟩
    · exact .inr (.inl ⟨_, rank⟩)
    · exact .inr (.inr ⟨⟨_, _, mismatch⟩, _, mem_parts_self _, apart⟩)
  | .text grid =>
    rcases gridFault?_cases failed with rank | ⟨mismatch, apart⟩
    · exact .inr (.inl ⟨_, rank⟩)
    · exact .inr (.inr ⟨⟨_, _, mismatch⟩, _, mem_parts_self _, apart⟩)
  | .collection rows cols items =>
    rw [fault?] at failed
    split at failed
    next apart =>
      exact .inr (.inr ⟨⟨_, _, (Option.some.inj failed).symm⟩, _, mem_parts_self _, apart⟩)
    next =>
      split at failed
      next =>
        obtain ⟨item, member, token⟩ := List.exists_of_findSome?_eq_some failed
        rw [failure?_token] at token
        rcases tokenFault?_cases token with unwritable | ⟨mismatch, apart⟩
        · exact .inl ⟨_, unwritable⟩
        · exact .inr (.inr ⟨mismatch, item, mem_parts_of_item member (mem_parts_self item), apart⟩)
      next => cases failed

theorem fault?_ne_depthExceeded (name : String) (value : Value) (limit : Nat) :
    value.fault? name ≠ some (.depthExceeded limit) := by
  intro failed
  rcases fault?_cases failed with ⟨_, same⟩ | ⟨_, same⟩ | ⟨⟨_, _, same⟩, _⟩ <;> cases same

/-- What the walk meets is in the value, with all that is inside it. -/
theorem parts_of_visit (name : String) (depth : Nat) (value : Value) :
    ∀ visit ∈ value.visits name depth, ∀ part ∈ visit.value.parts, part ∈ value.parts := by
  refine @forall_visits (fun _ met => ∀ part ∈ met.parts, part ∈ value.parts) ?_ ?_ ?_
    value name depth (fun _ inside => inside)
  · intro _ fields inside field member part deeper
    exact inside part (mem_parts_of_field member deeper)
  · intro _ fields inside part deeper
    exact inside part (mem_parts_of_element List.mem_cons_self deeper)
  · intro _ elements inside fields member _ part deeper
    exact inside part (mem_parts_of_element member deeper)

/-- Why a value can have no script. -/
theorem script_error_cases {limit : Nat} {name : String} {value : Value} {fault : Fault}
    (failed : value.script limit name = .error fault) :
    (∃ node cls, fault = .unsupportedType node cls) ∨
      (∃ node rank, fault = .unsupportedRank node rank) ∨ fault = .depthExceeded limit ∨
      (∃ expected actual, fault = .shapeMismatch expected actual) ∧
        ∃ part ∈ value.parts, ¬part.Filled := by
  have first := congrArg failure? failed
  rw [failure?_script, failure?_error] at first
  obtain ⟨visit, met, cause⟩ := List.exists_of_findSome?_eq_some first
  unfold Visit.fault? at cause
  split at cause
  · exact .inr (.inr (.inl (Option.some.inj cause).symm))
  · rcases fault?_cases cause with ⟨cls, same⟩ | ⟨rank, same⟩ | ⟨mismatch, part, inside, apart⟩
    · exact .inl ⟨_, cls, same⟩
    · exact .inr (.inl ⟨_, rank, same⟩)
    · have whole := parts_of_visit name 0 value visit met part inside
      exact .inr (.inr (.inr ⟨mismatch, part, whole, apart⟩))

end Value

end ValueScript
