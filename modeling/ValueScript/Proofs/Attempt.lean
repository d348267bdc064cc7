/-! Outcomes that may be a fault, and lists of items tried in order until one of them fails. -/

namespace ValueScript

/-- The fault of a failing outcome. -/
def failure? {ε α : Type} : Except ε α → Option ε
  | .ok _ => none
  | .error fault => some fault

section failure

variable {ε α β : Type}

@[simp] theorem failure?_ok (result : α) : failure? (.ok result : Except ε α) = none := rfl

@[simp] theorem failure?_error (fault : ε) : failure? (.error fault : Except ε α) = some fault :=
  rfl

@[simp] theorem failure?_map (outcome : Except ε α) (part : α → β) :
    failure? (outcome.map part) = failure? outcome := by
  cases outcome <;> rfl

theorem failure?_eq_none_iff {outcome : Except ε α} :
    failure? outcome = none ↔ ∃ result, outcome = .ok result := by
  cases outcome <;> simp

theorem failure?_eq_some_iff {outcome : Except ε α} {fault : ε} :
    failure? outcome = some fault ↔ outcome = .error fault := by
  cases outcome <;> simp

theorem map_eq_ok {outcome : Except ε α} {part : α → β} {result : β}
    (success : outcome.map part = .ok result) :
    ∃ before, outcome = .ok before ∧ result = part before := by
  cases outcome with
  | error fault => cases success
  | ok before => exact ⟨before, rfl, (Except.ok.inj success).symm⟩

theorem bind_eq_ok {outcome : Except ε α} {part : α → Except ε β} {result : β}
    (success : outcome >>= part = .ok result) :
    ∃ before, outcome = .ok before ∧ part before = .ok result := by
  cases outcome with
  | error fault => cases success
  | ok before => exact ⟨before, rfl, success⟩

theorem mapM_cons_eq_ok {attempt : α → Except ε β} {item : α} {rest : List α} {results : List β}
    (success : (item :: rest).mapM attempt = .ok results) :
    ∃ result more, attempt item = .ok result ∧ rest.mapM attempt = .ok more ∧
      results = result :: more := by
  rw [List.mapM_cons] at success
  obtain ⟨result, first, remaining⟩ := bind_eq_ok success
  obtain ⟨more, others, last⟩ := bind_eq_ok remaining
  cases last
  exact ⟨result, more, first, others, rfl⟩

theorem mapM_congr {attempt other : α → Except ε β} {items : List α}
    (each : ∀ item ∈ items, attempt item = other item) :
    items.mapM attempt = items.mapM other := by
  induction items with
  | nil => rfl
  | cons item rest ih =>
    obtain ⟨first, others⟩ := List.forall_mem_cons.mp each
    rw [List.mapM_cons, List.mapM_cons, first, ih others]

theorem mapM_of_forall {attempt : α → Except ε β} {result : α → β} {items : List α}
    (each : ∀ item ∈ items, attempt item = .ok (result item)) :
    items.mapM attempt = .ok (items.map result) :=
  (mapM_congr each).trans List.mapM_pure

theorem mapM_map_result (attempt : α → Except ε β) {γ : Type} (part : β → γ) (items : List α) :
    (items.mapM fun item => (attempt item).map part) = (items.mapM attempt).map (List.map part) := by
  induction items with
  | nil => rfl
  | cons item rest ih =>
    rw [List.mapM_cons, List.mapM_cons, ih]
    cases attempt item with
    | error fault => rfl
    | ok result => cases rest.mapM attempt <;> rfl

theorem length_of_mapM {attempt : α → Except ε β} {items : List α} {results : List β}
    (success : items.mapM attempt = .ok results) : results.length = items.length := by
  induction items generalizing results with
  | nil =>
    cases success
    rfl
  | cons item rest ih =>
    obtain ⟨result, more, _, others, rfl⟩ := mapM_cons_eq_ok success
    simp [ih others]

theorem filterMap_of_mapM {attempt : α → Except ε β} {items : List α} {results : List β}
    (success : items.mapM attempt = .ok results) :
    items.filterMap (fun item => (attempt item).toOption) = results := by
  induction items generalizing results with
  | nil =>
    cases success
    rfl
  | cons item rest ih =>
    obtain ⟨result, more, first, others, rfl⟩ := mapM_cons_eq_ok success
    rw [List.filterMap_cons, first, ih others]
    rfl

/-- Items tried in order fail as the first of them that fails. -/
theorem failure?_mapM (attempt : α → Except ε β) (items : List α) :
    failure? (items.mapM attempt) = items.findSome? fun item => failure? (attempt item) := by
  induction items with
  | nil => rfl
  | cons item rest ih =>
    rw [List.mapM_cons, List.findSome?_cons, ← ih]
    cases first : attempt item with
    | error fault => rfl
    | ok result => cases rest.mapM attempt <;> rfl

end failure

end ValueScript
