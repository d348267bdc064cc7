import ValueScript.Proofs.Emission.FirstFault
import ValueScript.Proofs.Reading.Script

namespace ValueScript

namespace Name

theorem Legible.field {parent label : String} (legible : Legible parent)
    (blankless : ' ' ∉ label.toList) (unbroken : '\n' ∉ label.toList) :
    Legible (field parent label) := by
  obtain ⟨_, blankless', unbroken'⟩ := legible
  refine ⟨?_, ?_, ?_⟩
  · intro none
    have := congrArg String.length none
    simp [Name.field] at this
  · simp [Name.field, blankless, blankless']
  · simp [Name.field, unbroken, unbroken']

theorem Legible.indexed {parent : String} (legible : Legible parent) (index : Nat) :
    Legible (indexed parent index) := by
  obtain ⟨_, blankless, unbroken⟩ := legible
  have blank : ' ' ∉ Nat.toDigits 10 index := by
    intro member
    cases Token.plain_of_mem_toDigits member
  have feed : '\n' ∉ Nat.toDigits 10 index := by
    intro member
    cases Token.plain_of_mem_toDigits member
  refine ⟨?_, ?_, ?_⟩
  · intro none
    have := congrArg String.length none
    simp [Name.indexed] at this
  · simp [Name.indexed, blankless, blank]
  · simp [Name.indexed, unbroken, feed]

end Name

namespace Value

/-- No label anywhere in the value holds a blank or a line end, and no text anywhere in it, the
items of collections included, holds a quote or a line end. -/
def Legible (value : Value) : Prop :=
  ∀ part ∈ value.parts, (∀ label ∈ part.labels, ' ' ∉ label.toList ∧ '\n' ∉ label.toList) ∧
    '\'' ∉ part.chars ∧ '\n' ∉ part.chars

instance (value : Value) : Decidable value.Legible :=
  inferInstanceAs (Decidable (∀ part ∈ value.parts,
    (∀ label ∈ part.labels, ' ' ∉ label.toList ∧ '\n' ∉ label.toList) ∧
      '\'' ∉ part.chars ∧ '\n' ∉ part.chars))

theorem Legible.field {fields : List (String × Value)} (legible : (record fields).Legible)
    {field : String × Value} (member : field ∈ fields) : field.2.Legible :=
  fun part inside => legible part (mem_parts_of_field member inside)

theorem Legible.element {elements : List (List (String × Value))}
    (legible : (records elements).Legible) {fields : List (String × Value)}
    (member : fields ∈ elements) : (record fields).Legible :=
  fun part inside => legible part (mem_parts_of_element member inside)

theorem Legible.item {rows cols : Nat} {items : List Value}
    (legible : (collection rows cols items).Legible) {item : Value} (member : item ∈ items) :
    item.Legible :=
  fun part inside => legible part (mem_parts_of_item member inside)

theorem legible_visits {value : Value} (legible : value.Legible) {root : String}
    (named : Name.Legible root) (depth : Nat) :
    ∀ visit ∈ value.visits root depth, Name.Legible visit.name ∧ visit.value.Legible := by
  refine @forall_visits (fun name value => Name.Legible name ∧ value.Legible) ?_ ?_ ?_
    value root depth ⟨named, legible⟩
  · intro name fields both field member
    obtain ⟨labels, _⟩ := both.2 _ (mem_parts_self _)
    obtain ⟨blankless, unbroken⟩ := labels field.1 (List.mem_map_of_mem member)
    exact ⟨both.1.field blankless unbroken, both.2.field member⟩
  · intro name fields both
    exact ⟨both.1, both.2.element List.mem_cons_self⟩
  · intro name elements both fields member index
    exact ⟨both.1.indexed index, both.2.element member⟩

private theorem of?_eq_some {extent : Extent} {cells : List String} {layout : Layout}
    (shown : Layout.of? extent cells = some layout) :
    layout = ⟨extent.rows, extent.cols, cells⟩ ∧ 0 < extent.rows ∧ 0 < extent.cols := by
  unfold Layout.of? at shown
  split at shown
  · cases shown
  · rename_i filled
    cases shown
    simp only [Extent.isEmpty, Bool.or_eq_true, beq_iff_eq, not_or] at filled
    exact ⟨rfl, Nat.pos_of_ne_zero filled.1, Nat.pos_of_ne_zero filled.2⟩

/-- The cells of a grid without a fault fill its rows and columns. -/
private theorem cells_of_grid {name : String} {shape : Shape} {stored : Nat}
    (sound : gridFault? name shape stored = none) :
    stored = shape.extent.rows * shape.extent.cols := by
  obtain ⟨flat, full⟩ := gridFault?_eq_none_iff.mp sound
  rw [← full, Shape.cells_of_flat flat]

private theorem readable_of_layout {cls : LeafClass} {extent : Extent} {cells : List String}
    (full : cells.length = extent.rows * extent.cols) (reads : ∀ cell ∈ cells, cls.Reads cell) :
    ∀ layout ∈ Layout.of? extent cells, layout.Readable cls := by
  intro layout shown
  obtain ⟨rfl, rows, cols⟩ := of?_eq_some shown
  exact ⟨⟨rows, cols, full⟩, reads⟩

/-- What a legible value assigns under a legible name can be read back. -/
theorem readable_of_own {name : String} {value : Value} {part : Script} (named : Name.Legible name)
    (legible : value.Legible) (success : value.own name = .ok part) {assignment : Assignment}
    (assigned : value.assignment? name = some assignment) : assignment.Readable := by
  have sound : value.fault? name = none := by
    rw [← failure?_own, success, failure?_ok]
  match value with
  | .record _ | .records _ | .unsupported _ => cases assigned
  | .numeric grid =>
    cases assigned
    have full := grid.elements.length_tokens.trans (cells_of_grid sound)
    exact ⟨named, readable_of_layout full grid.elements.plain_tokens⟩
  | .text grid =>
    cases assigned
    have full : (grid.chars.map String.singleton).length = _ :=
      (List.length_map _).trans (cells_of_grid sound)
    refine ⟨named, readable_of_layout full ?_⟩
    intro cell member
    obtain ⟨char, stored, rfl⟩ := List.mem_map.mp member
    obtain ⟨_, quoteless, single⟩ := legible _ (mem_parts_self _)
    refine ⟨char, rfl, ?_, ?_⟩
    · rintro rfl
      exact quoteless stored
    · rintro rfl
      exact single stored
  | .collection rows cols items =>
    obtain ⟨result, written, rfl⟩ := map_eq_ok success
    have count := Collection.full_of_statement written
    rw [assignment?] at assigned
    split at assigned
    · rename_i same
      cases assigned
      rw [Collection.statement_of_oneKind name count same] at written
      obtain ⟨tokens, all, rfl⟩ := map_eq_ok written
      have full : (items.filterMap fun item => (item.token name).toOption).length = rows * cols := by
        rw [filterMap_of_mapM all, length_of_mapM all, count]
      refine ⟨named, readable_of_layout full ?_⟩
      intro cell member
      obtain ⟨item, listed, shown⟩ := List.mem_filterMap.mp member
      obtain ⟨_, quoteless, single⟩ := legible.item listed _ (mem_parts_self _)
      cases outcome : item.token name with
      | error fault => simp [outcome, Except.toOption] at shown
      | ok token =>
        rw [outcome] at shown
        cases shown
        exact clear_token quoteless single outcome
    · cases assigned

/-- What a legible value assigns when it has a script can be read back. -/
theorem readable_assignments {limit : Nat} {root : String} {value : Value} {script : Script}
    (named : Name.Legible root) (legible : value.Legible)
    (written : value.script limit root = .ok script) :
    ∀ assignment ∈ value.assignments root, assignment.Readable := by
  intro assignment member
  obtain ⟨visit, met, assigned⟩ := List.mem_filterMap.mp member
  obtain ⟨named', legible'⟩ := legible_visits legible named 0 visit met
  obtain ⟨part, output⟩ := Script.eq_ok_of_collect
    ((script_eq_collect limit root value).symm.trans written) met
  exact readable_of_own named' legible' (Visit.output_eq_ok output) assigned

/-- Reading a script gives what it assigns. -/
theorem read_script {limit : Nat} {root : String} {value : Value} {script : Script}
    (named : Name.Legible root) (legible : value.Legible)
    (written : value.script limit root = .ok script) :
    Line.read (Line.ofText script.text) = value.assignments root := by
  rw [text_of_script written, Line.read_statements (readable_assignments named legible written)]

theorem assignments_eq_of_text_eq {limit limit' : Nat} {root : String} {first second : Value}
    {script script' : Script} (named : Name.Legible root) (legible : first.Legible)
    (legible' : second.Legible) (written : first.script limit root = .ok script)
    (written' : second.script limit' root = .ok script') (same : script.text = script'.text) :
    first.assignments root = second.assignments root := by
  rw [← read_script named legible written, same, read_script named legible' written']

end Value

end ValueScript
