import ValueScript.Json.Conversion

namespace ValueScript.Json

/-- Induction on a document: what holds of a list as soon as it holds of its items and of what is
inside those that are lists themselves, and of an object as soon as it holds of its members. -/
@[induction_eliminator]
theorem nested {motive : Json → Prop} (null : motive .null)
    (bool : ∀ truth, motive (.bool truth)) (number : ∀ value, motive (.number value))
    (string : ∀ text, motive (.string text))
    (array : ∀ items : List Json, (∀ item ∈ items, motive item) →
      (∀ row, .array row ∈ items → ∀ entry ∈ row, motive entry) → motive (.array items))
    (object : ∀ members : List (String × Json),
      (∀ member ∈ members, motive member.2) → motive (.object members))
    (document : Json) : motive document := by
  -- The items of a list that is an item itself come with that item.
  let Whole (document : Json) : Prop :=
    motive document ∧ ∀ row, document = .array row → ∀ entry ∈ row, motive entry
  have leaf {document : Json} (holds : motive document) (flat : ∀ row, document ≠ .array row) :
      Whole document := ⟨holds, fun row same => absurd same (flat row)⟩
  refine (Json.rec (motive_1 := Whole) (motive_2 := fun items => ∀ item ∈ items, Whole item)
    (motive_3 := fun members => ∀ member ∈ members, Whole member.2)
    (motive_4 := fun member => Whole member.2) ?_ ?_ ?_ ?_ ?_ ?_ ?_ ?_ ?_ ?_ ?_ document).1
  · exact leaf null (fun _ => nofun)
  · exact fun truth => leaf (bool truth) (fun _ => nofun)
  · exact fun value => leaf (number value) (fun _ => nofun)
  · exact fun text => leaf (string text) (fun _ => nofun)
  · intro items inner
    refine ⟨array items (fun item member => (inner item member).1) ?_, ?_⟩
    · exact fun row member => (inner _ member).2 row rfl
    · rintro row same entry member
      cases same
      exact (inner entry member).1
  · intro members inner
    exact leaf (object members fun member inside => (inner member inside).1) (fun _ => nofun)
  · exact List.forall_mem_nil _
  · exact fun _ _ first rest => List.forall_mem_cons.mpr ⟨first, rest⟩
  · exact List.forall_mem_nil _
  · exact fun _ _ first rest => List.forall_mem_cons.mpr ⟨first, rest⟩
  · exact fun _ _ holds => holds

@[simp] theorem valuesOf_eq_map (items : List Json) : valuesOf items = items.map toValue := by
  induction items with
  | nil => rfl
  | cons item rest ih => rw [valuesOf, ih, List.map_cons]

@[simp] theorem memberValues_eq_map (members : List (String × Json)) :
    memberValues members = members.map fun member => (member.1, toValue member.2) := by
  induction members with
  | nil => rfl
  | cons member rest ih =>
    obtain ⟨key, item⟩ := member
    rw [memberValues, ih, List.map_cons]

@[simp] theorem recordsOf_objects (objects : List (List (String × Json))) :
    recordsOf (objects.map .object) =
      objects.map fun members => Fields.ofMembers (memberValues members) := by
  induction objects with
  | nil => rfl
  | cons members rest ih => rw [List.map_cons, recordsOf, ih, List.map_cons]

@[simp] theorem cellsOf_arrays (rows : List (List Json)) :
    cellsOf (rows.map .array) = rows.flatten.map toValue := by
  induction rows with
  | nil => rfl
  | cons row rest ih =>
    rw [List.map_cons, cellsOf, ih, valuesOf_eq_map, List.flatten_cons, List.map_append]

@[simp] theorem leavesOf_eq_flatMap (items : List Json) : leavesOf items = items.flatMap leaves := by
  induction items with
  | nil => rfl
  | cons item rest ih => rw [leavesOf, ih, List.flatMap_cons]

private theorem exists_map_eq {α β : Type} {make : α → β} {items : List β}
    (made : ∀ item ∈ items, ∃ source, item = make source) :
    ∃ sources : List α, items = sources.map make := by
  induction items with
  | nil => exact ⟨[], rfl⟩
  | cons item rest ih =>
    obtain ⟨⟨source, rfl⟩, later⟩ := List.forall_mem_cons.mp made
    obtain ⟨sources, rfl⟩ := ih later
    exact ⟨source :: sources, rfl⟩

theorem objects_of_all {items : List Json} (all : items.all isObject = true) :
    ∃ objects : List (List (String × Json)), items = objects.map .object := by
  apply exists_map_eq
  intro item member
  have object := List.all_eq_true.mp all item member
  cases item with
  | object members => exact ⟨members, rfl⟩
  | null | bool _ | number _ | string _ | array _ => cases object

theorem length?_eq_some {item : Json} {length : Nat} (found : item.length? = some length) :
    ∃ row, item = .array row ∧ row.length = length := by
  cases item with
  | array row => exact ⟨row, rfl, Option.some.inj found⟩
  | null | bool _ | number _ | string _ | object _ => cases found

theorem rows_of_commonLength? {items : List Json} {cols : Nat}
    (found : commonLength? items = some cols) :
    0 < cols ∧ ∃ rows : List (List Json), items = rows.map .array ∧ rows ≠ [] ∧
      ∀ row ∈ rows, row.length = cols := by
  match items with
  | [] => cases found
  | item :: rest =>
    obtain ⟨length, first, others⟩ := Option.bind_eq_some_iff.mp found
    split at others
    next both =>
      obtain ⟨positive, all⟩ := both
      cases others
      have each : ∀ other ∈ item :: rest, other.length? = some cols := by
        refine List.forall_mem_cons.mpr ⟨first, fun other member => ?_⟩
        exact beq_iff_eq.mp (List.all_eq_true.mp all other member)
      have made : ∀ other ∈ item :: rest, ∃ row, other = .array row := fun other member =>
        (length?_eq_some (each other member)).imp fun _ => And.left
      obtain ⟨rows, same⟩ := exists_map_eq made
      refine ⟨positive, rows, same, ?_, ?_⟩
      · rintro rfl
        cases same
      · intro row member
        have listed : Json.array row ∈ item :: rest := same ▸ List.mem_map_of_mem member
        exact Option.some.inj (each _ listed)
    next => cases others

/-- The forms of a list, with what each makes of the items. -/
inductive ListForm : List Json → Value → Prop
  | empty : ListForm [] (.numeric .empty)
  | records {objects : List (List (String × Json))} (some : objects ≠ []) :
    ListForm (objects.map .object)
      (.records (objects.map fun members => Fields.ofMembers (memberValues members)))
  | grid {items : List Json} {grid : NumericGrid} (rectangular : grid? items = some grid) :
    ListForm items (.numeric grid)
  | table {rows : List (List Json)} {cols : Nat} (some : rows ≠ []) (positive : 0 < cols)
    (full : ∀ row ∈ rows, row.length = cols) :
    ListForm (rows.map .array) (.collection rows.length cols (rows.flatten.map toValue))
  | row {items : List Json} (some : items ≠ []) : ListForm items (.ofRow (items.map toValue))

/-- Every list takes one of the forms. -/
theorem listForm (items : List Json) : ListForm items (toValue (.array items)) := by
  rw [toValue]
  split
  next none =>
    rw [List.isEmpty_iff] at none
    subst none
    exact .empty
  next some =>
    rw [List.isEmpty_iff] at some
    split
    next all =>
      obtain ⟨objects, rfl⟩ := objects_of_all all
      rw [recordsOf_objects]
      exact .records fun none => some (none ▸ rfl)
    next =>
      split
      next grid rectangular => exact .grid rectangular
      next =>
        split
        next cols common =>
          obtain ⟨positive, rows, rfl, nonempty, full⟩ := rows_of_commonLength? common
          rw [cellsOf_arrays, List.length_map]
          exact .table nonempty positive full
        next =>
          rw [valuesOf_eq_map]
          exact .row some

end ValueScript.Json
