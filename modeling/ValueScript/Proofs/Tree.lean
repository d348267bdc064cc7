import Mathlib.Data.List.Forall2
import ValueScript.Value.Basic

namespace ValueScript

/-- What is made of items one by one is related when it is related for each item. -/
theorem forall₂_flatMap {α β γ : Type} {Relates : β → γ → Prop} {items : List α}
    {left : α → List β} {right : α → List γ}
    (each : ∀ item ∈ items, List.Forall₂ Relates (left item) (right item)) :
    List.Forall₂ Relates (items.flatMap left) (items.flatMap right) := by
  rw [List.flatMap_def, List.flatMap_def]
  refine List.rel_flatten ?_
  rw [List.forall₂_map_left_iff, List.forall₂_map_right_iff, List.forall₂_same]
  exact each

namespace Value

/-- Induction on a value: what holds of the entries of every record, list and collection as soon
as it holds of all that they hold. -/
@[induction_eliminator]
theorem nested {motive : Value → Prop}
    (record : ∀ fields : List (String × Value),
      (∀ field ∈ fields, motive field.2) → motive (.record fields))
    (records : ∀ elements : List (List (String × Value)),
      (∀ fields ∈ elements, ∀ field ∈ fields, motive field.2) → motive (.records elements))
    (numeric : ∀ grid, motive (.numeric grid))
    (text : ∀ grid, motive (.text grid))
    (collection : ∀ rows cols items,
      (∀ item ∈ items, motive item) → motive (.collection rows cols items))
    (unsupported : ∀ cls, motive (.unsupported cls)) (value : Value) : motive value :=
  Value.rec (motive_1 := motive) (motive_2 := fun fields => ∀ field ∈ fields, motive field.2)
    (motive_3 := fun elements => ∀ fields ∈ elements, ∀ field ∈ fields, motive field.2)
    (motive_4 := fun items => ∀ item ∈ items, motive item)
    (motive_5 := fun field => motive field.2)
    record records numeric text collection unsupported
    (fun _ member => nomatch member)
    (fun _ _ first rest => List.forall_mem_cons.mpr ⟨first, rest⟩)
    (fun _ member => nomatch member)
    (fun _ _ first rest => List.forall_mem_cons.mpr ⟨first, rest⟩)
    (fun _ member => nomatch member)
    (fun _ _ first rest => List.forall_mem_cons.mpr ⟨first, rest⟩)
    (fun _ _ entry => entry)
    value

mutual

/-- The values in a tree that stand for no record or list of records, in order. Collections are
leaves: what they hold is part of one statement. -/
def leaves : Value → List Value
  | .record fields => fieldLeaves fields
  | .records elements => elementLeaves elements
  | .numeric grid => [.numeric grid]
  | .text grid => [.text grid]
  | .collection rows cols items => [.collection rows cols items]
  | .unsupported cls => [.unsupported cls]

/-- The leaves of the fields of a record. -/
def fieldLeaves : List (String × Value) → List Value
  | [] => []
  | (_, entry) :: rest => leaves entry ++ fieldLeaves rest

/-- The leaves of all elements of a list of records. -/
def elementLeaves : List (List (String × Value)) → List Value
  | [] => []
  | fields :: rest => fieldLeaves fields ++ elementLeaves rest

end

mutual

/-- All the values in a tree, itself first: the entries of records and the items of collections,
however deep, and each element of a list of records as a record of its own. -/
def parts (value : Value) : List Value :=
  value ::
    match value with
    | .record fields => fieldParts fields
    | .records elements => elementParts elements
    | .collection _ _ items => itemParts items
    | .numeric _ | .text _ | .unsupported _ => []

/-- All the values in the fields of a record. -/
def fieldParts : List (String × Value) → List Value
  | [] => []
  | (_, entry) :: rest => parts entry ++ fieldParts rest

/-- The elements of a list of records and all the values in them. -/
def elementParts : List (List (String × Value)) → List Value
  | [] => []
  | fields :: rest => .record fields :: (fieldParts fields ++ elementParts rest)

/-- All the values in the items of a collection. -/
def itemParts : List Value → List Value
  | [] => []
  | item :: rest => parts item ++ itemParts rest

end

theorem mem_parts_self (value : Value) : value ∈ value.parts := by
  rw [parts.eq_def]
  exact List.mem_cons_self ..

private theorem mem_fieldParts {fields : List (String × Value)} {field : String × Value}
    (member : field ∈ fields) {part : Value} (inside : part ∈ field.2.parts) :
    part ∈ fieldParts fields := by
  induction fields with
  | nil => cases member
  | cons first rest ih =>
    rcases List.mem_cons.mp member with rfl | later
    · exact List.mem_append_left _ inside
    · exact List.mem_append_right _ (ih later)

theorem mem_parts_of_field {fields : List (String × Value)} {field : String × Value}
    (member : field ∈ fields) {part : Value} (inside : part ∈ field.2.parts) :
    part ∈ (record fields).parts :=
  List.mem_cons_of_mem _ (mem_fieldParts member inside)

/-- What is in an element of a list of records, or the element itself, is in the list. -/
theorem mem_parts_of_element {elements : List (List (String × Value))}
    {fields : List (String × Value)} (member : fields ∈ elements) {part : Value}
    (inside : part ∈ (record fields).parts) : part ∈ (records elements).parts := by
  refine List.mem_cons_of_mem _ ?_
  induction elements with
  | nil => cases member
  | cons first rest ih =>
    rcases List.mem_cons.mp member with rfl | later
    · rcases List.mem_cons.mp inside with rfl | deeper
      · exact List.mem_cons_self ..
      · exact List.mem_cons_of_mem _ (List.mem_append_left _ deeper)
    · exact List.mem_cons_of_mem _ (List.mem_append_right _ (ih later))

theorem mem_parts_of_item {rows cols : Nat} {items : List Value} {item : Value}
    (member : item ∈ items) {part : Value} (inside : part ∈ item.parts) :
    part ∈ (collection rows cols items).parts := by
  refine List.mem_cons_of_mem _ ?_
  induction items with
  | nil => cases member
  | cons first rest ih =>
    rcases List.mem_cons.mp member with rfl | later
    · exact List.mem_append_left _ inside
    · exact List.mem_append_right _ (ih later)

section Parts

variable {Holds : Value → Prop}

private theorem forall_fieldParts {fields : List (String × Value)}
    (inner : ∀ field ∈ fields, ∀ part ∈ field.2.parts, Holds part) :
    ∀ part ∈ fieldParts fields, Holds part := by
  induction fields with
  | nil => exact List.forall_mem_nil _
  | cons field rest ih =>
    obtain ⟨first, others⟩ := List.forall_mem_cons.mp inner
    exact List.forall_mem_append.mpr ⟨first, ih others⟩

theorem forall_parts_record {fields : List (String × Value)} (own : Holds (record fields))
    (inner : ∀ field ∈ fields, ∀ part ∈ field.2.parts, Holds part) :
    ∀ part ∈ (record fields).parts, Holds part :=
  List.forall_mem_cons.mpr ⟨own, forall_fieldParts inner⟩

/-- What holds of a list of records and of all that is in its elements. -/
theorem forall_parts_records {elements : List (List (String × Value))} (own : Holds (records elements))
    (inner : ∀ fields ∈ elements, ∀ part ∈ (record fields).parts, Holds part) :
    ∀ part ∈ (records elements).parts, Holds part := by
  refine List.forall_mem_cons.mpr ⟨own, ?_⟩
  clear own
  induction elements with
  | nil => exact List.forall_mem_nil _
  | cons fields rest ih =>
    obtain ⟨first, others⟩ := List.forall_mem_cons.mp inner
    obtain ⟨element, entries⟩ := List.forall_mem_cons.mp first
    exact List.forall_mem_cons.mpr ⟨element, List.forall_mem_append.mpr ⟨entries, ih others⟩⟩

theorem forall_parts_collection {rows cols : Nat} {items : List Value}
    (own : Holds (collection rows cols items))
    (inner : ∀ item ∈ items, ∀ part ∈ item.parts, Holds part) :
    ∀ part ∈ (collection rows cols items).parts, Holds part := by
  refine List.forall_mem_cons.mpr ⟨own, ?_⟩
  clear own
  induction items with
  | nil => exact List.forall_mem_nil _
  | cons item rest ih =>
    obtain ⟨first, others⟩ := List.forall_mem_cons.mp inner
    exact List.forall_mem_append.mpr ⟨first, ih others⟩

end Parts

/-- The labels of a record's own fields. -/
def labels : Value → List String
  | .record fields => Fields.labels fields
  | _ => []

/-- The characters that a text grid stores. -/
def chars : Value → List Char
  | .text grid => grid.chars
  | _ => []

end Value

end ValueScript
