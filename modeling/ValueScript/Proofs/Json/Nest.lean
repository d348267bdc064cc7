import ValueScript.Proofs.Json.Grid
import ValueScript.Proofs.RowMajor

namespace ValueScript

/-- Where the cell at a path of indices is stored: each index counts the cells of all the parts
before it. -/
def Shape.offset : Shape → (path : List Nat) → Nat
  | _ :: sizes, index :: path => index * Shape.cells sizes + offset sizes path
  | _, _ => 0

/-- Whether a path has an index for every dimension, and each is less than the dimension's size. -/
def Shape.Within (shape : Shape) (path : List Nat) : Prop := List.Forall₂ (· < ·) path shape

theorem Shape.offset_lt_cells {shape : Shape} {path : List Nat} (inside : shape.Within path) :
    shape.offset path < shape.cells := by
  induction inside with
  | nil => exact Nat.one_pos
  | @cons index size path sizes less _ ih =>
    calc index * cells sizes + offset sizes path
        < index * cells sizes + cells sizes := Nat.add_lt_add_left ih _
      _ = (index + 1) * cells sizes := (Nat.succ_mul ..).symm
      _ ≤ size * cells sizes := Nat.mul_le_mul_right _ less

namespace Json

def IsNumber (document : Json) : Prop := ∃ value, document = .number value

def IsBool (document : Json) : Prop := ∃ truth, document = .bool truth

def IsScalar (document : Json) : Prop := document.IsNumber ∨ document.IsBool

theorem leaves_of_isScalar {document : Json} (scalar : document.IsScalar) :
    leaves document = [document] := by
  rcases scalar with ⟨_, rfl⟩ | ⟨_, rfl⟩ <;> rfl

/-- Rectangular nests with their level lengths, outermost first, whose leaves are all of one sort.
Every branch has all the levels, and all the lists of a level have one length; lists without items
are a last level of length zero. -/
inductive Nest (Leaf : Json → Prop) : Shape → Json → Prop
  | leaf {document : Json} (holds : Leaf document) : Nest Leaf [] document
  | empty : Nest Leaf [0] (.array [])
  | level {items : List Json} {levels : Shape} (some : items ≠ [])
    (each : ∀ item ∈ items, Nest Leaf levels item) : Nest Leaf (items.length :: levels) (.array items)

/-- The part of a document at a path of indices. -/
def at? : Json → (path : List Nat) → Option Json
  | document, [] => some document
  | .array items, index :: path => items[index]?.bind fun item => item.at? path
  | _, _ :: _ => none

section Nest

variable {Leaf : Json → Prop} {levels : Shape} {document : Json}

theorem Nest.imp {Other : Json → Prop} (weaker : ∀ leaf, Leaf leaf → Other leaf)
    (nest : Nest Leaf levels document) : Nest Other levels document := by
  induction nest with
  | leaf holds => exact .leaf (weaker _ holds)
  | empty => exact .empty
  | level some _ ih => exact .level some ih

theorem forall_leaves_array {items : List Json} : (∀ leaf ∈ leaves (.array items), Leaf leaf) ↔
    ∀ item ∈ items, ∀ leaf ∈ leaves item, Leaf leaf := by
  rw [leaves, leavesOf_eq_flatMap]
  simp only [List.mem_flatMap, forall_exists_index, and_imp]
  exact ⟨fun all item member leaf inside => all leaf item member inside,
    fun all leaf item member inside => all item member leaf inside⟩

/-- The sort of a nest's leaves shows in its shape and in its leaves apart from each other. -/
theorem nest_iff (scalar : ∀ leaf, Leaf leaf → IsScalar leaf) :
    Nest Leaf levels document ↔
      Nest IsScalar levels document ∧ ∀ leaf ∈ leaves document, Leaf leaf := by
  constructor
  · intro nest
    refine ⟨nest.imp scalar, ?_⟩
    induction nest with
    | leaf holds =>
      rw [leaves_of_isScalar (scalar _ holds)]
      exact List.forall_mem_singleton.mpr holds
    | empty => exact List.forall_mem_nil _
    | level _ _ ih => exact forall_leaves_array.mpr ih
  · rintro ⟨nest, all⟩
    induction nest with
    | leaf holds =>
      rw [leaves_of_isScalar holds] at all
      exact .leaf (List.forall_mem_singleton.mp all)
    | empty => exact .empty
    | level some _ ih =>
      exact .level some fun item member => ih item member (forall_leaves_array.mp all item member)

theorem commonLevels?_of_forall {items : List Json} (some : items ≠ [])
    (each : ∀ item ∈ items, levels? item = .some levels) : commonLevels? items = .some levels := by
  induction items with
  | nil => exact absurd rfl some
  | cons item rest ih =>
    obtain ⟨first, others⟩ := List.forall_mem_cons.mp each
    match rest with
    | [] => exact first
    | next :: more =>
      rw [commonLevels?, first, ih (List.cons_ne_nil _ _) others]
      · exact if_pos rfl
      · exact List.cons_ne_nil _ _

/-- The levels that are found are those of a rectangular nest of numbers and truth values. -/
theorem levels?_eq_some_iff : levels? document = some levels ↔ Nest IsScalar levels document := by
  constructor
  · intro found
    induction document generalizing levels with
    | bool truth =>
      cases found
      exact .leaf (.inr ⟨truth, rfl⟩)
    | number value =>
      cases found
      exact .leaf (.inl ⟨value, rfl⟩)
    | array items ih _ =>
      match items with
      | [] =>
        cases found
        exact .empty
      | item :: rest =>
        obtain ⟨common, inner, rfl⟩ := Option.map_eq_some_iff.mp found
        exact .level (List.cons_ne_nil _ _) fun other member =>
          ih other member (levels?_of_common inner other member)
    | null => cases found
    | string _ => cases found
    | object _ _ => cases found
  · intro nest
    induction nest with
    | leaf holds => rcases holds with ⟨_, rfl⟩ | ⟨_, rfl⟩ <;> rfl
    | empty => rfl
    | @level items levels some _ ih =>
      match items with
      | item :: rest =>
        rw [levels?, commonLevels?_of_forall some ih]
        rfl

theorem Nest.length_leaves (nest : Nest IsScalar levels document) :
    (leaves document).length = levels.cells :=
  (cells_of_levels? document (levels?_eq_some_iff.mpr nest)).symm

theorem Nest.leaf_at (nest : Nest IsScalar levels document) {path : List Nat}
    (inside : levels.Within path) : ∃ leaf, document.at? path = some leaf ∧
      (leaves document)[levels.offset path]? = some leaf := by
  induction nest generalizing path with
  | @leaf document holds =>
    cases inside
    exact ⟨document, by rw [at?], by rw [leaves_of_isScalar holds]; rfl⟩
  | empty =>
    cases inside with
    | cons less => exact absurd less (Nat.not_lt_zero _)
  | @level items levels _ each ih =>
    cases inside with
    | @cons index _ rest _ less deeper =>
      have here : items[index]? = some items[index] := List.getElem?_eq_getElem less
      obtain ⟨leaf, found, stored⟩ := ih items[index] (List.getElem_mem less) deeper
      have full : ∀ row ∈ items.map leaves, row.length = levels.cells :=
        List.forall_mem_map.mpr fun item member => (each item member).length_leaves
      have row : (items.map leaves)[index]? = some (leaves items[index]) := by
        rw [List.getElem?_map, here]
        rfl
      refine ⟨leaf, by rw [at?, here]; exact found, ?_⟩
      rw [leaves, leavesOf_eq_flatMap, List.flatMap_def, Shape.offset,
        getElem?_flatten_of_full full row (Shape.offset_lt_cells deeper)]
      exact stored

end Nest

end Json

end ValueScript
