import Mathlib.Data.List.Forall2
import ValueScript.Proofs.Json.Form
import ValueScript.Proofs.RowMajor

namespace ValueScript.Json

theorem levels?_of_common {items : List Json} {common : Shape}
    (found : commonLevels? items = some common) : ∀ item ∈ items, levels? item = some common := by
  induction items with
  | nil => exact List.forall_mem_nil _
  | cons item rest ih =>
    match rest with
    | [] => exact List.forall_mem_singleton.mpr found
    | next :: more =>
      rw [commonLevels?] at found
      split at found
      next own others first remaining =>
        split at found
        next same =>
          cases found
          subst same
          exact List.forall_mem_cons.mpr ⟨first, ih remaining⟩
        next => cases found
      next => cases found
      exact List.cons_ne_nil _ _

theorem cells_of_levels? (document : Json) {levels : Shape}
    (found : levels? document = some levels) : levels.cells = (leaves document).length := by
  induction document generalizing levels with
  | bool _ =>
    cases found
    rfl
  | number _ =>
    cases found
    rfl
  | array items ih _ =>
    match items with
    | [] =>
      cases found
      rfl
    | item :: rest =>
      obtain ⟨common, inner, rfl⟩ := Option.map_eq_some_iff.mp found
      have same : ∀ other ∈ item :: rest, (leaves other).length = Shape.cells common :=
        fun other member => (ih other member (levels?_of_common inner other member)).symm
      rw [leaves, leavesOf_eq_flatMap, List.flatMap_def,
        length_flatten_of_full (List.forall_mem_map.mpr same), List.length_map, Shape.cells,
        List.length_cons]
  | null => cases found
  | string _ => cases found
  | object _ _ => cases found

theorem levels?_ne_nil {items : List Json} {levels : Shape}
    (found : levels? (.array items) = some levels) : levels ≠ [] := by
  match items with
  | [] =>
    cases found
    exact List.cons_ne_nil _ _
  | _ :: _ =>
    obtain ⟨_, _, rfl⟩ := Option.map_eq_some_iff.mp found
    exact List.cons_ne_nil _ _

private theorem forall₂_of_mapM {α β : Type} {part : α → Option β} {items : List α}
    {results : List β} (found : items.mapM part = some results) :
    List.Forall₂ (fun item result => part item = some result) items results := by
  induction items generalizing results with
  | nil =>
    cases found
    exact .nil
  | cons item rest ih =>
    rw [List.mapM_cons] at found
    obtain ⟨result, first, others⟩ := Option.bind_eq_some_iff.mp found
    obtain ⟨more, remaining, last⟩ := Option.bind_eq_some_iff.mp others
    cases last
    exact .cons first (ih remaining)

theorem exists_none_of_mapM {α β : Type} {part : α → Option β} {items : List α}
    (failed : items.mapM part = none) : ∃ item ∈ items, part item = none := by
  induction items with
  | nil => cases failed
  | cons item rest ih =>
    cases first : part item with
    | none => exact ⟨item, List.mem_cons_self, first⟩
    | some result =>
      cases others : rest.mapM part with
      | none =>
        obtain ⟨other, member, none⟩ := ih others
        exact ⟨other, List.mem_cons_of_mem _ member, none⟩
      | some more =>
        rw [List.mapM_cons, first, others] at failed
        cases failed

/-- Whether the cells of a grid stand for some leaves, one by one. Cells are doubles only when
there is no leaf or some number is no word. -/
def Holds (leaves : List Json) : Elements → Prop
  | .logical truths => List.Forall₂ (fun leaf truth => leaf = .bool truth) leaves truths
  | .int words =>
    List.Forall₂ (fun leaf word => ∃ number, leaf = .number number ∧ number.toInt64? = some word)
      leaves words
  | .float cells =>
    List.Forall₂ (fun leaf cell => ∃ number, leaf = .number number ∧ number.toFloat = cell)
      leaves cells ∧
    (leaves = [] ∨ ∃ number : Number, .number number ∈ leaves ∧ number.toInt64? = none)

theorem Holds.length {leaves : List Json} {elements : Elements} (holds : Holds leaves elements) :
    elements.length = leaves.length := by
  cases elements with
  | logical truths => exact holds.length_eq.symm
  | int words => exact holds.length_eq.symm
  | float cells => exact holds.1.length_eq.symm

private theorem bool?_eq_some {leaf : Json} {truth : Bool} (found : bool? leaf = some truth) :
    leaf = .bool truth := by
  cases leaf with
  | bool _ => exact congrArg Json.bool (Option.some.inj found)
  | null | number _ | string _ | array _ | object _ => cases found

private theorem number?_eq_some {leaf : Json} {number : Number}
    (found : number? leaf = some number) : leaf = .number number := by
  cases leaf with
  | number _ => exact congrArg Json.number (Option.some.inj found)
  | null | bool _ | string _ | array _ | object _ => cases found

private theorem eq_map_of_numbers {leaves : List Json} {numbers : List Number}
    (found : leaves.mapM number? = some numbers) : leaves = numbers.map .number := by
  have each := (forall₂_of_mapM found).imp fun _ _ => number?_eq_some
  rwa [← List.forall₂_map_right_iff, List.forall₂_eq_eq_eq] at each

theorem holds_of_elements? {leaves : List Json} {elements : Elements}
    (found : elements? leaves = some elements) : Holds leaves elements := by
  match leaves with
  | [] =>
    cases found
    exact ⟨.nil, .inl rfl⟩
  | leaf :: rest =>
    rw [elements?] at found
    split at found
    next _ _ truths all =>
      cases found
      exact (forall₂_of_mapM all).imp fun _ _ => bool?_eq_some
    next _ _ numbers _ all =>
      rw [eq_map_of_numbers all]
      split at found
      next words fit =>
        cases found
        rw [Holds, List.forall₂_map_left_iff]
        exact (forall₂_of_mapM fit).imp fun number _ fits => ⟨number, rfl, fits⟩
      next wide =>
        cases found
        rw [Holds, List.forall₂_map_left_iff, List.forall₂_map_right_iff, List.forall₂_same]
        obtain ⟨number, member, none⟩ := exists_none_of_mapM wide
        exact ⟨fun number _ => ⟨number, rfl, rfl⟩, .inr ⟨number, List.mem_map_of_mem member, none⟩⟩
    next => cases found
    exact List.cons_ne_nil _ _

/-- The grid of a list holds its leaves, in a shape of two dimensions or more that counts them. -/
theorem grid?_eq_some {items : List Json} {grid : NumericGrid} (found : grid? items = some grid) :
    2 ≤ grid.shape.length ∧ grid.shape.cells = (items.flatMap leaves).length ∧
      Holds (items.flatMap leaves) grid.elements := by
  obtain ⟨levels, nest, rest⟩ := Option.bind_eq_some_iff.mp found
  obtain ⟨elements, cells, shaped⟩ := Option.bind_eq_some_iff.mp rest
  have count := cells_of_levels? _ nest
  rw [leaves, leavesOf_eq_flatMap] at count
  rw [leavesOf_eq_flatMap] at cells
  have holds := holds_of_elements? cells
  match levels with
  | [] => exact absurd rfl (levels?_ne_nil nest)
  | [length] =>
    cases shaped
    exact ⟨Nat.le_refl 2, by simpa [Shape.cells] using count, holds⟩
  | _ :: _ :: _ =>
    cases shaped
    exact ⟨by simp, count, holds⟩

end ValueScript.Json
