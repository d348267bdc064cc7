import ValueScript.Proofs.Emission.Causes
import ValueScript.Proofs.Fields
import ValueScript.Proofs.Json.Grid
import ValueScript.Proofs.RowMajor

namespace ValueScript

/-- What holds of every value that a document can have, looking at this value alone. -/
def Value.WellFormed : Value → Prop
  | .record fields => (Fields.labels fields).Nodup
  | .records elements => elements ≠ []
  | .numeric grid => 2 ≤ grid.shape.length ∧ grid.elements.length = grid.shape.cells
  | .text grid =>
    grid.shape = [0, 0] ∧ grid.chars = [] ∨
      ∃ length, 1 ≤ length ∧ grid.shape = [1, length] ∧ grid.chars.length = length
  | .collection rows cols items => 1 ≤ rows ∧ 1 ≤ cols ∧ items.length = rows * cols
  | .unsupported cls => cls = "null"

theorem Value.WellFormed.filled {value : Value} (formed : value.WellFormed) : value.Filled := by
  match value with
  | .record _ | .records _ | .unsupported _ => trivial
  | .numeric grid => exact formed.2.symm
  | .text grid =>
    rcases formed with ⟨shape, chars⟩ | ⟨length, _, shape, chars⟩
    · simp [Filled, shape, chars, Shape.cells]
    · simp [Filled, shape, chars, Shape.cells]
  | .collection rows cols items => exact formed.2.2.symm

namespace Json

/-- All parts of a value are well formed. -/
private abbrev Formed (value : Value) : Prop := ∀ part ∈ value.parts, part.WellFormed

private theorem formed_numeric {grid : NumericGrid} (flat : 2 ≤ grid.shape.length)
    (full : grid.elements.length = grid.shape.cells) : Formed (.numeric grid) :=
  List.forall_mem_singleton.mpr ⟨flat, full⟩

private theorem formed_ofString (text : String) : Formed (.ofString text) := by
  refine List.forall_mem_singleton.mpr ?_
  unfold Value.ofString TextGrid.ofString
  cases text.toList with
  | nil => exact .inl ⟨rfl, rfl⟩
  | cons char rest => exact .inr ⟨_, by simp, rfl, rfl⟩

private theorem formed_ofMembers {members : List (String × Json)}
    (inner : ∀ member ∈ members, Formed (toValue member.2)) :
    Formed (.record (Fields.ofMembers (memberValues members))) := by
  refine Value.forall_parts_record (Fields.labels_nodup_ofMembers _) ?_
  intro field inside
  have member := Fields.mem_of_mem_ofMembers inside
  rw [memberValues_eq_map] at member
  obtain ⟨source, listed, rfl⟩ := List.mem_map.mp member
  exact inner source listed

private theorem formed_list {items : List Json} (inner : ∀ item ∈ items, Formed (toValue item))
    (deeper : ∀ row, .array row ∈ items → ∀ entry ∈ row, Formed (toValue entry)) :
    Formed (toValue (.array items)) := by
  have form := listForm items
  generalize toValue (.array items) = value at form
  cases form with
  | empty => exact formed_numeric (Nat.le_refl 2) rfl
  | @records objects some =>
    refine Value.forall_parts_records (by simpa [Value.WellFormed] using some) ?_
    intro fields listed
    obtain ⟨members, member, rfl⟩ := List.mem_map.mp listed
    have whole := inner _ (List.mem_map_of_mem member)
    rwa [toValue] at whole
  | grid rectangular =>
    obtain ⟨flat, count, holds⟩ := grid?_eq_some rectangular
    exact formed_numeric flat (holds.length.trans count.symm)
  | @table rows cols some positive full =>
    have filled : (rows.flatten.map toValue).length = rows.length * cols := by
      rw [List.length_map, length_flatten_of_full full]
    refine Value.forall_parts_collection ⟨List.length_pos_iff.mpr some, positive, filled⟩ ?_
    intro item listed
    obtain ⟨entry, inside, rfl⟩ := List.mem_map.mp listed
    obtain ⟨row, member, here⟩ := List.mem_flatten.mp inside
    exact deeper row (List.mem_map_of_mem member) entry here
  | row some =>
    have positive : 1 ≤ (items.map toValue).length := by
      rw [List.length_map]
      exact List.length_pos_iff.mpr some
    refine Value.forall_parts_collection ⟨Nat.le_refl 1, positive, (Nat.one_mul _).symm⟩ ?_
    intro item listed
    obtain ⟨source, member, rfl⟩ := List.mem_map.mp listed
    exact inner source member

theorem forall_parts_toValue (document : Json) :
    ∀ part ∈ document.toValue.parts, part.WellFormed := by
  induction document with
  | null => exact List.forall_mem_singleton.mpr rfl
  | bool truth => exact formed_numeric (Nat.le_refl 2) rfl
  | number value =>
    rw [toValue]
    split
    · exact formed_numeric (Nat.le_refl 2) rfl
    · exact formed_numeric (Nat.le_refl 2) rfl
  | string text => exact formed_ofString text
  | array items inner deeper => exact formed_list inner deeper
  | object members inner => exact formed_ofMembers inner

/-- All that is in the value of a document is well formed. Hence it has a script, or a node of it
has a type or a rank without literal form, or lies too deep. -/
theorem toValue_wellFormed (document : Json) :
    (∀ part ∈ document.toValue.parts, part.WellFormed) ∧
      ∀ (limit : Nat) (name : String),
        (∃ script, document.toValue.script limit name = .ok script) ∨
        (∃ node cls, document.toValue.script limit name = .error (.unsupportedType node cls)) ∨
        (∃ node rank, document.toValue.script limit name = .error (.unsupportedRank node rank)) ∨
        document.toValue.script limit name = .error (.depthExceeded limit) := by
  have formed := forall_parts_toValue document
  refine ⟨formed, fun limit name => ?_⟩
  cases outcome : document.toValue.script limit name with
  | ok script => exact .inl ⟨script, rfl⟩
  | error fault =>
    rcases Value.script_error_cases outcome with
      ⟨node, cls, rfl⟩ | ⟨node, rank, rfl⟩ | rfl | ⟨_, part, inside, apart⟩
    · exact .inr (.inl ⟨node, cls, rfl⟩)
    · exact .inr (.inr (.inl ⟨node, rank, rfl⟩))
    · exact .inr (.inr (.inr rfl))
    · exact absurd (formed part inside).filled apart

end Json

end ValueScript
