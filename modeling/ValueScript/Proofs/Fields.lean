import Mathlib.Data.List.Nodup
import ValueScript.Fields

namespace ValueScript.Fields

universe u
variable {α : Type u}

theorem mem_insert {fields : Fields α} {label : String} {entry : α} {field : String × α}
    (member : field ∈ fields.insert label entry) : field = (label, entry) ∨ field ∈ fields := by
  induction fields with
  | nil => exact .inl (List.mem_singleton.mp member)
  | cons first rest ih =>
    obtain ⟨known, old⟩ := first
    by_cases same : known = label
    · subst same
      simp only [insert, if_true] at member
      exact (List.mem_cons.mp member).imp_right (List.mem_cons_of_mem _)
    · simp only [insert, same, if_false] at member
      rcases List.mem_cons.mp member with rfl | later
      · exact .inr List.mem_cons_self
      · exact (ih later).imp_right (List.mem_cons_of_mem _)

theorem insert_of_not_mem {fields : Fields α} {label : String} (absent : label ∉ fields.labels)
    (entry : α) : fields.insert label entry = fields ++ [(label, entry)] := by
  induction fields with
  | nil => rfl
  | cons first rest ih =>
    obtain ⟨known, old⟩ := first
    obtain ⟨apart, later⟩ := not_or.mp (List.mem_cons.not.mp absent)
    have other : known ≠ label := fun same => apart same.symm
    rw [insert, if_neg other, ih later, List.cons_append]

/-- The fields that setting each member in turn makes of those that are there. -/
def insertAll (fields : Fields α) (members : List (String × α)) : Fields α :=
  members.foldl (fun fields member => fields.insert member.1 member.2) fields

theorem mem_insertAll {fields : Fields α} {members : List (String × α)} {field : String × α}
    (inside : field ∈ fields.insertAll members) : field ∈ fields ∨ field ∈ members := by
  induction members generalizing fields with
  | nil => exact .inl inside
  | cons member rest ih =>
    rcases ih inside with before | later
    · rcases mem_insert before with rfl | old
      · exact .inr List.mem_cons_self
      · exact .inl old
    · exact .inr (List.mem_cons_of_mem _ later)

theorem labels_nodup_insertAll {fields : Fields α} (distinct : fields.labels.Nodup)
    (members : List (String × α)) : (fields.insertAll members).labels.Nodup := by
  induction members generalizing fields with
  | nil => exact distinct
  | cons member rest ih => exact ih (labels_nodup_insert fields member.1 member.2 distinct)

/-- Members whose labels are new and pairwise distinct go to the end in order. -/
theorem insertAll_of_nodup {fields : Fields α} {members : List (String × α)}
    (distinct : (labels (fields ++ members)).Nodup) : fields.insertAll members = fields ++ members := by
  induction members generalizing fields with
  | nil => exact (List.append_nil fields).symm
  | cons member rest ih =>
    have absent : member.1 ∉ fields.labels := by
      rw [labels, List.map_append, List.map_cons, List.nodup_middle, List.nodup_cons,
        List.mem_append, not_or] at distinct
      exact distinct.1.1
    have split : fields ++ member :: rest = fields ++ [member] ++ rest := by simp
    rw [insertAll, List.foldl_cons, insert_of_not_mem absent, split]
    exact ih (split ▸ distinct)

theorem mem_of_mem_ofMembers {members : List (String × α)} {field : String × α}
    (inside : field ∈ ofMembers members) : field ∈ members :=
  (mem_insertAll inside).resolve_left List.not_mem_nil

theorem labels_nodup_ofMembers (members : List (String × α)) : (ofMembers members).labels.Nodup := by
  have none : (labels ([] : Fields α)).Nodup := List.nodup_nil
  exact labels_nodup_insertAll none members

theorem ofMembers_of_nodup {members : List (String × α)} (distinct : (labels members).Nodup) :
    ofMembers members = members :=
  insertAll_of_nodup distinct

end ValueScript.Fields
