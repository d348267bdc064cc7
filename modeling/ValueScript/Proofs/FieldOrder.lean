import Mathlib.Data.Finset.Card
import Mathlib.Data.List.Nodup
import ValueScript.Proofs.Fields

namespace ValueScript.Fields

universe u v
variable {α : Type u} {β : Type v}

theorem ofMembers_concat (members : List (String × α)) (label : String) (entry : α) :
    ofMembers (members ++ [(label, entry)]) = (ofMembers members).insert label entry := by
  rw [ofMembers, List.foldl_append]
  rfl

theorem labels_concat (members : List (String × α)) (label : String) (entry : α) :
    labels (members ++ [(label, entry)]) = labels members ++ [label] := List.map_append

theorem mem_labels_ofMembers {members : List (String × α)} {label : String} :
    label ∈ (ofMembers members).labels ↔ label ∈ labels members := by
  induction members using List.reverseRecOn with
  | nil => exact Iff.rfl
  | append_singleton members last ih =>
    rw [ofMembers_concat, labels_concat, labels_insert, List.mem_append, List.mem_singleton, ← ih]
    split
    next known =>
      refine ⟨.inl, fun either => either.elim id fun same => ?_⟩
      exact same ▸ known
    next => rw [List.mem_append, List.mem_singleton]

/-- Labels stand in the order in which they were set first. -/
theorem labels_ofMembers_pairwise (members : List (String × α)) :
    (ofMembers members).labels.Pairwise fun earlier later =>
      (labels members).idxOf earlier < (labels members).idxOf later := by
  induction members using List.reverseRecOn with
  | nil => exact .nil
  | append_singleton members last ih =>
    have before {label : String} (known : label ∈ (ofMembers members).labels) :
        (labels members ++ [last.1]).idxOf label = (labels members).idxOf label :=
      List.idxOf_append_of_mem (mem_labels_ofMembers.mp known)
    have kept : (ofMembers members).labels.Pairwise fun earlier later =>
        (labels members ++ [last.1]).idxOf earlier < (labels members ++ [last.1]).idxOf later := by
      refine ih.imp_of_mem fun first second earlier => ?_
      rwa [before first, before second]
    rw [ofMembers_concat, labels_concat, labels_insert]
    split
    next => exact kept
    next absent =>
      refine List.pairwise_append.mpr ⟨kept, List.pairwise_singleton .., ?_⟩
      intro label known other isLast
      rw [List.mem_singleton.mp isLast, before known,
        List.idxOf_append_of_notMem (mem_labels_ofMembers.not.mp absent)]
      exact Nat.lt_add_right _ (List.idxOf_lt_length_of_mem (mem_labels_ofMembers.mp known))

theorem find?_ofMembers (members : List (String × α)) (label : String) :
    (ofMembers members).find? label =
      (members.reverse.find? fun member => member.1 == label).map Prod.snd := by
  induction members using List.reverseRecOn with
  | nil => rfl
  | append_singleton members last ih =>
    rw [ofMembers_concat, find?_insert, ih, List.reverse_append]
    by_cases same : last.1 = label <;> simp [same]

example : ofMembers [("a", 1), ("b", 2), ("a", 3)] = [("a", 3), ("b", 2)] := rfl

theorem find?_eq_none_iff {fields : Fields α} {label : String} :
    fields.find? label = none ↔ label ∉ fields.labels := by
  induction fields with
  | nil => simp [find?, labels]
  | cons first rest ih =>
    obtain ⟨known, entry⟩ := first
    rw [find?, labels, List.map_cons, List.mem_cons, not_or]
    split
    next same => exact iff_of_false (Option.some_ne_none entry) fun absent => absent.1 same.symm
    next other =>
      rw [ih]
      exact ⟨fun absent => ⟨fun same => other same.symm, absent⟩, And.right⟩

theorem length_ofMembers (members : List (String × α)) :
    (ofMembers members).length = (labels members).toFinset.card := by
  have same : (ofMembers members).labels.toFinset = (labels members).toFinset := by
    ext label
    rw [List.mem_toFinset, List.mem_toFinset, mem_labels_ofMembers]
  rw [← same, List.toFinset_card_of_nodup (labels_nodup_ofMembers members), labels, List.length_map]

/-- Fields with something made of each entry. -/
def mapEntries (make : α → β) (fields : Fields α) : Fields β :=
  fields.map fun field => (field.1, make field.2)

theorem insert_mapEntries (make : α → β) (fields : Fields α) (label : String) (entry : α) :
    (fields.mapEntries make).insert label (make entry) =
      (fields.insert label entry).mapEntries make := by
  induction fields with
  | nil => rfl
  | cons first rest ih =>
    obtain ⟨known, old⟩ := first
    by_cases same : known = label
    · simp [mapEntries, insert, same]
    · simp only [mapEntries, List.map_cons, insert, same, if_false] at ih ⊢
      rw [ih]

/-- Fields may be put together before or after something is made of their entries. -/
theorem ofMembers_mapEntries (make : α → β) (members : List (String × α)) :
    ofMembers (mapEntries make members) = (ofMembers members).mapEntries make := by
  induction members using List.reverseRecOn with
  | nil => rfl
  | append_singleton members last ih =>
    rw [ofMembers_concat, ← insert_mapEntries, ← ih, ← ofMembers_concat]
    simp [mapEntries]

/-- Putting fields together once more changes nothing. -/
theorem ofMembers_ofMembers (members : List (String × α)) :
    ofMembers (ofMembers members) = ofMembers members :=
  ofMembers_of_nodup (labels_nodup_ofMembers members)

end ValueScript.Fields
