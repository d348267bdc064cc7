/-! Labelled entries in the order in which their labels first came. Setting a label that is there
replaces its entry in place; a new label goes to the end. -/

namespace ValueScript

universe u

/-- Entries under text labels, in order. -/
abbrev Fields (α : Type u) := List (String × α)

namespace Fields

variable {α : Type u}

def labels (fields : Fields α) : List String := fields.map Prod.fst

/-- Sets the entry of a label: in place when the label is there, else at the end. -/
def insert : Fields α → String → α → Fields α
  | [], label, entry => [(label, entry)]
  | (known, old) :: rest, label, entry =>
    if known = label then (known, entry) :: rest else (known, old) :: insert rest label entry

def find? : Fields α → String → Option α
  | [], _ => none
  | (known, entry) :: rest, label => if known = label then some entry else find? rest label

/-- The fields that setting each member in turn leaves. -/
def ofMembers (members : List (String × α)) : Fields α :=
  members.foldl (fun fields member => fields.insert member.1 member.2) []

theorem find?_insert (fields : Fields α) (label other : String) (entry : α) :
    (fields.insert label entry).find? other =
      if label = other then some entry else fields.find? other := by
  induction fields with
  | nil => simp [insert, find?]
  | cons first rest ih =>
    obtain ⟨known, old⟩ := first
    by_cases same : known = label
    · subst same; by_cases here : known = other <;> simp [insert, find?, here]
    · simp only [insert, same, if_false, find?, ih]
      by_cases here : known = other
      · have apart : label ≠ other := fun equal => same (here.trans equal.symm)
        simp [here, apart]
      · simp [here]

theorem labels_insert (fields : Fields α) (label : String) (entry : α) :
    (fields.insert label entry).labels =
      if label ∈ fields.labels then fields.labels else fields.labels ++ [label] := by
  induction fields with
  | nil => simp [insert, labels]
  | cons first rest ih =>
    obtain ⟨known, old⟩ := first
    by_cases same : known = label
    · subst same; simp [insert, labels]
    · have apart : label ≠ known := fun equal => same equal.symm
      simp only [labels] at ih
      simp only [insert, same, if_false, labels, List.map_cons, ih, List.mem_cons, apart, false_or]
      by_cases member : label ∈ List.map Prod.fst rest <;> simp [member]

/-- Setting a label keeps the labels pairwise distinct. -/
theorem labels_nodup_insert (fields : Fields α) (label : String) (entry : α)
    (distinct : fields.labels.Nodup) : (fields.insert label entry).labels.Nodup := by
  rw [labels_insert]
  split
  next => exact distinct
  next absent =>
    rw [List.nodup_append]
    refine ⟨distinct, by simp, ?_⟩
    intro known member other isLabel
    simp at isLabel
    subst isLabel
    intro equal
    exact absent (equal ▸ member)

end Fields

end ValueScript
