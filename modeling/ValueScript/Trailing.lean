/-! Lists without the unwanted entries at their end. -/

namespace ValueScript

universe u
variable {α : Type u}

/-- The list without the longest run of unwanted entries at its end. -/
def dropTrailing (unwanted : α → Bool) : List α → List α
  | [] => []
  | entry :: rest =>
    match dropTrailing unwanted rest with
    | [] => if unwanted entry then [] else [entry]
    | kept => entry :: kept

variable (unwanted : α → Bool)

/-- The list is what is kept followed by unwanted entries only. -/
theorem dropTrailing_append (entries : List α) :
    ∃ dropped, entries = dropTrailing unwanted entries ++ dropped ∧
      ∀ entry ∈ dropped, unwanted entry = true := by
  induction entries with
  | nil => exact ⟨[], rfl, by simp⟩
  | cons entry rest ih =>
    obtain ⟨dropped, split, all⟩ := ih
    simp only [dropTrailing]
    split
    next none =>
      rw [none, List.nil_append] at split
      by_cases bad : unwanted entry = true
      · exact ⟨entry :: rest, by simp [bad], by simpa [bad, split] using all⟩
      · exact ⟨dropped, by simp [bad, ← split], all⟩
    next => exact ⟨dropped, by rw [List.cons_append, ← split], all⟩

/-- What is kept does not end in an unwanted entry. -/
theorem dropTrailing_getLast (entries : List α) (kept : dropTrailing unwanted entries ≠ []) :
    unwanted ((dropTrailing unwanted entries).getLast kept) = false := by
  induction entries with
  | nil => exact absurd rfl kept
  | cons entry rest ih =>
    by_cases none : dropTrailing unwanted rest = []
    · by_cases bad : unwanted entry = true
      · exact absurd (by simp [dropTrailing, none, bad]) kept
      · have single : dropTrailing unwanted (entry :: rest) = [entry] := by
          simp [dropTrailing, none, bad]
        simpa [single] using bad
    · have longer : dropTrailing unwanted (entry :: rest) =
          entry :: dropTrailing unwanted rest := by
        rw [dropTrailing]
        split
        next empty => exact absurd empty none
        next => rfl
      simp only [longer, List.getLast_cons none]
      exact ih none

/-- An unwanted last entry is dropped; any other ends what is kept. -/
theorem dropTrailing_concat (entries : List α) (last : α) :
    dropTrailing unwanted (entries ++ [last]) =
      if unwanted last then dropTrailing unwanted entries else entries ++ [last] := by
  induction entries with
  | nil => rfl
  | cons entry rest ih =>
    rw [List.cons_append, dropTrailing, ih]
    by_cases bad : unwanted last = true
    · simp only [bad, if_true, dropTrailing]
    · cases rest <;> simp [bad]

/-- Nothing is dropped where the last entry is kept. -/
theorem dropTrailing_of_last {entries : List α}
    (kept : ∀ last ∈ entries.getLast?, unwanted last = false) :
    dropTrailing unwanted entries = entries := by
  rcases List.eq_nil_or_concat entries with rfl | ⟨front, last, rfl⟩
  · rfl
  · have good : unwanted last = false := kept last (by simp)
    rw [List.concat_eq_append, dropTrailing_concat, if_neg (by simp [good])]

/-- Nothing is dropped before an entry that is kept. -/
theorem dropTrailing_append_cons {entry : α} (kept : unwanted entry = false)
    (front back : List α) :
    dropTrailing unwanted (front ++ entry :: back) =
      front ++ entry :: dropTrailing unwanted back := by
  induction front with
  | nil =>
    rw [List.nil_append, List.nil_append, dropTrailing]
    split
    next none => rw [none, if_neg (by simp [kept])]
    next => rfl
  | cons first rest ih =>
    rw [List.cons_append, List.cons_append, dropTrailing, ih]
    split
    next none => simp at none
    next => rfl

theorem dropTrailing_idem (entries : List α) :
    dropTrailing unwanted (dropTrailing unwanted entries) = dropTrailing unwanted entries := by
  induction entries with
  | nil => rfl
  | cons entry rest ih =>
    simp only [dropTrailing]
    split
    next => by_cases bad : unwanted entry = true <;> simp [bad, dropTrailing]
    next apart =>
      rw [dropTrailing, ih]
      split
      next none => exact absurd none apart
      next => rfl

end ValueScript
