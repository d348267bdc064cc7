/-! Texts cut at their first delimiter. A piece that holds no delimiter, followed by a delimiter or
by nothing, can be told from what follows it. -/

namespace ValueScript

universe u
variable {α : Type u} {keep : α → Bool} {front back : List α}

/-- A list starts with an entry that is not kept, or is empty. -/
def Stops (keep : α → Bool) (entries : List α) : Prop :=
  ∀ entry ∈ entries.head?, keep entry = false

theorem Stops.nil : Stops keep [] := by simp [Stops]

theorem Stops.cons {entry : α} (stop : keep entry = false) (rest : List α) :
    Stops keep (entry :: rest) := by simpa [Stops] using stop

theorem Stops.append (first : Stops keep front) (second : Stops keep back) :
    Stops keep (front ++ back) := by
  cases front with
  | nil => exact second
  | cons entry rest => simpa [Stops] using first

theorem takeWhile_delimited (inside : ∀ entry ∈ front, keep entry = true) (stop : Stops keep back) :
    (front ++ back).takeWhile keep = front := by
  rw [List.takeWhile_append_of_pos inside]
  cases back with
  | nil => simp
  | cons entry rest => simp [stop entry rfl]

theorem dropWhile_delimited (inside : ∀ entry ∈ front, keep entry = true) (stop : Stops keep back) :
    (front ++ back).dropWhile keep = back := by
  rw [List.dropWhile_append_of_pos inside]
  cases back with
  | nil => rfl
  | cons entry rest => simp [stop entry rfl]

/-- Two texts that are equal up to what follows their first pieces have the same first piece. -/
theorem front_eq_of_delimited {front' back' : List α} (same : front ++ back = front' ++ back')
    (inside : ∀ entry ∈ front, keep entry = true) (inside' : ∀ entry ∈ front', keep entry = true)
    (stop : Stops keep back) (stop' : Stops keep back') : front = front' := by
  have taken := congrArg (List.takeWhile keep) same
  rwa [takeWhile_delimited inside stop, takeWhile_delimited inside' stop'] at taken

end ValueScript
