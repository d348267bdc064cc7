import Mathlib.Data.List.Basic

namespace ValueScript

/-- The pieces of a text between the marks in it. -/
def piecesAt (mark : Char) (text : String) : List String :=
  (text.toList.splitOn mark).map String.ofList

/-- Pieces with a separator after each but the last. -/
def separated (gap : String) (pieces : List String) : List String :=
  pieces.mapIdx fun place piece => if place + 1 = pieces.length then piece else piece ++ gap

section Separated

variable {gap : String}

@[simp] theorem length_separated (pieces : List String) :
    (separated gap pieces).length = pieces.length := List.length_mapIdx

theorem separated_singleton (piece : String) : separated gap [piece] = [piece] := rfl

theorem separated_cons_cons (piece next : String) (rest : List String) :
    separated gap (piece :: next :: rest) = (piece ++ gap) :: separated gap (next :: rest) := by
  simp [separated, List.mapIdx_cons]

theorem separated_append {later : List String} (nonempty : later ≠ []) (earlier : List String) :
    separated gap (earlier ++ later) = earlier.map (· ++ gap) ++ separated gap later := by
  induction earlier with
  | nil => rfl
  | cons piece rest ih =>
    obtain ⟨next, more, split⟩ := List.exists_cons_of_ne_nil
      (List.append_ne_nil_of_right_ne_nil rest nonempty)
    rw [List.cons_append, split, separated_cons_cons, ← split, ih]
    rfl

/-- Pieces with their separators make up the text that has a separator between any two. -/
theorem join_separated (pieces : List String) :
    String.join (separated gap pieces) = gap.intercalate pieces := by
  match pieces with
  | [] => simp [separated]
  | [piece] => simp [separated_singleton]
  | piece :: next :: rest =>
    rw [separated_cons_cons, String.join_cons, join_separated (next :: rest),
      String.intercalate_cons_cons]

end Separated

theorem join_led (gap first : String) (rest : List String) :
    String.join (first :: rest.map (gap ++ ·)) = gap.intercalate (first :: rest) := by
  induction rest generalizing first with
  | nil => simp
  | cons next rest ih =>
    rw [List.map_cons, String.join_cons, String.join_cons, String.append_assoc, ← String.join_cons, ih,
      String.intercalate_cons_cons, String.append_assoc]

section Pieces

variable {mark : Char} {pieces : List String}

theorem splitOn_closed (clean : ∀ piece ∈ pieces, mark ∉ piece.toList) :
    (String.join (pieces.map (· ++ String.singleton mark))).toList.splitOn mark =
      pieces.map String.toList ++ [[]] := by
  induction pieces with
  | nil => rfl
  | cons piece rest ih =>
    obtain ⟨first, later⟩ := List.forall_mem_cons.mp clean
    have written : (String.join ((piece :: rest).map (· ++ String.singleton mark))).toList =
        piece.toList ++ mark :: (String.join (rest.map (· ++ String.singleton mark))).toList := by
      simp
    rw [written, List.splitOn_append_cons_self_of_not_mem first, ih later]
    rfl

end Pieces

end ValueScript
