import ValueScript.Proofs.Assignment
import ValueScript.Proofs.Separated

namespace ValueScript

theorem entryLines_cutRows {rows cols : Nat} {tokens : List String} (positive : 0 < cols)
    (full : tokens.length = rows * cols) :
    entryLines (cutRows cols tokens) = (cutRows cols (separated ", " tokens)).map String.join := by
  -- Row by row: the last row of all ends without a comma, a row before others ends with one.
  induction rows generalizing tokens with
  | zero =>
    have none : tokens = [] := by simpa using full
    simp [none, entryLines, separated]
  | succ rows ih =>
    rw [Nat.succ_mul] at full
    have first : (tokens.take cols).length = cols := by simp; omega
    have others : (tokens.drop cols).length = rows * cols := by simp; omega
    rw [← List.take_append_drop cols tokens, cutRows_append cols _ _ positive first]
    by_cases last : tokens.drop cols = []
    · have whole : (separated ", " (tokens.take cols)).length = cols := by simpa using first
      have alone := cutRows_append cols (separated ", " (tokens.take cols)) [] positive whole
      rw [List.append_nil, cutRows_nil] at alone
      simp [last, entryLines, alone, join_separated]
    · have wide : ((tokens.take cols).map (· ++ ", ")).length = cols := by simpa using first
      obtain ⟨next, rest, more⟩ := List.exists_cons_of_ne_nil last
      have further : cutRows cols (tokens.drop cols) ≠ [] := by
        rw [more, cutRows]
        exact List.cons_ne_nil _ _
      obtain ⟨row, later, split⟩ := List.exists_cons_of_ne_nil further
      rw [separated_append last, cutRows_append cols _ _ positive wide, List.map_cons, ← ih others,
        split, entryLines]
      exact List.cons_ne_nil _ _

theorem join_map_join (groups : List (List String)) :
    String.join (groups.map String.join) = String.join groups.flatten := by
  induction groups with
  | nil => rfl
  | cons group rest ih => simp [ih]

namespace Collection

/-- Two tokens or more stand in a block, one line for each row. -/
theorem literal_of_several {rows cols : Nat} {tokens : List String} (several : 2 ≤ tokens.length)
    (full : rows * cols = tokens.length) :
    literal cols tokens = "\x7b\n" ++
      String.join (((cutRows cols (separated ", " tokens)).map String.join).map (· ++ "\n")) ++ "\x7d" := by
  have positive : 0 < cols := Nat.pos_of_mul_pos_left (full ▸ Nat.zero_lt_of_lt several)
  match tokens with
  | [] | [_] => simp at several
  | first :: second :: rest =>
    change "\x7b\n" ++ lines (cutRows cols (first :: second :: rest)) ++ "\x7d" = _
    rw [lines_eq_join, entryLines_cutRows positive full.symm]

/-- The statement of a collection is all that emitting the collection adds to a script. -/
theorem yields_statement {name : String} {rows cols : Nat} {items : List Value} {text : String}
    (written : statement name rows cols items = .ok (.ok text)) :
    (Emit.collection name rows cols items).Yields (.ok ⟨text, []⟩) := by
  have yields := yields_collection name rows cols items
  rw [Value.own, written] at yields
  exact yields

/-- A collection of two entries or more that are of one kind and all have a token is written as a
block of one line for each row. The lines are the rows of the tokens, each token with the comma
after it, and together they are all tokens with a comma between any two. -/
theorem block_of_entries (name : String) {rows cols : Nat} {items : List Value}
    (full : rows * cols = items.length) (several : 2 ≤ items.length) (same : OneKind items)
    (accepted : ∀ item ∈ items, ∃ token, item.token name = .ok token) :
    ∃ tokens lines : List String, items.mapM (Value.token name) = .ok tokens ∧
      (Emit.collection name rows cols items).Yields (.ok
        ⟨name ++ " = \x7b\n" ++ String.join (lines.map (· ++ "\n")) ++ "\x7d;\n", []⟩) ∧
      lines.length = rows ∧
      (∀ row < rows, lines[row]? =
        some (String.join (((separated ", " tokens).drop (row * cols)).take cols))) ∧
      String.join lines = ", ".intercalate tokens := by
  obtain ⟨tokens, written⟩ : ∃ tokens, items.mapM (Value.token name) = .ok tokens := by
    rw [← failure?_eq_none_iff, failure?_mapM, List.findSome?_eq_none_iff]
    exact fun item member => failure?_eq_none_iff.mpr (accepted item member)
  have count : tokens.length = items.length := length_of_mapM written
  have filled : (separated ", " tokens).length = rows * cols := by
    rw [length_separated, count, full]
  have positive : 0 < cols := Nat.pos_of_mul_pos_left (full ▸ Nat.zero_lt_of_lt several)
  refine ⟨tokens, (cutRows cols (separated ", " tokens)).map String.join, written, ?_, ?_, ?_, ?_⟩
  · have block := literal_of_several (count ▸ several) (full.trans count.symm)
    apply yields_statement
    rw [statement_of_oneKind name full same, written, Except.map, block]
    congr 2
    apply String.toList_injective
    simp
  · rw [List.length_map, (cutRows_full positive filled).1]
  · intro row inside
    rw [cutRows_eq_map_range positive filled, List.map_map, List.getElem?_map,
      List.getElem?_range inside]
    rfl
  · rw [join_map_join, cutRows_flatten, join_separated]

/-- Two rows of two entries, one of which is text that breaks its line. -/
theorem block_of_entries_of_square :
    let items : List Value := [.ofString "a", .ofString "", .ofString "b\nc", .ofString "d"]
    2 * 2 = items.length ∧ 2 ≤ items.length ∧ OneKind items ∧
      (∀ item ∈ items, ∃ token, item.token "g" = .ok token) ∧
      ∃ tokens lines : List String, items.mapM (Value.token "g") = .ok tokens ∧
        (Emit.collection "g" 2 2 items).Yields (.ok
          ⟨"g" ++ " = \x7b\n" ++ String.join (lines.map (· ++ "\n")) ++ "\x7d;\n", []⟩) ∧
        lines.length = 2 ∧
        (∀ row < 2, lines[row]? =
          some (String.join (((separated ", " tokens).drop (row * 2)).take 2))) ∧
        String.join lines = ", ".intercalate tokens := by
  intro items
  have full : 2 * 2 = items.length := rfl
  have several : 2 ≤ items.length := by decide
  have same : OneKind items := by decide
  have accepted : ∀ item ∈ items, ∃ token, item.token "g" = .ok token := by
    intro item member
    simp only [items, List.mem_cons, List.not_mem_nil, or_false] at member
    rcases member with rfl | rfl | rfl | rfl <;> exact ⟨_, rfl⟩
  exact ⟨full, several, same, accepted, block_of_entries "g" full several same accepted⟩

end Collection

end ValueScript
