import ValueScript.Proofs.Assembly
import ValueScript.Proofs.Statement.Outcome

/-! Text grids as rows. Rows of one length are put together and taken apart again without loss, and
a grid that its characters fill is the rows it is taken apart into, one line each in its
statement. -/

namespace ValueScript

theorem breaks_iff_place {α : Type} {length : α → Nat} {rows : List α} {place : Nat} {other : α} :
    (∃ before, before.length = place ∧ Breaks length rows before other) ↔
      rows[place]? = some other ∧ length other ≠ firstLength length rows ∧
        ∀ earlier < place, ∀ row, rows[earlier]? = some row → length row = firstLength length rows := by
  constructor
  · rintro ⟨before, rfl, ⟨after, split⟩, even, uneven⟩
    refine ⟨by simp [← split], uneven, fun earlier less row here => even row ?_⟩
    rw [← split, List.append_assoc, List.getElem?_append_left less] at here
    exact List.mem_of_getElem? here
  · rintro ⟨here, uneven, earlier⟩
    have inside : place < rows.length := List.getElem?_eq_some_iff.mp here |>.1
    refine ⟨rows.take place, List.length_take_of_le (Nat.le_of_lt inside), ?_, ?_, uneven⟩
    · rw [← Option.toList_some, ← here, ← List.take_add_one]
      exact List.take_prefix _ _
    · intro row member
      obtain ⟨position, found⟩ := List.getElem?_of_mem member
      rw [List.getElem?_take] at found
      split at found
      next less => exact earlier position less row found
      next => cases found

namespace TextGrid

/-- Whether a row is the first one that is not as long as the first of all. -/
def FirstRagged (rows : List String) (place : Nat) (row : String) : Prop :=
  rows[place]? = some row ∧ row.length ≠ firstLength String.length rows ∧
    ∀ earlier < place, ∀ other, rows[earlier]? = some other →
      other.length = firstLength String.length rows

theorem ofRows_eq_error_iff {rows : List String} {fault : Fault} :
    ofRows rows = .error fault ↔ ∃ place row, FirstRagged rows place row ∧
      fault = .raggedRows place (firstLength String.length rows) row.length := by
  rw [(ofRows_acceptsEven rows).reports fault]
  constructor
  · rintro ⟨before, row, breaks, report⟩
    exact ⟨_, row, breaks_iff_place.mp ⟨before, rfl, breaks⟩, report⟩
  · rintro ⟨place, row, first, report⟩
    obtain ⟨before, rfl, breaks⟩ := breaks_iff_place.mpr first
    exact ⟨before, row, breaks, report⟩

theorem rows_of_ofRows {rows : List String} {grid : TextGrid} (built : ofRows rows = .ok grid) :
    grid.rows = rows := by
  have even := even_iff.mpr ((ofRows_acceptsEven rows).accepts.mp ⟨grid, built⟩)
  cases built.symm.trans (ofRows_of_even even)
  generalize firstLength String.length rows = width at even
  have extent : Shape.extent [rows.length, width] = ⟨rows.length, width, []⟩ := rfl
  rw [TextGrid.rows, extent]
  by_cases narrow : width = 0
  · have blank : ∀ row ∈ rows, row = "" := by
      intro row member
      rw [← String.toList_eq_nil_iff, ← List.length_eq_zero_iff, String.length_toList,
        even row member, narrow]
    exact (if_pos narrow).trans (List.eq_replicate_iff.mpr ⟨rfl, blank⟩).symm
  · have full : ∀ row ∈ rows.map String.toList, row.length = width := by
      intro row listed
      obtain ⟨text, member, rfl⟩ := List.mem_map.mp listed
      rw [String.length_toList, even text member]
    refine (if_neg narrow).trans ?_
    dsimp only
    rw [List.flatMap_def, cutRows_of_full (Nat.pos_of_ne_zero narrow) full, List.map_map]
    simp [Function.comp_def]

section Filled

variable {grid : TextGrid}

/-- A grid that its characters fill is taken apart into as many rows as its layout has, all of full
width, and loses no character. -/
theorem rows_of_filled (flat : grid.shape.extent.higher = [])
    (full : grid.shape.cells = grid.chars.length) :
    grid.rows.length = grid.shape.extent.rows ∧
      (∀ row ∈ grid.rows, row.length = grid.shape.extent.cols) ∧
      String.join grid.rows = String.ofList grid.chars := by
  rw [Shape.cells_of_flat flat] at full
  rw [TextGrid.rows]
  by_cases narrow : grid.shape.extent.cols = 0
  · have none : grid.chars = [] := by
      rw [narrow, Nat.mul_zero] at full
      exact List.length_eq_zero_iff.mp full.symm
    rw [if_pos narrow, none, narrow]
    refine ⟨List.length_replicate, ?_, ?_⟩
    · intro row member
      rw [List.eq_of_mem_replicate member]
      rfl
    · apply String.toList_injective
      simp [String.toList_join, List.flatMap_replicate]
  · obtain ⟨count, wide⟩ := cutRows_full (Nat.pos_of_ne_zero narrow) full.symm
    rw [if_neg narrow]
    refine ⟨by rw [List.length_map, count], ?_, ?_⟩
    · intro row member
      obtain ⟨cells, listed, rfl⟩ := List.mem_map.mp member
      rw [String.length_ofList, wide cells listed]
    · apply String.toList_injective
      have flatten := cutRows_flatten grid.shape.extent.cols grid.chars
      simpa [String.toList_join, List.flatMap_map, List.flatMap_def] using flatten

/-- A grid of several rows and some columns that its characters fill is written with one line for
each row. -/
theorem statement_of_rows (name : String) (flat : grid.shape.extent.higher = [])
    (full : grid.shape.cells = grid.chars.length) (several : 2 ≤ grid.shape.extent.rows)
    (wide : 1 ≤ grid.shape.extent.cols) :
    grid.statement name = .ok (name ++ " = \n" ++ String.join (grid.rows.map line)) := by
  have sound : gridFault? name grid.shape grid.chars.length = none :=
    gridFault?_eq_none_iff.mpr ⟨flat, full⟩
  have filled : ¬grid.shape.extent.isEmpty = true := by
    simp only [Extent.isEmpty, Bool.or_eq_true, beq_iff_eq]
    omega
  have header : " = \n" = " = " ++ "\n" := rfl
  rw [grid.statement_eq, sound, body, if_neg filled, if_neg (by omega), header]
  simp only [String.append_assoc]

end Filled

/-- Rows are put together exactly when they all have one length, are taken apart again as they were,
and fail otherwise for the first row that differs from the first of all. Conversely a grid of two
dimensions that its characters fill is taken apart into as many rows as it has, all as wide as it
is, which together are its characters; several rows with columns are written one line each. -/
theorem rows_undo_ofRows :
    (∀ rows : List String,
      ((∃ grid, ofRows rows = .ok grid) ↔ ∀ row ∈ rows, ∀ other ∈ rows, row.length = other.length) ∧
      (∀ grid, ofRows rows = .ok grid → grid.rows = rows) ∧
      ∀ fault, ofRows rows = .error fault ↔ ∃ place row, FirstRagged rows place row ∧
        fault = .raggedRows place (firstLength String.length rows) row.length) ∧
    ∀ grid : TextGrid, grid.rank = 2 → grid.shape.cells = grid.chars.length →
      grid.rows.length = grid.shape.extent.rows ∧
      (∀ row ∈ grid.rows, row.length = grid.shape.extent.cols) ∧
      String.join grid.rows = String.ofList grid.chars ∧
      (2 ≤ grid.shape.extent.rows → 1 ≤ grid.shape.extent.cols → ∀ name,
        (Emit.text name grid).Yields (.ok
          ⟨name ++ " = \n" ++ String.join (grid.rows.map fun row => "  '" ++ row ++ "'\n"), []⟩)) := by
  constructor
  · exact fun rows => ⟨(ofRows_acceptsEven rows).accepts, fun _ => rows_of_ofRows,
      fun _ => ofRows_eq_error_iff⟩
  · intro grid rank full
    have flat := grid.shape.extent.rank_le_two_iff.mp (Nat.le_of_eq rank)
    obtain ⟨count, width, together⟩ := rows_of_filled flat full
    refine ⟨count, width, together, fun several wide name => ?_⟩
    have yields := yields_text name grid
    rw [Value.own, statement_of_rows name flat full several wide] at yields
    exact yields

/-- Rows of letters that take two bytes each, rows of which the third is the first to differ, and a
grid with an idle dimension. -/
theorem rows_undo_ofRows_of_letters :
    let grid : TextGrid := ⟨[2, 3, 1], ['a', 'b', 'ö', 'd', 'e', 'f']⟩
    ofRows ["åé", "üö"] = .ok ⟨[2, 2], ['å', 'é', 'ü', 'ö']⟩ ∧
      TextGrid.rows ⟨[2, 2], ['å', 'é', 'ü', 'ö']⟩ = ["åé", "üö"] ∧
      ofRows ["ab", "cd", "", "e"] = .error (.raggedRows 2 2 0) ∧
      grid.rank = 2 ∧ grid.shape.cells = grid.chars.length ∧ grid.rows.length = 2 ∧
      (Emit.text "t" grid).Yields (.ok
        ⟨"t" ++ " = \n" ++ String.join (grid.rows.map fun row => "  '" ++ row ++ "'\n"), []⟩) := by
  intro grid
  have built : ofRows ["åé", "üö"] = .ok ⟨[2, 2], ['å', 'é', 'ü', 'ö']⟩ := by decide
  have third : FirstRagged ["ab", "cd", "", "e"] 2 "" := by
    refine ⟨rfl, by decide, fun earlier less other here => ?_⟩
    match earlier with
    | 0 => cases here; rfl
    | 1 => cases here; rfl
  have rank : grid.rank = 2 := rfl
  have full : grid.shape.cells = grid.chars.length := rfl
  obtain ⟨count, _, _, lines⟩ := rows_undo_ofRows.2 grid rank full
  exact ⟨built, (rows_undo_ofRows.1 _).2.1 _ built,
    ((rows_undo_ofRows.1 _).2.2 _).mpr ⟨2, "", third, rfl⟩, rank, full, count,
    lines (by decide) (by decide) "t"⟩

end TextGrid

end ValueScript
