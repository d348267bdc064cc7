import ValueScript.Proofs.Machine.Grid
import ValueScript.Proofs.Statement.Block

namespace ValueScript

namespace Machine

/-- The row and the column of a place, counted from one. -/
def rowAndCol (cols index : Nat) : Run (Nat × Nat) := do
  let row ← add (← divide index cols) 1
  let col ← add (← remainder index cols) 1
  return (row, col)

theorem rowAndCol_of_lt {cols index : Nat} (positive : 0 < cols) (small : index + 1 < wordBound) :
    rowAndCol cols index = .ok (index / cols + 1, index % cols + 1) := by
  have row : index / cols + 1 < wordBound :=
    Nat.lt_of_le_of_lt (Nat.succ_le_succ (Nat.div_le_self index cols)) small
  have col : index % cols + 1 < wordBound :=
    Nat.lt_of_le_of_lt (Nat.succ_le_succ (Nat.mod_le index cols)) small
  rw [rowAndCol, divide_of_pos positive, remainder_of_pos positive]
  dsimp only [bind, Except.bind, add]
  rw [word_of_lt row, word_of_lt col]
  rfl

/-- The notice that entries give when they are not all of one kind. -/
def notice? (name : String) (cols : Nat) (items : List Value) : Run (Option Warning) := do
  let first ← get items 0
  match Collection.firstOther first.kind 0 items with
  | none => return none
  | some (index, found) =>
    let (row, col) ← rowAndCol cols index
    return some ⟨name, first.kind, found, row, col⟩

theorem notice?_eq (name : String) {cols : Nat} {items : List Value} (positive : 0 < cols)
    (nonempty : items ≠ []) (small : items.length < wordBound) :
    notice? name cols items = .ok (Collection.notice? name cols items) := by
  obtain ⟨first, rest, rfl⟩ := List.exists_cons_of_ne_nil nonempty
  have start : get (first :: rest) 0 = .ok first := rfl
  rw [Collection.notice?_cons, notice?, start]
  dsimp only [bind, Except.bind]
  cases other : Collection.firstOther first.kind 0 (first :: rest) with
  | none => rfl
  | some place =>
    have inside := Collection.firstOther_lt other
    have next : place.1 + 1 < wordBound := by omega
    dsimp only
    rw [rowAndCol_of_lt positive next]
    rfl

/-- A token of a block at its place, with a comma unless the place is the last one. -/
def separated (last here : Nat) (token : String) : String :=
  if here = last then token else token ++ ", "

/-- A row of a block. -/
def blockLine (cols last : Nat) (row : List String × Nat) : Run String := do
  let cells ← row.1.zipIdx.mapM fun entry =>
    return separated last (← place cols row.2 entry.2) entry.1
  return String.join cells ++ "\n"

/-- The rows of a block, counted up to the last place. -/
def block (cols : Nat) (tokens : List String) : Run String := do
  let last ← subtract tokens.length 1
  let rows ← chunks cols tokens
  return String.join (← rows.zipIdx.mapM (blockLine cols last))

/-- The tokens of a row with their commas, their places counted on from the rows before it. -/
private def counted (cols last : Nat) (row : List String × Nat) : List String :=
  row.1.zipIdx.map fun entry => separated last (row.2 * cols + entry.2) entry.1

private theorem map_counted {rows cols : Nat} {tokens : List String} (positive : 0 < cols)
    (full : tokens.length = rows * cols) :
    (cutRows cols tokens).zipIdx.map (counted cols (tokens.length - 1)) =
      cutRows cols (ValueScript.separated ", " tokens) := by
  have filled : (ValueScript.separated ", " tokens).length = rows * cols := by simpa using full
  rw [cutRows_eq_map_range positive full, cutRows_eq_map_range positive filled]
  refine List.ext_getElem (by simp) fun row inside _ => ?_
  refine List.ext_getElem (by simp [counted]) fun col within _ => ?_
  simp only [counted, List.length_map, List.length_zipIdx, List.length_range, List.getElem_map,
    List.getElem_zipIdx, List.length_take, List.length_drop, List.getElem_range] at inside within
  have last : row * cols + col = tokens.length - 1 ↔ row * cols + col + 1 = tokens.length := by omega
  simp [counted, separated, ValueScript.separated, last]

private theorem blockLine_eq {cols last rows : Nat} {row : List String × Nat}
    (small : rows * cols < wordBound) (inRow : row.2 < rows) (wide : row.1.length = cols) :
    blockLine cols last row = .ok (String.join (counted cols last row) ++ "\n") := by
  have cells : (row.1.zipIdx.mapM fun entry =>
      return separated last (← place cols row.2 entry.2) entry.1 : Run (List String)) =
      .ok (counted cols last row) := by
    refine mapM_of_forall fun entry member => ?_
    have inCol : entry.2 < cols := wide ▸ List.snd_lt_of_mem_zipIdx member
    rw [place_of_lt small inRow inCol]
    rfl
  rw [blockLine, cells]
  rfl

theorem block_eq {rows cols : Nat} {tokens : List String} (nonempty : tokens ≠ [])
    (full : rows * cols = tokens.length) (small : rows * cols < wordBound) :
    block cols tokens = .ok (Collection.lines (cutRows cols tokens)) := by
  have some : 0 < tokens.length := List.length_pos_iff.mpr nonempty
  have positive : 0 < cols := Nat.pos_of_mul_pos_left (full ▸ some)
  obtain ⟨count, wide⟩ := cutRows_full positive full.symm
  have lines : (cutRows cols tokens).zipIdx.mapM (blockLine cols (tokens.length - 1)) =
      .ok ((cutRows cols tokens).zipIdx.map fun row =>
        String.join (counted cols (tokens.length - 1) row) ++ "\n") :=
    mapM_of_forall fun row member => blockLine_eq small (count ▸ List.snd_lt_of_mem_zipIdx member)
      (wide row.1 (List.fst_mem_of_mem_zipIdx member))
  rw [block, subtract_of_le some]
  dsimp only [bind, Except.bind]
  rw [chunks_of_pos positive]
  dsimp only
  rw [lines, Collection.lines_eq_join, entryLines_cutRows positive full.symm,
    ← map_counted positive full.symm, List.map_map, List.map_map]
  rfl

/-- Without columns or without tokens a block could not be written. -/
example : block 0 ["1"] = .error .noWidth ∧ block 1 [] = .error .wordUnderflow := ⟨rfl, rfl⟩

/-- The right-hand side for entries with these tokens, of which there is at least one. -/
def collectionLiteral (cols : Nat) (tokens : List String) : Run String := do
  if tokens.length = 1 then return "\x7b " ++ (← get tokens 0) ++ " \x7d"
  else return "\x7b\n" ++ (← block cols tokens) ++ "\x7d"

theorem collectionLiteral_eq {rows cols : Nat} {tokens : List String} (nonempty : tokens ≠ [])
    (full : rows * cols = tokens.length) (small : rows * cols < wordBound) :
    collectionLiteral cols tokens = .ok (Collection.literal cols tokens) := by
  match tokens with
  | [] => exact absurd rfl nonempty
  | [token] => rfl
  | first :: second :: rest =>
    have several : ¬(first :: second :: rest).length = 1 := by simp
    rw [collectionLiteral, if_neg several, block_eq nonempty full small]
    rfl

/-- The statement that assigns a collection, or the notice that takes its place. -/
def collectionStatement (name : String) (rows cols : Nat) (items : List Value) :
    Attempt (Except Warning String) := do
  let expected ← multiply rows cols
  checkCells expected items.length
  if Collection.isEmpty rows cols then return .ok (name ++ " = \x7b\x7d;\n")
  else
    match ← notice? name cols items with
    | some warning => return .error warning
    | none =>
      let tokens ← items.mapM (token name)
      let literal ← collectionLiteral cols tokens
      return .ok (name ++ " = " ++ literal ++ ";\n")

theorem collectionStatement_settlesIf (name : String) (rows cols : Nat) (items : List Value) :
    (collectionStatement name rows cols items).SettlesIf
      (rows * cols < wordBound ∧ ∀ item ∈ items, item.Fits)
      (Collection.statement name rows cols items) := by
  rw [Collection.statement_eq]
  by_cases small : rows * cols < wordBound
  case neg =>
    have panics : (liftM (multiply rows cols) : Attempt Nat).run = .error .wordOverflow :=
      congrArg liftM (if_neg small)
    exact Attempt.settlesIf_panic (fun both => small both.1) panics _
  refine Attempt.settlesIf_run (word_of_lt small) ?_
  refine (Attempt.settles_outcome _).settlesIf.bind fun _ filled => ?_
  have full := eq_of_checkCells filled
  have empty : Collection.isEmpty rows cols = true ↔ rows * cols = 0 := by
    rw [Collection.isEmpty, Bool.or_eq_true, beq_iff_eq, beq_iff_eq, Nat.mul_eq_zero]
  by_cases none : rows * cols = 0
  · have nothing : items = [] := List.length_eq_zero_iff.mp (full.symm.trans none)
    have braces : " = \x7b\x7d;\n" = " = " ++ "\x7b\x7d" ++ ";\n" := rfl
    rw [if_pos (empty.mpr none), nothing, braces]
    simp only [← String.append_assoc]
    exact (Attempt.settles_pure _).settlesIf
  · have positive : 0 < cols := Nat.pos_of_mul_pos_left (Nat.pos_of_ne_zero none)
    have some : items ≠ [] := fun nothing => none (by rw [full, nothing, List.length_nil])
    rw [if_neg (empty.not.mpr none)]
    refine Attempt.settlesIf_run (notice?_eq name positive some (full ▸ small)) ?_
    cases Collection.notice? name cols items with
    | some warning => exact (Attempt.settles_pure _).settlesIf
    | none =>
      refine (Attempt.settlesIf_mapM fun item member =>
        (token_settlesIf name item).of_imp fun both => both.2 item member).bind fun tokens written => ?_
      have count := length_of_mapM written
      have tokenized : tokens ≠ [] :=
        List.length_pos_iff.mp (count ▸ List.length_pos_iff.mpr some)
      exact Attempt.settlesIf_run (collectionLiteral_eq tokenized (full.trans count.symm) small)
        (Attempt.settles_pure _).settlesIf

end Machine

end ValueScript
