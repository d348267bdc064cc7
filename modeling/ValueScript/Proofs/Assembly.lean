import ValueScript.Proofs.Emission.Causes
import ValueScript.Proofs.Fields
import ValueScript.Proofs.RowMajor

/-! Values put together with the builders. A builder that checks accepts exactly the parts that fit
together and one that does not makes them fit, so that nothing fails for its count of cells in a
value that is put together. -/

namespace ValueScript

/-- Whether a builder makes its grid when the promised count is the stored one, and reports both
counts when it is not. -/
def ComparesCounts {α : Type} (outcome : Except Fault α) (expected actual : Nat) (made : α) : Prop :=
  (expected = actual → outcome = .ok made) ∧
    (expected ≠ actual → outcome = .error (.shapeMismatch expected actual))

theorem checkCells_compares {α : Type} (expected actual : Nat) (made : α) :
    ComparesCounts (do checkCells expected actual; return made) expected actual made := by
  unfold checkCells
  constructor <;> intro counts <;> simp [counts, bind, Except.bind, pure, Except.pure]

theorem NumericGrid.ofShape_compares (shape : Shape) (elements : Elements) :
    ComparesCounts (ofShape shape elements) shape.cells elements.length ⟨shape, elements⟩ :=
  checkCells_compares ..

theorem TextGrid.ofShape_compares (shape : Shape) (chars : List Char) :
    ComparesCounts (ofShape shape chars) shape.cells chars.length ⟨shape, chars⟩ :=
  checkCells_compares ..

theorem Value.ofItems_compares (rows cols : Nat) (items : List Value) :
    ComparesCounts (ofItems rows cols items) (rows * cols) items.length
      (.collection rows cols items) :=
  checkCells_compares ..

theorem ComparesCounts.of_ok {α : Type} {outcome : Except Fault α} {expected actual : Nat}
    {made result : α} (compares : ComparesCounts outcome expected actual made)
    (built : outcome = .ok result) : expected = actual ∧ result = made := by
  by_cases same : expected = actual
  · exact ⟨same, Except.ok.inj (built.symm.trans (compares.1 same))⟩
  · cases built.symm.trans (compares.2 same)

section Rows

variable {α : Type} (length : α → Nat)

/-- The length of the first row, or none when there is no row. -/
def firstLength (rows : List α) : Nat := (rows.head?.map length).getD 0

/-- Whether some rows are as long as the first one and the next one is not. -/
structure Breaks (rows before : List α) (other : α) : Prop where
  split : before ++ [other] <+: rows
  even : ∀ row ∈ before, length row = firstLength length rows
  uneven : length other ≠ firstLength length rows

variable {length}

theorem even_iff {rows : List α} : (∀ row ∈ rows, length row = firstLength length rows) ↔
    ∀ row ∈ rows, ∀ other ∈ rows, length row = length other := by
  constructor
  · intro even row member other member'
    exact (even row member).trans (even other member').symm
  · intro same row member
    match rows with
    | first :: rest => exact same row member first List.mem_cons_self

/-- Rows are all as long as the first one, or there is a first among them that is not. -/
theorem even_or_breaks (length : α → Nat) (rows : List α) :
    (∀ row ∈ rows, length row = firstLength length rows) ∨
      ∃ before other, Breaks length rows before other := by
  cases found : rows.find? (fun row => decide (length row ≠ firstLength length rows)) with
  | none =>
    left
    intro row member
    simpa using List.find?_eq_none.mp found row member
  | some other =>
    obtain ⟨uneven, before, after, split, even⟩ := List.find?_eq_some_iff_append.mp found
    right
    refine ⟨before, other, ⟨after, by simp [split]⟩, ?_, by simpa using uneven⟩
    intro row member
    simpa using even row member

/-- Whether a builder accepts exactly rows of one length, and reports the first row that breaks the
rule with its place and both lengths. -/
structure AcceptsEven {β : Type} (length : α → Nat) (rows : List α) (outcome : Except Fault β)
    (report : (place expected actual : Nat) → Fault) : Prop where
  accepts : (∃ made, outcome = .ok made) ↔
    ∀ row ∈ rows, ∀ other ∈ rows, length row = length other
  reports : ∀ fault, outcome = .error fault ↔ ∃ before other, Breaks length rows before other ∧
    fault = report before.length (firstLength length rows) (length other)

theorem acceptsEven_of {β : Type} {rows : List α} {outcome : Except Fault β} {made : β}
    {report : (place expected actual : Nat) → Fault}
    (even : (∀ row ∈ rows, length row = firstLength length rows) → outcome = .ok made)
    (breaks : ∀ before other, Breaks length rows before other →
      outcome = .error (report before.length (firstLength length rows) (length other))) :
    AcceptsEven length rows outcome report := by
  constructor
  · rw [← even_iff]
    constructor
    · rintro ⟨result, built⟩
      rcases even_or_breaks length rows with same | ⟨before, other, broken⟩
      · exact same
      · cases built.symm.trans (breaks before other broken)
    · exact fun same => ⟨made, even same⟩
  · intro fault
    constructor
    · intro failed
      rcases even_or_breaks length rows with same | ⟨before, other, broken⟩
      · cases failed.symm.trans (even same)
      · exact ⟨before, other, broken, Except.error.inj (failed.symm.trans (breaks _ _ broken))⟩
    · rintro ⟨before, other, broken, rfl⟩
      exact breaks before other broken

end Rows

namespace NumericGrid

theorem floatRows_of_even {rows : List (List Float)}
    (even : ∀ row ∈ rows, row.length = firstLength List.length rows) :
    floatRows rows = .ok ⟨[rows.length, firstLength List.length rows], .float rows.flatten⟩ := by
  have none : rows.find? (fun row => row.length != firstLength List.length rows) = none := by
    rw [List.find?_eq_none]
    intro row member
    simp [even row member]
  have full : Shape.cells [rows.length, firstLength List.length rows] =
      (Elements.float rows.flatten).length := by
    rw [Elements.length, length_flatten_of_full even]
    simp [Shape.cells]
  rw [firstLength] at none
  rw [floatRows, none]
  exact (ofShape_compares _ _).1 full

theorem floatRows_of_breaks {rows before : List (List Float)} {other : List Float}
    (breaks : Breaks List.length rows before other) :
    floatRows rows = .error (.shapeMismatch (firstLength List.length rows) other.length) := by
  obtain ⟨after, split⟩ := breaks.split
  have found : rows.find? (fun row => row.length != firstLength List.length rows) = some other := by
    rw [List.find?_eq_some_iff_append]
    refine ⟨by simpa using breaks.uneven, before, after, by simp [← split], ?_⟩
    intro row member
    simp [breaks.even row member]
  rw [firstLength] at found
  rw [floatRows, found]
  rfl

theorem floatRows_acceptsEven (rows : List (List Float)) :
    AcceptsEven List.length rows (floatRows rows) fun _ => .shapeMismatch :=
  acceptsEven_of floatRows_of_even fun _ _ => floatRows_of_breaks

/-- Rows that are accepted are stored one after another, each cell at its row and column. -/
theorem floatRows_eq_ok {rows : List (List Float)} {grid : NumericGrid}
    (built : floatRows rows = .ok grid) : ∃ cols cells, grid = ⟨[rows.length, cols], .float cells⟩ ∧
      cells.length = rows.length * cols ∧ ∀ place row, rows[place]? = some row →
        row.length = cols ∧ ∀ column < cols, cells[place * cols + column]? = row[column]? := by
  have even := even_iff.mpr ((floatRows_acceptsEven rows).accepts.mp ⟨grid, built⟩)
  have made := Except.ok.inj (built.symm.trans (floatRows_of_even even))
  refine ⟨_, _, made, length_flatten_of_full even, fun place row here => ?_⟩
  refine ⟨even row (List.mem_of_getElem? here), fun column inside => ?_⟩
  exact getElem?_flatten_of_full even here inside

end NumericGrid

namespace TextGrid

theorem firstRagged_of_even {expected : Nat} {rows : List String}
    (even : ∀ row ∈ rows, row.length = expected) (start : Nat) :
    firstRagged expected start rows = none := by
  induction rows generalizing start with
  | nil => rfl
  | cons row rest ih =>
    obtain ⟨first, others⟩ := List.forall_mem_cons.mp even
    rw [firstRagged, if_pos first]
    exact ih others _

theorem firstRagged_append {expected : Nat} {before : List String} {other : String}
    (even : ∀ row ∈ before, row.length = expected) (uneven : other.length ≠ expected)
    (after : List String) (start : Nat) :
    firstRagged expected start (before ++ [other] ++ after) =
      some (start + before.length, other.length) := by
  induction before generalizing start with
  | nil => simp [firstRagged, uneven]
  | cons row rest ih =>
    obtain ⟨first, others⟩ := List.forall_mem_cons.mp even
    rw [List.cons_append, List.cons_append, firstRagged, if_pos first, ih others _, List.length_cons]
    congr 2
    omega

theorem ofRows_of_even {rows : List String}
    (even : ∀ row ∈ rows, row.length = firstLength String.length rows) :
    ofRows rows = .ok ⟨[rows.length, firstLength String.length rows], rows.flatMap String.toList⟩ := by
  have none := firstRagged_of_even even 0
  rw [firstLength] at none
  rw [ofRows, none]
  rfl

theorem ofRows_of_breaks {rows before : List String} {other : String}
    (breaks : Breaks String.length rows before other) :
    ofRows rows = .error
      (.raggedRows before.length (firstLength String.length rows) other.length) := by
  obtain ⟨after, split⟩ := breaks.split
  have found := firstRagged_append breaks.even breaks.uneven after 0
  rw [split, Nat.zero_add, firstLength] at found
  rw [ofRows, found]
  rfl

theorem ofRows_acceptsEven (rows : List String) :
    AcceptsEven String.length rows (ofRows rows) .raggedRows :=
  acceptsEven_of ofRows_of_even fun _ _ => ofRows_of_breaks

theorem ofRows_eq_ok {rows : List String} {grid : TextGrid} (built : ofRows rows = .ok grid) :
    ∃ cols chars, grid = ⟨[rows.length, cols], chars⟩ ∧ chars.length = rows.length * cols ∧
      ∀ place row, rows[place]? = some row →
        row.length = cols ∧ ∀ column < cols, chars[place * cols + column]? = row.toList[column]? := by
  have even := even_iff.mpr ((ofRows_acceptsEven rows).accepts.mp ⟨grid, built⟩)
  have made := Except.ok.inj (built.symm.trans (ofRows_of_even even))
  have full : ∀ row ∈ rows.map String.toList, row.length = firstLength String.length rows := by
    intro row listed
    obtain ⟨text, member, rfl⟩ := List.mem_map.mp listed
    rw [String.length_toList, even text member]
  rw [List.flatMap_def] at made
  refine ⟨_, _, made, by rw [length_flatten_of_full full, List.length_map], fun place row here => ?_⟩
  refine ⟨even row (List.mem_of_getElem? here), fun column inside => ?_⟩
  exact getElem?_flatten_of_full full (by rw [List.getElem?_map, here]; rfl) inside

end TextGrid

namespace Value

/-- Values that are put together with the builders, where those that check have succeeded. -/
inductive Assembled : Value → Prop
  | float (number : Float) : Assembled (.ofFloat number)
  | int (number : Int64) : Assembled (.ofInt number)
  | bool (truth : Bool) : Assembled (.ofBool truth)
  | string (text : String) : Assembled (.ofString text)
  | noNumbers : Assembled (.numeric .empty)
  | numbers {shape : Shape} {elements : Elements} {grid : NumericGrid}
    (built : NumericGrid.ofShape shape elements = .ok grid) : Assembled (.numeric grid)
  | floatRow (cells : List Float) : Assembled (.numeric (.floatRow cells))
  | floatRows {rows : List (List Float)} {grid : NumericGrid}
    (built : NumericGrid.floatRows rows = .ok grid) : Assembled (.numeric grid)
  | chars {shape : Shape} {chars : List Char} {grid : TextGrid}
    (built : TextGrid.ofShape shape chars = .ok grid) : Assembled (.text grid)
  | textRows {rows : List String} {grid : TextGrid} (built : TextGrid.ofRows rows = .ok grid) :
    Assembled (.text grid)
  | items {rows cols : Nat} {items : List Value} {value : Value}
    (each : ∀ item ∈ items, Assembled item) (built : ofItems rows cols items = .ok value) :
    Assembled value
  | row {items : List Value} (each : ∀ item ∈ items, Assembled item) : Assembled (.ofRow items)
  /-- A record is made by setting one member after another. -/
  | record {members : List (String × Value)} (each : ∀ member ∈ members, Assembled member.2) :
    Assembled (.ofMembers members)
  | records {lists : List (List (String × Value))}
    (each : ∀ members ∈ lists, ∀ member ∈ members, Assembled member.2) :
    Assembled (.records (lists.map Fields.ofMembers))
  | unsupported (cls : String) : Assembled (.unsupported cls)

theorem filled_ofString (text : String) : (Value.ofString text).Filled := by
  unfold Value.ofString TextGrid.ofString
  cases text.toList with
  | nil => rfl
  | cons char rest => simp [Filled, Shape.cells]

private theorem forall_parts_ofMembers {Holds : Value → Prop} {members : List (String × Value)}
    (own : Holds (.ofMembers members))
    (inner : ∀ member ∈ members, ∀ part ∈ member.2.parts, Holds part) :
    ∀ part ∈ (ofMembers members).parts, Holds part :=
  forall_parts_record own fun field inside => inner field (Fields.mem_of_mem_ofMembers inside)

/-- Everywhere in a value that is put together the stored cells fill the sizes. -/
theorem Assembled.filled {value : Value} (assembled : value.Assembled) :
    ∀ part ∈ value.parts, part.Filled := by
  induction assembled with
  | float _ | int _ | bool _ | noNumbers => exact List.forall_mem_singleton.mpr rfl
  | string text => exact List.forall_mem_singleton.mpr (filled_ofString text)
  | @numbers shape elements grid built =>
    obtain ⟨full, rfl⟩ := (NumericGrid.ofShape_compares shape elements).of_ok built
    exact List.forall_mem_singleton.mpr full
  | floatRow cells =>
    exact List.forall_mem_singleton.mpr
      (by simp [Filled, NumericGrid.floatRow, Shape.cells, Elements.length])
  | floatRows built =>
    obtain ⟨cols, cells, rfl, count, _⟩ := NumericGrid.floatRows_eq_ok built
    exact List.forall_mem_singleton.mpr (by simp [Filled, Shape.cells, Elements.length, count])
  | @chars shape chars grid built =>
    obtain ⟨full, rfl⟩ := (TextGrid.ofShape_compares shape chars).of_ok built
    exact List.forall_mem_singleton.mpr full
  | textRows built =>
    obtain ⟨cols, chars, rfl, count, _⟩ := TextGrid.ofRows_eq_ok built
    exact List.forall_mem_singleton.mpr (by simp [Filled, Shape.cells, count])
  | @items rows cols items value each built ih =>
    obtain ⟨full, rfl⟩ := (ofItems_compares rows cols items).of_ok built
    exact forall_parts_collection full ih
  | @row items each ih => exact forall_parts_collection (Nat.one_mul _) ih
  | record each ih => exact forall_parts_ofMembers trivial ih
  | records each ih =>
    refine forall_parts_records trivial fun fields listed => ?_
    obtain ⟨members, member, rfl⟩ := List.mem_map.mp listed
    exact forall_parts_ofMembers trivial (ih members member)
  | unsupported cls => exact List.forall_mem_singleton.mpr trivial

/-- Whether nothing fails for its count of cells: neither the script of a value nor the token of
anything in it. -/
def NeverMismatched (value : Value) : Prop :=
  ∀ expected actual : Nat,
    (∀ limit name, value.script limit name ≠ .error (.shapeMismatch expected actual)) ∧
      ∀ part ∈ value.parts, ∀ name, part.token name ≠ .error (.shapeMismatch expected actual)

theorem neverMismatched_of_filled {value : Value} (filled : ∀ part ∈ value.parts, part.Filled) :
    value.NeverMismatched := by
  intro expected actual
  constructor
  · intro limit name failed
    rcases script_error_cases failed with ⟨_, _, type⟩ | ⟨_, _, rank⟩ | depth | ⟨_, part, inside, apart⟩
    · cases type
    · cases rank
    · cases depth
    · exact apart (filled part inside)
  · intro part inside name failed
    have cause : part.tokenFault? name = some (.shapeMismatch expected actual) := by
      rw [← failure?_token, failed, failure?_error]
    rcases tokenFault?_cases cause with type | ⟨_, apart⟩
    · cases type
    · exact apart (filled part inside)

/-- Nothing in a value that is put together fails for its count of cells. The builders that check
accept exactly the parts that fit together and report the counts that differ; rows of numbers are
accepted when all have one length, and each cell is then stored at its row and column. -/
theorem assembled_never_mismatched :
    (∀ value : Value, value.Assembled → value.NeverMismatched) ∧
    (∀ shape elements, ComparesCounts (NumericGrid.ofShape shape elements) shape.cells
      elements.length ⟨shape, elements⟩) ∧
    (∀ shape chars, ComparesCounts (TextGrid.ofShape shape chars) shape.cells chars.length
      ⟨shape, chars⟩) ∧
    (∀ rows cols items, ComparesCounts (ofItems rows cols items) (rows * cols) items.length
      (.collection rows cols items)) ∧
    (∀ rows : List String, AcceptsEven String.length rows (TextGrid.ofRows rows) .raggedRows) ∧
    ∀ rows : List (List Float),
      AcceptsEven List.length rows (NumericGrid.floatRows rows) (fun _ => .shapeMismatch) ∧
      ∀ grid, NumericGrid.floatRows rows = .ok grid →
        ∃ cols cells, grid = ⟨[rows.length, cols], .float cells⟩ ∧
          cells.length = rows.length * cols ∧ ∀ place row, rows[place]? = some row →
            row.length = cols ∧ ∀ column < cols, cells[place * cols + column]? = row[column]? :=
  ⟨fun _ assembled => neverMismatched_of_filled assembled.filled, NumericGrid.ofShape_compares,
    TextGrid.ofShape_compares, ofItems_compares, TextGrid.ofRows_acceptsEven,
    fun rows => ⟨NumericGrid.floatRows_acceptsEven rows, fun _ => NumericGrid.floatRows_eq_ok⟩⟩

/-- A record of a matrix, text rows, an empty text and an array of records, one of which holds a
collection whose items are a text and an array of three dimensions. -/
theorem assembled_never_mismatched_of_nested :
    let cube : Value := .numeric ⟨[1, 1, 2], .logical [true, false]⟩
    let value : Value := .ofMembers [
      ("grid", .numeric ⟨[2, 2], .float [1, 2, 3, 4]⟩), ("rows", .text ⟨[2, 1], ['a', 'b']⟩),
      ("none", .ofString ""),
      ("list", .records ([[("x", .collection 2 1 [.ofString "t", cube])], []].map Fields.ofMembers))]
    value.Assembled ∧ value.NeverMismatched := by
  intro cube value
  have cubeBuilt : cube.Assembled := .numbers
    (show NumericGrid.ofShape [1, 1, 2] (.logical [true, false]) = .ok _ from rfl)
  have gridBuilt := Assembled.floatRows
    (show NumericGrid.floatRows [[1, 2], [3, 4]] = .ok ⟨[2, 2], .float [1, 2, 3, 4]⟩ from rfl)
  have rowsBuilt := Assembled.textRows
    (show TextGrid.ofRows ["a", "b"] = .ok ⟨[2, 1], ['a', 'b']⟩ by decide)
  have itemsBuilt : (Value.collection 2 1 [.ofString "t", cube]).Assembled :=
    .items (List.forall_mem_cons.mpr ⟨.string "t", List.forall_mem_singleton.mpr cubeBuilt⟩)
      (show ofItems 2 1 [.ofString "t", cube] = .ok _ from rfl)
  have listBuilt : (Value.records ([[("x", .collection 2 1 [.ofString "t", cube])], []].map
      Fields.ofMembers)).Assembled := by
    refine .records (List.forall_mem_cons.mpr ⟨List.forall_mem_singleton.mpr itemsBuilt, ?_⟩)
    exact List.forall_mem_singleton.mpr (List.forall_mem_nil _)
  have assembled : value.Assembled := by
    refine .record (List.forall_mem_cons.mpr ⟨gridBuilt, List.forall_mem_cons.mpr ⟨rowsBuilt, ?_⟩⟩)
    exact List.forall_mem_cons.mpr ⟨.string "", List.forall_mem_singleton.mpr listBuilt⟩
  exact ⟨assembled, assembled_never_mismatched.1 value assembled⟩

end Value

end ValueScript
