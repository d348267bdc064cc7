import ValueScript.Proofs.Json.Nest

/-! Which lists of a document become number grids, lists of records, collections of several rows and
collections of one, and where in them the items are found again. -/

namespace ValueScript

/-- Whether a cell of a grid stands for a leaf. -/
def Elements.Stores (place : Nat) (leaf : Json) : Elements → Prop
  | .logical cells => ∃ truth, leaf = .bool truth ∧ cells[place]? = some truth
  | .int cells => ∃ number word, leaf = .number number ∧ number.toInt64? = some word ∧
      cells[place]? = some word
  | .float cells => ∃ number, leaf = .number number ∧ cells[place]? = some number.toFloat

namespace Json

/-- Numbers that are words. -/
def IsWord (document : Json) : Prop :=
  ∃ number word, document = .number number ∧ number.toInt64? = some word

theorem getElem?_of_forall₂ {α β : Type} {Relates : α → β → Prop} {left : List α} {right : List β}
    (relates : List.Forall₂ Relates left right) {place : Nat} {entry : α}
    (here : left[place]? = some entry) : ∃ other, right[place]? = some other ∧ Relates entry other := by
  induction relates generalizing place with
  | nil => cases here
  | cons first _ ih =>
    cases place with
    | zero =>
      cases here
      exact ⟨_, rfl, first⟩
    | succ place => exact ih here

theorem Holds.stores {leaves : List Json} {elements : Elements} (holds : Holds leaves elements)
    {place : Nat} {leaf : Json} (here : leaves[place]? = some leaf) : elements.Stores place leaf := by
  cases elements with
  | logical truths =>
    obtain ⟨truth, there, same⟩ := getElem?_of_forall₂ holds here
    exact ⟨truth, same, there⟩
  | int words =>
    obtain ⟨word, there, number, same, fits⟩ := getElem?_of_forall₂ holds here
    exact ⟨number, word, same, fits, there⟩
  | float cells =>
    obtain ⟨_, there, number, same, rfl⟩ := getElem?_of_forall₂ holds.1 here
    exact ⟨number, same, there⟩

theorem forall_left_of_forall₂ {α β : Type} {Relates : α → β → Prop} {Has : α → Prop} {left : List α}
    {right : List β} (relates : List.Forall₂ Relates left right)
    (each : ∀ entry other, Relates entry other → Has entry) : ∀ entry ∈ left, Has entry := by
  induction relates with
  | nil => exact List.forall_mem_nil _
  | cons first _ ih => exact List.forall_mem_cons.mpr ⟨each _ _ first, ih⟩

theorem Holds.forall_leaves {leaves : List Json} {elements : Elements} (holds : Holds leaves elements) :
    ∀ leaf ∈ leaves, match elements.kind with
      | .logical => IsBool leaf
      | .int => IsWord leaf
      | _ => IsNumber leaf := by
  cases elements with
  | logical truths => exact forall_left_of_forall₂ holds fun _ truth same => ⟨truth, same⟩
  | int words =>
    exact forall_left_of_forall₂ holds fun _ word ⟨value, same, fits⟩ => ⟨value, word, same, fits⟩
  | float cells => exact forall_left_of_forall₂ holds.1 fun _ _ ⟨value, same, _⟩ => ⟨value, same⟩

theorem elements?_of_uniform {leaves : List Json}
    (uniform : (∀ leaf ∈ leaves, IsNumber leaf) ∨ ∀ leaf ∈ leaves, IsBool leaf) :
    ∃ elements, elements? leaves = some elements := by
  match leaves with
  | [] => exact ⟨_, rfl⟩
  | leaf :: rest =>
    rw [elements?]
    · split
      · exact ⟨_, rfl⟩
      · split <;> exact ⟨_, rfl⟩
      · rename_i noTruths noNumbers
        obtain ⟨other, member, apart⟩ := exists_none_of_mapM noTruths
        obtain ⟨other', member', apart'⟩ := exists_none_of_mapM noNumbers
        rcases uniform with numbers | truths
        · obtain ⟨number, rfl⟩ := numbers other' member'
          cases apart'
        · obtain ⟨truth, rfl⟩ := truths other member
          cases apart
    · exact List.cons_ne_nil _ _

/-- The type of the cells of a nest: truth values, words when all leaves are words, and else
doubles, also when there is no leaf. -/
inductive CellKind (levels : Shape) (document : Json) : Kind → Prop
  | none (hollow : levels.cells = 0) : CellKind levels document .float
  | logical (some : levels.cells ≠ 0) (nest : Nest IsBool levels document) :
    CellKind levels document .logical
  | int (some : levels.cells ≠ 0) (nest : Nest IsWord levels document) : CellKind levels document .int
  | float (some : levels.cells ≠ 0) (nest : Nest IsNumber levels document)
    (wide : ¬Nest IsWord levels document) : CellKind levels document .float

theorem isScalar_of_isNumber (leaf : Json) (number : IsNumber leaf) : IsScalar leaf := .inl number

theorem isScalar_of_isBool (leaf : Json) (truth : IsBool leaf) : IsScalar leaf := .inr truth

theorem isScalar_of_isWord (leaf : Json) : IsWord leaf → IsScalar leaf
  | ⟨value, _, same, _⟩ => .inl ⟨value, same⟩

theorem cellKind_of_elements? {levels : Shape} {document : Json} {elements : Elements}
    (nest : Nest IsScalar levels document) (found : elements? (leaves document) = some elements) :
    CellKind levels document elements.kind := by
  by_cases hollow : levels.cells = 0
  · have empty := List.length_eq_zero_iff.mp (nest.length_leaves.trans hollow)
    rw [empty] at found
    cases found
    exact .none hollow
  · have holds := holds_of_elements? found
    have sort := holds.forall_leaves
    cases elements with
    | logical truths => exact .logical hollow ((nest_iff isScalar_of_isBool).mpr ⟨nest, sort⟩)
    | int words => exact .int hollow ((nest_iff isScalar_of_isWord).mpr ⟨nest, sort⟩)
    | float cells =>
      refine .float hollow ((nest_iff isScalar_of_isNumber).mpr ⟨nest, sort⟩) fun words => ?_
      rcases holds.2 with empty | ⟨number, member, wide⟩
      · rw [← nest.length_leaves, empty] at hollow
        exact hollow rfl
      · obtain ⟨_, word, same, fits⟩ := ((nest_iff isScalar_of_isWord).mp words).2 _ member
        cases same
        cases fits.symm.trans wide

/-- The shape of the grid that a nest makes: a flat list is one row. -/
def gridShape : Shape → Shape
  | [length] => [1, length]
  | levels => levels

theorem grid?_of_nest {items : List Json} {levels : Shape} {elements : Elements}
    (nest : Nest IsScalar levels (.array items))
    (found : elements? (leaves (.array items)) = some elements) :
    grid? items = some ⟨gridShape levels, elements⟩ := by
  rw [leaves] at found
  unfold grid?
  simp only [levels?_eq_some_iff.mpr nest, found, Option.bind_eq_bind, Option.bind_some]
  rcases levels with _ | ⟨_, _ | _⟩ <;> rfl

/-- The grid that a list makes, if it makes one, is that of a nest. -/
theorem nest_of_grid? {items : List Json} {grid : NumericGrid} (found : grid? items = some grid) :
    ∃ levels, Nest IsScalar levels (.array items) ∧
      elements? (leaves (.array items)) = some grid.elements := by
  obtain ⟨levels, nest, rest⟩ := Option.bind_eq_some_iff.mp found
  obtain ⟨elements, cells, shaped⟩ := Option.bind_eq_some_iff.mp rest
  refine ⟨levels, levels?_eq_some_iff.mp nest, ?_⟩
  rw [leaves, cells]
  split at shaped <;> cases shaped <;> rfl

/-- Nests of numbers and nests of truth values. -/
def IsGrid (levels : Shape) (document : Json) : Prop :=
  Nest IsNumber levels document ∨ Nest IsBool levels document

theorem IsGrid.nest {levels : Shape} {document : Json} (grid : IsGrid levels document) :
    Nest IsScalar levels document := by
  rcases grid with numbers | truths
  · exact numbers.imp isScalar_of_isNumber
  · exact truths.imp isScalar_of_isBool

theorem IsGrid.exists_elements {levels : Shape} {document : Json} (grid : IsGrid levels document) :
    ∃ elements, elements? (leaves document) = some elements := by
  apply elements?_of_uniform
  exact grid.imp (fun numbers => ((nest_iff isScalar_of_isNumber).mp numbers).2)
    fun truths => ((nest_iff isScalar_of_isBool).mp truths).2

theorem isNumber_of_isWord (leaf : Json) : IsWord leaf → IsNumber leaf
  | ⟨value, _, same, _⟩ => ⟨value, same⟩

theorem CellKind.isGrid {levels : Shape} {document : Json} {kind : Kind}
    (cells : CellKind levels document kind) (nest : Nest IsScalar levels document) :
    IsGrid levels document := by
  cases cells with
  | none hollow =>
    have empty := List.length_eq_zero_iff.mp (nest.length_leaves.trans hollow)
    exact .inl ((nest_iff isScalar_of_isNumber).mpr ⟨nest, empty ▸ List.forall_mem_nil _⟩)
  | logical _ truths => exact .inr truths
  | int _ words => exact .inl (words.imp isNumber_of_isWord)
  | float _ numbers _ => exact .inl numbers

/-- A list makes a grid exactly when it is a nest of numbers or of truth values. -/
theorem exists_grid?_iff {items : List Json} :
    (∃ grid, grid? items = some grid) ↔ ∃ levels, IsGrid levels (.array items) := by
  constructor
  · rintro ⟨grid, found⟩
    obtain ⟨levels, nest, cells⟩ := nest_of_grid? found
    exact ⟨levels, (cellKind_of_elements? nest cells).isGrid nest⟩
  · rintro ⟨levels, grid⟩
    obtain ⟨elements, found⟩ := grid.exists_elements
    exact ⟨_, grid?_of_nest grid.nest found⟩

/-- Whether the items are lists of one length, which is not zero. -/
def IsTable (cols : Nat) (items : List Json) : Prop :=
  0 < cols ∧ ∀ item ∈ items, ∃ row, item = .array row ∧ row.length = cols

theorem commonLength?_eq_some_iff {items : List Json} {cols : Nat} (some : items ≠ []) :
    commonLength? items = .some cols ↔ IsTable cols items := by
  constructor
  · intro found
    obtain ⟨positive, rows, rfl, _, full⟩ := rows_of_commonLength? found
    refine ⟨positive, fun item listed => ?_⟩
    obtain ⟨row, member, rfl⟩ := List.mem_map.mp listed
    exact ⟨row, rfl, full row member⟩
  · rintro ⟨positive, rows⟩
    match items with
    | item :: rest =>
      obtain ⟨⟨row, rfl, length⟩, others⟩ := List.forall_mem_cons.mp rows
      have each : ∀ other ∈ rest, other.length? = .some cols := by
        intro other member
        obtain ⟨_, rfl, same⟩ := others other member
        exact congrArg Option.some same
      rw [commonLength?, length?, length]
      simpa [positive] using each

section List

variable {items : List Json}

theorem toValue_array (some : items ≠ []) : toValue (.array items) =
    if items.all isObject then .records (recordsOf items)
    else
      match grid? items with
      | .some grid => .numeric grid
      | none =>
        match commonLength? items with
        | .some cols => .collection items.length cols (cellsOf items)
        | none => .ofRow (valuesOf items) := by
  have full : items.isEmpty = false := by simpa using some
  rw [toValue, full]
  rfl

theorem not_objects_of_isGrid {levels : Shape} (some : items ≠ []) (grid : IsGrid levels (.array items)) :
    items.all isObject = false := by
  cases grid.nest with
  | leaf holds => rcases holds with ⟨_, same⟩ | ⟨_, same⟩ <;> cases same
  | empty => exact absurd rfl some
  | level _ each =>
    match items with
    | item :: rest =>
      have first := each item List.mem_cons_self
      cases first with
      | leaf holds => rcases holds with ⟨_, rfl⟩ | ⟨_, rfl⟩ <;> rfl
      | empty => rfl
      | level => rfl

/-- A nest of numbers or of truth values becomes the grid of its cells. -/
theorem toValue_of_isGrid {levels : Shape} (some : items ≠ []) (grid : IsGrid levels (.array items)) :
    ∃ elements, elements? (leaves (.array items)) = .some elements ∧
      toValue (.array items) = .numeric ⟨gridShape levels, elements⟩ := by
  obtain ⟨elements, found⟩ := grid.exists_elements
  refine ⟨elements, found, ?_⟩
  rw [toValue_array some, not_objects_of_isGrid some grid, grid?_of_nest grid.nest found]
  rfl

theorem toValue_of_objects (some : items ≠ []) (all : items.all isObject = true) :
    ∃ elements, toValue (.array items) = .records elements ∧
      elements.map .record = items.map toValue := by
  obtain ⟨objects, rfl⟩ := objects_of_all all
  refine ⟨_, by rw [toValue_array some, if_pos all, recordsOf_objects], ?_⟩
  rw [List.map_map, List.map_map]
  refine List.map_congr_left fun members _ => ?_
  rw [Function.comp, Function.comp, toValue]
  rfl

variable (noGrid : ∀ levels, ¬IsGrid levels (.array items))
include noGrid

theorem grid?_eq_none : grid? items = none := by
  cases found : grid? items with
  | none => rfl
  | some grid =>
    obtain ⟨levels, grid⟩ := exists_grid?_iff.mp ⟨grid, found⟩
    exact absurd grid (noGrid levels)

theorem ne_nil_of_noGrid : items ≠ [] := by
  rintro rfl
  exact noGrid [0] (.inl .empty)

theorem not_objects_of_isTable {cols : Nat} (table : IsTable cols items) :
    items.all isObject = false := by
  match items, ne_nil_of_noGrid noGrid with
  | item :: rest, _ =>
    obtain ⟨row, rfl, _⟩ := table.2 item List.mem_cons_self
    rfl

theorem toValue_of_isTable {cols : Nat} (table : IsTable cols items) :
    toValue (.array items) = .collection items.length cols (cellsOf items) := by
  have some := ne_nil_of_noGrid noGrid
  rw [toValue_array some, not_objects_of_isTable noGrid table, grid?_eq_none noGrid,
    (commonLength?_eq_some_iff some).mpr table]
  rfl

theorem toValue_of_neither (noObjects : items.all isObject = false)
    (noTable : ∀ cols, ¬IsTable cols items) :
    toValue (.array items) = .collection 1 items.length (items.map toValue) := by
  have some := ne_nil_of_noGrid noGrid
  have noLength : commonLength? items = none := by
    cases found : commonLength? items with
    | none => rfl
    | some cols => exact absurd ((commonLength?_eq_some_iff some).mp found) (noTable cols)
  rw [toValue_array some, noObjects, grid?_eq_none noGrid, noLength, valuesOf_eq_map]
  exact congrArg (Value.collection 1 · _) (List.length_map _)

end List

/-- Whether a value is the collection of what stands in the rows of a list, each entry at its row
and column. -/
def TableOf (items : List Json) (cols : Nat) (value : Value) : Prop :=
  0 < cols ∧ ∃ cells, value = .collection items.length cols cells ∧
    cells.length = items.length * cols ∧ ∀ row < items.length, ∀ column < cols,
      ∃ entry, (array items).at? [row, column] = some entry ∧
        cells[row * cols + column]? = some entry.toValue

theorem tableOf_of_isTable {items : List Json} {cols : Nat}
    (noGrid : ∀ levels, ¬IsGrid levels (.array items)) (table : IsTable cols items) :
    TableOf items cols (toValue (.array items)) := by
  obtain ⟨positive, rows, same, _, full⟩ := rows_of_commonLength?
    ((commonLength?_eq_some_iff (ne_nil_of_noGrid noGrid)).mpr table)
  refine ⟨positive, cellsOf items, toValue_of_isTable noGrid table, ?_⟩
  rw [same, cellsOf_arrays, List.length_map, List.length_map, length_flatten_of_full full]
  refine ⟨rfl, fun row inside column within => ?_⟩
  have here : rows[row]? = some rows[row] := List.getElem?_eq_getElem inside
  have wide : column < rows[row].length := (full _ (List.getElem_mem inside)).symm ▸ within
  have there : rows[row][column]? = some rows[row][column] := List.getElem?_eq_getElem wide
  refine ⟨rows[row][column], ?_, ?_⟩
  · simp [at?, here, there]
  · rw [List.getElem?_map, getElem?_flatten_of_full full here within, there]
    rfl

theorem isTable_of_entry {item entry : Json} {column : Nat}
    (found : (array [item]).at? [0, column] = some entry) : ∃ cols, IsTable cols [item] := by
  match item with
  | .array row =>
    have some : row ≠ [] := by
      rintro rfl
      simp [at?] at found
    exact ⟨row.length, List.length_pos_iff.mpr some, List.forall_mem_singleton.mpr ⟨row, rfl, rfl⟩⟩
  | .null | .bool _ | .number _ | .string _ | .object _ => simp [at?] at found

/-- The class of a list, with what is made of it. -/
inductive Class (items : List Json) : Value → Prop
  | empty (none : items = []) : Class items (.numeric .empty)
  | grid {levels : Shape} {elements : Elements} (grid : IsGrid levels (.array items)) :
    Class items (.numeric ⟨gridShape levels, elements⟩)
  | records {elements : List (List (String × Value))} (some : items ≠ [])
    (all : items.all isObject = true) (each : elements.map .record = items.map toValue) :
    Class items (.records elements)
  | table {cols : Nat} (noGrid : ∀ levels, ¬IsGrid levels (.array items))
    (table : IsTable cols items) : Class items (.collection items.length cols (cellsOf items))
  | row (noGrid : ∀ levels, ¬IsGrid levels (.array items)) (noObjects : items.all isObject = false)
    (noTable : ∀ cols, ¬IsTable cols items) : Class items (.collection 1 items.length (items.map toValue))

theorem class_toValue (items : List Json) : Class items (toValue (.array items)) := by
  by_cases none : items = []
  · subst none
    exact .empty rfl
  by_cases all : items.all isObject = true
  · obtain ⟨elements, records, each⟩ := toValue_of_objects none all
    exact records ▸ .records none all each
  by_cases grid : ∃ levels, IsGrid levels (.array items)
  · obtain ⟨levels, grid⟩ := grid
    obtain ⟨elements, _, numeric⟩ := toValue_of_isGrid none grid
    exact numeric ▸ .grid grid
  have noGrid : ∀ levels, ¬IsGrid levels (.array items) := not_exists.mp grid
  by_cases table : ∃ cols, IsTable cols items
  · obtain ⟨cols, table⟩ := table
    exact toValue_of_isTable noGrid table ▸ .table noGrid table
  · have noObjects := Bool.eq_false_iff.mpr all
    have noTable : ∀ cols, ¬IsTable cols items := not_exists.mp table
    exact toValue_of_neither noGrid noObjects noTable ▸ .row noGrid noObjects noTable

theorem exists_numeric_iff {items : List Json} :
    (∃ grid, toValue (.array items) = .numeric grid) ↔
      items = [] ∨ ∃ levels, IsGrid levels (.array items) := by
  constructor
  · rintro ⟨made, numeric⟩
    have form := class_toValue items
    rw [numeric] at form
    cases form with
    | empty none => exact .inl none
    | grid grid => exact .inr ⟨_, grid⟩
  · intro condition
    by_cases none : items = []
    · subst none
      exact ⟨_, rfl⟩
    · obtain ⟨levels, grid⟩ := condition.resolve_left none
      obtain ⟨elements, _, numeric⟩ := toValue_of_isGrid none grid
      exact ⟨_, numeric⟩

/-- Everything about the grid of a nest: its shape, the number and type of its cells, and where each
leaf is stored. -/
theorem grid_of_isGrid {items : List Json} {levels : Shape} (some : items ≠ [])
    (grid : IsGrid levels (.array items)) :
    ∃ elements, toValue (.array items) = .numeric ⟨gridShape levels, elements⟩ ∧
      elements.length = levels.cells ∧ CellKind levels (.array items) elements.kind ∧
      ∀ path, levels.Within path → ∃ leaf, (array items).at? path = .some leaf ∧
        elements.Stores (levels.offset path) leaf := by
  obtain ⟨elements, found, numeric⟩ := toValue_of_isGrid some grid
  have holds := holds_of_elements? found
  refine ⟨elements, numeric, ?_, cellKind_of_elements? grid.nest found, fun path inside => ?_⟩
  · exact holds.length.trans grid.nest.length_leaves
  · obtain ⟨leaf, there, stored⟩ := grid.nest.leaf_at inside
    exact ⟨leaf, there, holds.stores stored⟩

theorem exists_records_iff {items : List Json} :
    (∃ elements, toValue (.array items) = .records elements) ↔
      items ≠ [] ∧ ∀ item ∈ items, item.isObject = true := by
  rw [← List.all_eq_true]
  constructor
  · rintro ⟨elements, records⟩
    have form := class_toValue items
    rw [records] at form
    cases form with
    | records some all _ => exact ⟨some, all⟩
  · rintro ⟨some, all⟩
    obtain ⟨elements, records, _⟩ := toValue_of_objects some all
    exact ⟨elements, records⟩

theorem map_record_eq {items : List Json} {elements : List (List (String × Value))}
    (records : toValue (.array items) = .records elements) :
    elements.map .record = items.map toValue := by
  have form := class_toValue items
  rw [records] at form
  cases form with
  | records _ _ each => exact each

theorem tableOf_iff {items : List Json} {cols : Nat} :
    TableOf items cols (toValue (.array items)) ↔
      (∀ levels, ¬IsGrid levels (.array items)) ∧ IsTable cols items := by
  constructor
  · rintro ⟨positive, cells, collection, _, entries⟩
    have form := class_toValue items
    generalize toValue (.array items) = value at form collection
    cases form with
    | table noGrid table =>
      cases collection
      exact ⟨noGrid, table⟩
    | row _ _ noTable =>
      -- One row is a table only if its single item is a list, which would make a table itself.
      have single : 1 = items.length := (Value.collection.inj collection).1
      obtain ⟨item, rfl⟩ := List.length_eq_one_iff.mp single.symm
      obtain ⟨entry, found, _⟩ := entries 0 Nat.one_pos 0 positive
      obtain ⟨_, table⟩ := isTable_of_entry found
      exact absurd table (noTable _)
    | empty _ | grid _ | records _ _ _ => cases collection
  · rintro ⟨noGrid, table⟩
    exact tableOf_of_isTable noGrid table

/-- A list becomes a number grid exactly when it is empty or a rectangular nest of numbers or of
truth values, and each leaf is then stored at the offset of its path. It becomes a list of records
exactly when its items are objects, a collection of its items' items exactly when, being no nest,
its items are lists of one length, and in all other cases a collection of one row. -/
theorem list_classified (items : List Json) :
    ((∃ grid, toValue (.array items) = .numeric grid) ↔
      items = [] ∨ ∃ levels, IsGrid levels (.array items)) ∧
    (items = [] → toValue (.array items) = .numeric ⟨[0, 0], .float []⟩) ∧
    (∀ levels, items ≠ [] → IsGrid levels (.array items) →
      ∃ elements, toValue (.array items) = .numeric ⟨gridShape levels, elements⟩ ∧
        elements.length = levels.cells ∧ CellKind levels (.array items) elements.kind ∧
        ∀ path, levels.Within path → ∃ leaf, (array items).at? path = some leaf ∧
          elements.Stores (levels.offset path) leaf) ∧
    ((∃ elements, toValue (.array items) = .records elements) ↔
      items ≠ [] ∧ ∀ item ∈ items, item.isObject = true) ∧
    (∀ elements, toValue (.array items) = .records elements →
      elements.map .record = items.map toValue) ∧
    (∀ cols, TableOf items cols (toValue (.array items)) ↔
      (∀ levels, ¬IsGrid levels (.array items)) ∧ IsTable cols items) ∧
    ((∀ levels, ¬IsGrid levels (.array items)) → ¬(∀ item ∈ items, item.isObject = true) →
      (∀ cols, ¬IsTable cols items) →
        toValue (.array items) = .collection 1 items.length (items.map toValue)) := by
  refine ⟨exists_numeric_iff, ?_, fun _ => grid_of_isGrid, exists_records_iff,
    fun _ => map_record_eq, fun _ => tableOf_iff, fun noGrid noObjects noTable => ?_⟩
  · rintro rfl
    rfl
  · rw [← List.all_eq_true] at noObjects
    exact toValue_of_neither noGrid (Bool.eq_false_iff.mpr noObjects) noTable

/-- A nest of two levels with a number that is no word: its third leaf opens the second row. -/
theorem list_classified_of_matrix :
    let items : List Json := [.array [.number (.int 1), .number (.int 2)],
      .array [.number (.int 3), .number (.int 0x8000000000000000)]]
    IsGrid [2, 2] (.array items) ∧ ∃ elements,
      toValue (.array items) = .numeric ⟨[2, 2], elements⟩ ∧
      CellKind [2, 2] (.array items) elements.kind ∧ elements.Stores 2 (.number (.int 3)) := by
  intro items
  have row (first second : Number) : Nest IsNumber [2] (.array [.number first, .number second]) :=
    .level (List.cons_ne_nil _ _) (List.forall_mem_cons.mpr
      ⟨.leaf ⟨first, rfl⟩, List.forall_mem_singleton.mpr (.leaf ⟨second, rfl⟩)⟩)
  have grid : IsGrid [2, 2] (.array items) := .inl (.level (List.cons_ne_nil _ _)
    (List.forall_mem_cons.mpr ⟨row _ _, List.forall_mem_singleton.mpr (row _ _)⟩))
  obtain ⟨elements, numeric, _, kind, stores⟩ :=
    (list_classified items).2.2.1 [2, 2] (List.cons_ne_nil _ _) grid
  have inside : Shape.Within [2, 2] [1, 0] := .cons (by decide) (.cons (by decide) .nil)
  obtain ⟨leaf, found, stored⟩ := stores [1, 0] inside
  cases found
  exact ⟨grid, elements, numeric, kind, stored⟩

end Json

end ValueScript
