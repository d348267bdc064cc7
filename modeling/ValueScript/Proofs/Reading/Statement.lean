import ValueScript.Proofs.Assignment
import ValueScript.Proofs.Reading.Line

/-! Reading one statement. What follows the equals sign tells the form, the form tells which of the
following lines belong to the statement, and what is read is what was assigned. -/

namespace ValueScript

/-- Rows of cells as a layout. -/
def Layout.ofRows (rows : List (List String)) : Option Layout :=
  if rows.flatten = [] then none else some ⟨rows.length, (rows.headD []).length, rows.flatten⟩

namespace Line

/-- Whether a line is a row of a text grid. -/
def indented (line : Line) : Bool := line.head? = some ' '

/-- The rows of a block, up to the line that closes it, and the lines after that. -/
def block (closer : Char) (rest : List Line) : List (List String) × List Line :=
  ((rest.takeWhile (·.head? ≠ some closer)).map words,
    (rest.dropWhile (·.head? ≠ some closer)).drop 1)

/-- The class and the rows of cells of a statement, and the lines that follow it. The statement
starts in the middle of a line, after the equals sign. -/
def body (head : Line) (rest : List Line) : LeafClass × List (List String) × List Line :=
  match head with
  | [] => (.text, (rest.takeWhile indented).map between, rest.dropWhile indented)
  -- A bracket or brace alone opens a block; with more behind it the line is the whole statement.
  | ['['] => (.numeric, block ']' rest)
  | ['\x7b'] => (.collection, block '\x7d' rest)
  | '\'' :: _ => (.text, [between head], rest)
  | '\x7b' :: _ => (.collection, [words head], rest)
  | _ => (.numeric, [words head], rest)

theorem length_body (head : Line) (rest : List Line) : (body head rest).2.2.length ≤ rest.length := by
  have indents := (List.dropWhile_suffix (l := rest) indented).length_le
  have blocks (closer : Char) : (block closer rest).2.length ≤ rest.length := by
    have suffix := (List.dropWhile_suffix (l := rest) (·.head? ≠ some closer)).length_le
    rw [block, List.length_drop]
    omega
  unfold body
  split
  · exact indents
  · exact blocks _
  · exact blocks _
  · exact Nat.le_refl _
  · exact Nat.le_refl _
  · exact Nat.le_refl _

end Line

/-- Whether a cell of a class can be told from what stands around it. -/
def LeafClass.Reads : LeafClass → String → Prop
  | .numeric, cell => Token.Plain cell
  | .text, cell => ∃ char, cell = String.singleton char ∧ char ≠ '\'' ∧ char ≠ '\n'
  | .collection, cell => Token.Clear cell

theorem LeafClass.quoteless_of_reads {cells : List String}
    (letters : ∀ cell ∈ cells, LeafClass.text.Reads cell) :
    ∀ cell ∈ cells, ∃ char, cell = String.singleton char ∧ char ≠ '\'' := by
  intro cell member
  obtain ⟨char, same, apart, _⟩ := letters cell member
  exact ⟨char, same, apart⟩

/-- A layout with rows and columns, and as many cells as these make. -/
structure Layout.Full (layout : Layout) : Prop where
  rows_pos : 0 < layout.rows
  cols_pos : 0 < layout.cols
  length_cells : layout.cells.length = layout.rows * layout.cols

namespace Layout

variable {layout : Layout}

theorem flatten_grid (layout : Layout) : layout.grid.flatten = layout.cells :=
  cutRows_flatten layout.cols layout.cells

theorem mem_cells_of_mem_grid {row : List String} (listed : row ∈ layout.grid) {cell : String}
    (member : cell ∈ row) : cell ∈ layout.cells := by
  rw [← flatten_grid]
  exact List.mem_flatten_of_mem listed member

theorem Full.cells_ne_nil (full : layout.Full) : layout.cells ≠ [] := by
  have positive := Nat.mul_pos full.rows_pos full.cols_pos
  rw [← full.length_cells] at positive
  exact List.length_pos_iff.mp positive

theorem Full.row_ne_nil (full : layout.Full) {row : List String} (listed : row ∈ layout.grid) :
    row ≠ [] := by
  have wide := (cutRows_full full.cols_pos full.length_cells).2 row listed
  rintro rfl
  exact Nat.ne_of_lt full.cols_pos wide

/-- A full layout can be told from its rows. -/
theorem Full.ofRows_grid (full : layout.Full) : ofRows layout.grid = some layout := by
  obtain ⟨count, wide⟩ : layout.grid.length = layout.rows ∧
      ∀ row ∈ layout.grid, row.length = layout.cols :=
    cutRows_full full.cols_pos full.length_cells
  have first : (layout.grid.headD []).length = layout.cols := by
    cases split : layout.grid with
    | nil =>
      have := full.rows_pos
      simp [split] at count
      omega
    | cons row rest => exact wide row (by simp [split])
  rw [ofRows, flatten_grid, if_neg full.cells_ne_nil, count, first]

theorem Full.grid_of_single (full : layout.Full) (single : layout.rows = 1) :
    layout.grid = [layout.cells] := by
  have count : layout.grid.length = 1 :=
    (cutRows_full full.cols_pos full.length_cells).1.trans single
  obtain ⟨row, split⟩ := List.length_eq_one_iff.mp count
  have same := flatten_grid layout
  rw [split, List.flatten_singleton] at same
  rw [split, same]

end Layout

namespace Line

open Token

theorem block_closed {closer : Char} {rows : List (List String)} {lines : List String}
    (inside : ∀ line ∈ lines, line.toList.head? ≠ some closer)
    (same : lines.map (fun line => words line.toList) = rows) (last : String)
    (closed : last.toList.head? = some closer) (rest : List Line) :
    block closer ((lines ++ [last]).map String.toList ++ rest) = (rows, rest) := by
  have kept : ∀ line ∈ lines.map String.toList, decide (line.head? ≠ some closer) = true := by
    intro line member
    obtain ⟨text, listed, rfl⟩ := List.mem_map.mp member
    exact decide_eq_true (inside text listed)
  have stop : Stops (fun line : Line => decide (line.head? ≠ some closer)) (last.toList :: rest) :=
    Stops.cons (by simp [closed]) rest
  have written : (lines ++ [last]).map String.toList ++ rest =
      lines.map String.toList ++ last.toList :: rest := by simp
  rw [written, block, takeWhile_delimited kept stop, dropWhile_delimited kept stop, List.map_map]
  exact Prod.ext same rfl

theorem body_opening_bracket (lines : List Line) : body "[".toList lines = (.numeric, block ']' lines) := rfl

theorem body_opening_brace (lines : List Line) :
    body "\x7b".toList lines = (.collection, block '\x7d' lines) := rfl

theorem gap_space : Gap " ".toList := ⟨List.cons_ne_nil _ _, rfl⟩

theorem gap_comma : Gap ", ".toList := ⟨List.cons_ne_nil _ _, rfl⟩

theorem words_rest {line : Line} (skipped : line.all idle = true) :
    words line = [] := by
  have none := words_skip [] skipped
  rwa [List.append_nil, words] at none

/-- A statement of one line that begins neither with a quote nor with a brace assigns numbers. -/
theorem body_of_numbers {char : Char} {tail : Line} (longer : tail ≠ []) (unquoted : char ≠ '\'')
    (unbraced : char ≠ '\x7b') (rest : List Line) :
    body (char :: tail) rest = (.numeric, [words (char :: tail)], rest) := by
  cases tail with
  | nil => exact absurd rfl longer
  | cons next more => simp [body, unquoted, unbraced]

theorem body_brackets {tokens : List String} (numbers : ∀ token ∈ tokens, Plain token)
    (rest : List Line) :
    body ("[" ++ " ".intercalate tokens ++ "];").toList rest = (.numeric, [tokens], rest) := by
  have written : ("[" ++ " ".intercalate tokens ++ "];").toList =
      ['['] ++ ((" ".intercalate tokens).toList ++ [']', ';']) := by simp
  have cells : words ("[" ++ " ".intercalate tokens ++ "];").toList = tokens := by
    rw [written, words_skip _ rfl,
      words_intercalate (fun token member => .inl (numbers token member)) gap_space
        (Stops.cons rfl [';']), words_rest rfl, List.append_nil]
  have form := body_of_numbers
    (List.append_ne_nil_of_right_ne_nil (" ".intercalate tokens).toList
      (List.cons_ne_nil ']' [';'])) (show '[' ≠ '\'' by decide) (by decide) rest
  rwa [← List.singleton_append, ← written, cells] at form

theorem body_number {token : String} (number : Plain token) (rest : List Line) :
    body (token ++ ";").toList rest = (.numeric, [[token]], rest) := by
  have closer : Stops plain ";".toList := Stops.cons rfl []
  have cells : words (token ++ ";").toList = [token] := by
    rw [String.toList_append, words_token (.inl number) closer, words_rest rfl]
  obtain ⟨char, more, split⟩ := List.exists_cons_of_ne_nil number.1
  have first : plain char = true := number.2 char (by rw [split]; exact List.mem_cons_self)
  have written : (token ++ ";").toList = char :: (more ++ [';']) := by simp [split]
  have unquoted : char ≠ '\'' := by
    rintro rfl
    cases first
  have unbraced : char ≠ '\x7b' := by
    rintro rfl
    cases first
  rw [written] at cells ⊢
  rw [body_of_numbers (by simp) unquoted unbraced rest, cells]

theorem body_quotes {cells : List String}
    (letters : ∀ cell ∈ cells, LeafClass.text.Reads cell) (rest : List Line) :
    body ("'" ++ String.join cells ++ "';").toList rest = (.text, [cells], rest) := by
  have written : ("'" ++ String.join cells ++ "';").toList =
      '\'' :: ((String.join cells).toList ++ '\'' :: [';']) := by simp
  have inside := between_quotes (LeafClass.quoteless_of_reads letters) List.not_mem_nil [';']
  rw [List.nil_append] at inside
  rw [written]
  rw [body, inside]

theorem between_indented {cells : List String}
    (letters : ∀ cell ∈ cells, LeafClass.text.Reads cell) :
    between ("  '" ++ String.join cells ++ "'").toList = cells := by
  have written : ("  '" ++ String.join cells ++ "'").toList =
      [' ', ' '] ++ '\'' :: ((String.join cells).toList ++ '\'' :: []) := by simp
  rw [written]
  exact between_quotes (LeafClass.quoteless_of_reads letters) (by decide) []

theorem body_braces {tail : Line} (longer : tail ≠ []) {tokens : List String}
    (cells : words ('\x7b' :: tail) = tokens) (rest : List Line) :
    body ('\x7b' :: tail) rest = (.collection, [tokens], rest) := by
  cases tail with
  | nil => exact absurd rfl longer
  | cons next more =>
    rw [← cells, body]
    exact longer

/-- A token begins with a character that closes no block. -/
theorem head_of_clear {token : String} (clear : Clear token) {closer : Char}
    (other : idle closer = true) (rest : Line) :
    (token.toList ++ rest).head? ≠ some closer := by
  rcases clear with ⟨nonempty, all⟩ | ⟨chars, rfl, _, _⟩
  · obtain ⟨char, more, split⟩ := List.exists_cons_of_ne_nil nonempty
    have first : plain char = true := all char (by rw [split]; exact List.mem_cons_self)
    rw [split, List.cons_append, List.head?_cons]
    rintro same
    cases same
    rw [(idle_iff.mp other).1] at first
    cases first
  · rintro same
    have quote : closer = '\'' := by simpa [quoted, eq_comm] using same
    exact (idle_iff.mp other).2 quote

theorem read_closed {tokens : List String} (nonempty : tokens ≠ [])
    (clear : ∀ token ∈ tokens, Clear token) {gap : String} (isGap : Gap gap.toList) (closer : Char)
    (other : idle closer = true) :
    words (String.join (tokens.map (· ++ gap))).toList = tokens ∧
      (String.join (tokens.map (· ++ gap))).toList.head? ≠ some closer := by
  constructor
  · have cells := words_closed clear isGap []
    rwa [List.append_nil, words, List.append_nil] at cells
  · obtain ⟨first, more, rfl⟩ := List.exists_cons_of_ne_nil nonempty
    rw [List.map_cons, String.join_cons, String.append_assoc, String.toList_append]
    exact head_of_clear (clear first List.mem_cons_self) other _

theorem read_intercalate {tokens : List String} (nonempty : tokens ≠ [])
    (clear : ∀ token ∈ tokens, Clear token) {gap : String} (isGap : Gap gap.toList) (closer : Char)
    (other : idle closer = true) :
    words (gap.intercalate tokens).toList = tokens ∧
      (gap.intercalate tokens).toList.head? ≠ some closer := by
  constructor
  · have cells := words_intercalate clear isGap Stops.nil
    rwa [List.append_nil, words, List.append_nil] at cells
  · obtain ⟨first, more, rfl⟩ := List.exists_cons_of_ne_nil nonempty
    have head := head_of_clear (clear first List.mem_cons_self) other
    cases more with
    | nil =>
      rw [String.intercalate_singleton, ← List.append_nil first.toList]
      exact head []
    | cons next more =>
      rw [String.intercalate_cons_cons, String.append_assoc, String.toList_append]
      exact head _

theorem body_entry {token : String} (clear : Clear token) (rest : List Line) :
    body ("\x7b " ++ token ++ " \x7d;").toList rest = (.collection, [[token]], rest) := by
  have written : ("\x7b " ++ token ++ " \x7d;").toList =
      '\x7b' :: ' ' :: (token.toList ++ [' ', '\x7d', ';']) := by simp
  have opening : ['\x7b', ' '].all idle = true := rfl
  have closing : [' ', '\x7d', ';'].all idle = true := rfl
  have cells := words_skip (token.toList ++ [' ', '\x7d', ';']) opening
  rw [words_token clear (Stops.cons rfl _), words_rest closing] at cells
  rw [written]
  exact body_braces (List.cons_ne_nil _ _) cells rest

/-- The rows of a collection's block. -/
theorem read_entryLines {rows : List (List String)} (nonempty : ∀ row ∈ rows, row ≠ [])
    (clear : ∀ row ∈ rows, ∀ token ∈ row, Clear token) :
    (entryLines rows).map (fun line => words line.toList) = rows ∧
      ∀ line ∈ entryLines rows, line.toList.head? ≠ some '\x7d' := by
  fun_induction entryLines rows with
  | case1 => exact ⟨rfl, nofun⟩
  | case2 last =>
    obtain ⟨cells, head⟩ := read_intercalate (nonempty last List.mem_cons_self)
      (clear last List.mem_cons_self) gap_comma '\x7d' rfl
    exact ⟨by rw [List.map_singleton, cells], List.forall_mem_singleton.mpr head⟩
  | case3 row rest more ih =>
    obtain ⟨cells, head⟩ := read_closed (nonempty row List.mem_cons_self) (clear row List.mem_cons_self)
      gap_comma '\x7d' rfl
    obtain ⟨others, heads⟩ := ih (fun row member => nonempty row (List.mem_cons_of_mem _ member))
      (fun row member => clear row (List.mem_cons_of_mem _ member))
    exact ⟨by rw [List.map_cons, cells, others], List.forall_mem_cons.mpr ⟨head, heads⟩⟩

end Line

/-- Whether a name can be told from what follows it, as any name of letters, digits and underscores
can. -/
def Name.Legible (name : String) : Prop := name ≠ "" ∧ ' ' ∉ name.toList ∧ '\n' ∉ name.toList

instance (name : String) : Decidable (Name.Legible name) :=
  inferInstanceAs (Decidable (name ≠ "" ∧ ' ' ∉ name.toList ∧ '\n' ∉ name.toList))

/-- A layout whose cells fill it and can be told apart. -/
structure Layout.Readable (cls : LeafClass) (layout : Layout) : Prop extends full : layout.Full where
  reads : ∀ cell ∈ layout.cells, cls.Reads cell

namespace Assignment

open Line

variable {layout : Layout}

theorem body_of_empty (name : String) (cls : LeafClass) (rest : List Line) :
    Line.body (body ⟨name, cls, none⟩).1.toList ((body ⟨name, cls, none⟩).2.map String.toList ++ rest) =
      (cls, [[]], rest) := by
  cases cls with
  | numeric => exact body_brackets (List.forall_mem_nil _) rest
  | text => exact body_quotes (List.forall_mem_nil _) rest
  | collection =>
    have written : (body ⟨name, .collection, none⟩).1.toList = ['\x7b', '\x7d', ';'] := by
      simp [body]
    rw [written]
    exact body_braces (List.cons_ne_nil _ _) (words_rest rfl) rest

theorem body_of_numeric (name : String) (readable : layout.Readable .numeric)
    (rest : List Line) :
    Line.body (body ⟨name, .numeric, some layout⟩).1.toList
      ((body ⟨name, .numeric, some layout⟩).2.map String.toList ++ rest) =
        (.numeric, layout.grid, rest) := by
  obtain ⟨full, numbers⟩ := readable
  unfold body
  dsimp only
  split
  · rename_i single
    rw [full.grid_of_single single]
    split
    · rename_i token alone
      rw [alone] at numbers ⊢
      exact body_number (numbers token List.mem_cons_self) rest
    · exact body_brackets numbers rest
  · have rows : ∀ row ∈ layout.grid, words (String.join (row.map (· ++ " "))).toList = row ∧
        (String.join (row.map (· ++ " "))).toList.head? ≠ some ']' := by
      intro row listed
      exact read_closed (full.row_ne_nil listed)
        (fun token member => .inl (numbers token (Layout.mem_cells_of_mem_grid listed member)))
        gap_space ']' rfl
    have heads : ∀ line ∈ layout.grid.map (fun row => String.join (row.map (· ++ " "))),
        line.toList.head? ≠ some ']' := by
      intro line member
      obtain ⟨row, listed, rfl⟩ := List.mem_map.mp member
      exact (rows row listed).2
    have cells : (layout.grid.map fun row => String.join (row.map (· ++ " "))).map
        (fun line => words line.toList) = layout.grid := by
      rw [List.map_map]
      exact (List.map_congr_left fun row listed => (rows row listed).1).trans (List.map_id _)
    rw [body_opening_bracket, block_closed heads cells "];" rfl rest]

theorem body_of_text (name : String) (readable : layout.Readable .text) {rest : List Line}
    (apart : Stops indented rest) :
    Line.body (body ⟨name, .text, some layout⟩).1.toList
      ((body ⟨name, .text, some layout⟩).2.map String.toList ++ rest) =
        (.text, layout.grid, rest) := by
  obtain ⟨full, letters⟩ := readable
  unfold body
  dsimp only
  split
  · rename_i single
    rw [full.grid_of_single single]
    exact body_quotes letters rest
  · have kept : ∀ line ∈ (layout.grid.map fun row => "  '" ++ String.join row ++ "'").map String.toList,
        indented line = true := by
      simp [indented]
    have cells : ((layout.grid.map fun row => "  '" ++ String.join row ++ "'").map String.toList).map
        between = layout.grid := by
      rw [List.map_map, List.map_map]
      refine (List.map_congr_left fun row listed => ?_).trans (List.map_id _)
      exact between_indented fun cell member => letters cell (Layout.mem_cells_of_mem_grid listed member)
    have opened (lines : List Line) : Line.body "".toList lines =
        (.text, (lines.takeWhile indented).map between, lines.dropWhile indented) := rfl
    rw [opened, takeWhile_delimited kept apart, dropWhile_delimited kept apart, cells]

theorem body_of_collection (name : String) (readable : layout.Readable .collection)
    (rest : List Line) :
    Line.body (body ⟨name, .collection, some layout⟩).1.toList
      ((body ⟨name, .collection, some layout⟩).2.map String.toList ++ rest) =
        (.collection, layout.grid, rest) := by
  obtain ⟨full, entries⟩ := readable
  unfold body
  dsimp only
  split
  · rename_i token alone
    have count := full.length_cells
    rw [alone, List.length_singleton] at count
    have single : layout.rows = 1 := Nat.eq_one_of_mul_eq_one_right count.symm
    rw [full.grid_of_single single, alone]
    exact body_entry (entries token (by simp [alone])) rest
  · obtain ⟨cells, heads⟩ := read_entryLines (fun row listed => full.row_ne_nil listed)
      (fun row listed token member => entries token (Layout.mem_cells_of_mem_grid listed member))
    rw [body_opening_brace, block_closed heads cells "\x7d;" rfl rest]

/-- Whether an assignment can be read back from its statement. -/
structure Readable (assignment : Assignment) : Prop where
  legible : Name.Legible assignment.name
  readable : ∀ layout ∈ assignment.layout, layout.Readable assignment.cls

/-- The body of a statement is read up to the next statement, which is not indented. -/
theorem body_of_readable {assignment : Assignment} (readable : assignment.Readable)
    {rest : List Line} (apart : Stops indented rest) :
    ∃ rows, Line.body assignment.body.1.toList (assignment.body.2.map String.toList ++ rest) =
      (assignment.cls, rows, rest) ∧ Layout.ofRows rows = assignment.layout := by
  obtain ⟨name, cls, layout⟩ := assignment
  match layout with
  | none => exact ⟨[[]], body_of_empty name cls rest, rfl⟩
  | some layout =>
    have shown := readable.readable layout rfl
    refine ⟨layout.grid, ?_, shown.full.ofRows_grid⟩
    cases cls with
    | numeric => exact body_of_numeric name shown rest
    | text => exact body_of_text name shown apart
    | collection => exact body_of_collection name shown rest

end Assignment

end ValueScript
