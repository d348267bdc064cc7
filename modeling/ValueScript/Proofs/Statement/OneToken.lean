import ValueScript.Proofs.Emission.Visits
import ValueScript.Proofs.Statement.Outcome
import ValueScript.Proofs.Token

/-! Values that one token writes. A number or text grid has a token just when its statement assigns
that token alone, without brackets. Text of several rows that have no column is the exception: its
statement assigns two quotes, as that of any empty text does, but it has no token and cannot be an
entry of a collection. -/

namespace ValueScript

namespace Value

theorem serialize_of_leaf {name : String} {value : Value}
    (leaf : value.visits name 0 = [⟨name, 0, value⟩]) :
    value.serialize name = (value.own name).map Script.text := by
  rw [serialize, script_eq_collect, leaf, Script.collect_singleton]
  rfl

theorem serialize_numeric (name : String) (grid : NumericGrid) :
    (numeric grid).serialize name = grid.statement name := by
  rw [serialize_of_leaf rfl, own]
  cases grid.statement name <;> rfl

theorem serialize_text (name : String) (grid : TextGrid) :
    (text grid).serialize name = grid.statement name := by
  rw [serialize_of_leaf rfl, own]
  cases grid.statement name <;> rfl

theorem serialize_collection {name : String} {rows cols : Nat} {items : List Value} {text : String}
    (written : Collection.statement name rows cols items = .ok (.ok text)) :
    (collection rows cols items).serialize name = .ok text := by
  rw [serialize_of_leaf rfl, own, written]
  rfl

/-- Whether a value's statement assigns a token alone, and not a row or a block in brackets. -/
def AssignsToken (name : String) (value : Value) (token : String) : Prop :=
  value.serialize name = .ok (name ++ " = " ++ token ++ ";\n") ∧ token.toList.head? ≠ some '['

end Value

namespace NumericGrid

variable {name token : String} {grid : NumericGrid}

theorem token_eq_ok_iff : (Value.numeric grid).token name = .ok token ↔
    grid.elements.tokens = [token] ∧ grid.shape.extent = ⟨1, 1, []⟩ := by
  rw [Value.token]
  split
  next only alone single => simp [alone, single]
  next other =>
    constructor
    · intro written
      cases written
    · rintro ⟨alone, single⟩
      exact absurd single (other token alone)

theorem statement_eq_ok_iff : grid.statement name = .ok (name ++ " = " ++ token ++ ";\n") ↔
    (grid.shape.extent.higher = [] ∧ grid.shape.cells = grid.elements.length) ∧
      literal grid.shape.extent grid.elements.tokens = token := by
  rw [grid.statement_eq, ← @gridFault?_eq_none_iff name]
  cases gridFault? name grid.shape grid.elements.length with
  | some fault => simp
  | none => simp [String.append_left_inj, String.append_right_inj]

theorem alone_of_literal {extent : Extent} {tokens : List String}
    (written : literal extent tokens = token) (unbracketed : token.toList.head? ≠ some '[') :
    extent.rows = 1 ∧ tokens = [token] := by
  unfold literal at written
  split at written
  next =>
    subst written
    exact absurd rfl unbracketed
  next =>
    split at written
    next single =>
      split at written
      next only => exact ⟨single, congrArg (fun token => [token]) written⟩
      next =>
        subst written
        simp at unbracketed
    next =>
      subst written
      simp at unbracketed

/-- A number grid has just the token that its statement assigns alone. -/
theorem token_iff_assigned :
    (Value.numeric grid).token name = .ok token ↔ (Value.numeric grid).AssignsToken name token := by
  rw [token_eq_ok_iff, Value.AssignsToken, Value.serialize_numeric, statement_eq_ok_iff]
  constructor
  · rintro ⟨alone, single⟩
    have higher : grid.shape.extent.higher = [] := by rw [single]
    have full : grid.shape.cells = grid.elements.length := by
      rw [Shape.cells_of_flat higher, ← grid.elements.length_tokens, alone, single]
      rfl
    obtain ⟨nonempty, plain⟩ := grid.elements.plain_tokens token (by simp [alone])
    refine ⟨⟨⟨higher, full⟩, ?_⟩, ?_⟩
    · rw [single, alone]
      rfl
    · intro bracket
      cases plain '[' (List.mem_of_head? bracket)
  · rintro ⟨⟨⟨higher, full⟩, written⟩, unbracketed⟩
    -- One row is read off the literal, one column only follows from the count of cells.
    obtain ⟨row, alone⟩ := alone_of_literal written unbracketed
    have col : grid.shape.extent.cols = 1 := by
      rwa [Shape.cells_of_flat higher, ← grid.elements.length_tokens, alone, row, Nat.one_mul] at full
    refine ⟨alone, ?_⟩
    calc grid.shape.extent
      _ = ⟨grid.shape.extent.rows, grid.shape.extent.cols, grid.shape.extent.higher⟩ := rfl
      _ = ⟨1, 1, []⟩ := by rw [row, col, higher]

end NumericGrid

namespace TextGrid

variable {name token : String} {grid : TextGrid}

/-- Whether a text grid has several rows, none of which has a column. -/
def Columnless (grid : TextGrid) : Prop :=
  2 ≤ grid.shape.extent.rows ∧ grid.shape.extent.cols = 0

instance (grid : TextGrid) : Decidable grid.Columnless :=
  inferInstanceAs (Decidable (2 ≤ grid.shape.extent.rows ∧ grid.shape.extent.cols = 0))

theorem token_eq_ok_iff : (Value.text grid).token name = .ok token ↔
    (grid.shape.extent.higher = [] ∧ grid.shape.cells = grid.chars.length) ∧
      grid.shape.extent.rows ≤ 1 ∧ Token.quoted grid.chars = token := by
  rw [Value.token, checkCells, ValueScript.checkCells]
  by_cases full : grid.shape.cells = grid.chars.length
  · by_cases single : grid.shape.extent.higher = [] ∧ grid.shape.extent.rows ≤ 1
    · simp [full, single, bind, Except.bind, pure, Except.pure]
    · simp only [full, single, bind, Except.bind, if_true, if_false]
      constructor
      · intro written
        cases written
      · rintro ⟨⟨higher, _⟩, low, _⟩
        exact absurd ⟨higher, low⟩ single
  · simp [full, bind, Except.bind]

theorem statement_eq_ok_iff : grid.statement name = .ok (name ++ " = " ++ token ++ ";\n") ↔
    (grid.shape.extent.higher = [] ∧ grid.shape.cells = grid.chars.length) ∧
      grid.body = token ++ ";\n" := by
  rw [grid.statement_eq, ← @gridFault?_eq_none_iff name]
  cases gridFault? name grid.shape grid.chars.length with
  | some fault => simp
  | none => simp [String.append_assoc, String.append_right_inj]

theorem lines_unclosed (rows : List String) : "\n" ++ String.join (rows.map line) ≠ token ++ ";\n" := by
  intro same
  have chars := congrArg String.toList same
  rcases List.eq_nil_or_concat rows with rfl | ⟨before, last, rfl⟩
  · have length := congrArg List.length chars
    simp at length
  · rw [List.concat_eq_append, List.map_append, String.join_append] at chars
    have ends : String.join ([last].map line) = "  '" ++ last ++ "'\n" := by simp [line]
    have tail : ("'\n" : String).toList = (";\n" : String).toList := by
      rw [ends] at chars
      simp only [String.toList_append, ← List.append_assoc] at chars
      exact (List.append_inj' chars rfl).2
    exact absurd tail (by decide)

/-- What stands between the equals sign and the closing semicolon of a text's statement. -/
theorem body_eq_closed_iff : grid.body = token ++ ";\n" ↔
    (grid.shape.extent.isEmpty = true ∧ "''" = token) ∨
      (grid.shape.extent.isEmpty = false ∧ grid.shape.extent.rows = 1 ∧
        Token.quoted grid.chars = token) := by
  have quotes : "'';\n" = "''" ++ ";\n" := rfl
  -- The three forms of a text's statement; only the last of them has no semicolon at its end.
  unfold body
  cases grid.shape.extent.isEmpty with
  | true =>
    rw [if_pos rfl, quotes, String.append_left_inj]
    simp
  | false =>
    by_cases single : grid.shape.extent.rows = 1
    · simp [single, String.append_left_inj]
    · simp [single, lines_unclosed]

theorem quoted_of_empty (filled : grid.shape.extent.higher = [] ∧ grid.shape.cells = grid.chars.length)
    (empty : grid.shape.extent.isEmpty = true) : Token.quoted grid.chars = "''" := by
  obtain ⟨higher, full⟩ := filled
  have none : grid.shape.extent.rows * grid.shape.extent.cols = 0 := by
    simpa [Extent.isEmpty, Nat.mul_eq_zero] using empty
  rw [Shape.cells_of_flat higher, none] at full
  rw [List.length_eq_zero_iff.mp full.symm]
  rfl

/-- Text without cells has several rows and no column, or at most one row. -/
theorem columnless_or_low (empty : grid.shape.extent.isEmpty = true) :
    grid.Columnless ∨ grid.shape.extent.rows ≤ 1 := by
  simp only [Extent.isEmpty, Bool.or_eq_true, beq_iff_eq] at empty
  unfold Columnless
  omega

/-- A text grid has just the token that its statement assigns alone, unless it has several rows
and no column. -/
theorem token_iff_assigned : (Value.text grid).token name = .ok token ↔
    (Value.text grid).AssignsToken name token ∧ ¬grid.Columnless := by
  rw [token_eq_ok_iff, Value.AssignsToken, Value.serialize_text, statement_eq_ok_iff,
    body_eq_closed_iff]
  constructor
  · rintro ⟨filled, low, rfl⟩
    refine ⟨⟨⟨filled, ?_⟩, by simp [Token.quoted]⟩, fun tall => Nat.not_le.mpr tall.1 low⟩
    cases empty : grid.shape.extent.isEmpty with
    | true => exact .inl ⟨rfl, (quoted_of_empty filled empty).symm⟩
    | false =>
      have row : grid.shape.extent.rows = 1 := by
        simp only [Extent.isEmpty, Bool.or_eq_false_iff, beq_eq_false_iff_ne] at empty
        omega
      exact .inr ⟨rfl, row, rfl⟩
  · rintro ⟨⟨⟨filled, ⟨empty, rfl⟩ | ⟨_, row, rfl⟩⟩, _⟩, columned⟩
    · exact ⟨filled, (columnless_or_low empty).resolve_left columned, quoted_of_empty filled empty⟩
    · exact ⟨filled, Nat.le_of_eq row, rfl⟩

end TextGrid

theorem Collection.serialize_of_tokens {α : Type} {name : String} {rows cols : Nat} {entries : List α}
    {value : α → Value} {token : α → String} (full : rows * cols = entries.length)
    (same : OneKind (entries.map value))
    (tokens : ∀ entry ∈ entries, (value entry).token name = .ok (token entry)) :
    (Value.collection rows cols (entries.map value)).serialize name =
      .ok (name ++ " = " ++ literal cols (entries.map token) ++ ";\n") := by
  have all : (entries.map value).mapM (Value.token name) = .ok (entries.map token) := by
    rw [List.mapM_map]
    exact mapM_of_forall tokens
  apply Value.serialize_collection
  rw [statement_of_oneKind name (full.trans (List.length_map _).symm) same, all]
  rfl

/-- Number grids have just the tokens that their statements assign alone, and so have text grids
that do not have several rows and no column. These can also stand in collections, under the same
tokens. -/
theorem token_iff_alone (name : String) :
    (∀ (grid : NumericGrid) (token : String), (Value.numeric grid).token name = .ok token ↔
      (Value.numeric grid).AssignsToken name token) ∧
    (∀ (grid : TextGrid) (token : String), (Value.text grid).token name = .ok token ↔
      (Value.text grid).AssignsToken name token ∧ ¬grid.Columnless) ∧
    ∀ (rows cols : Nat) (entries : List (TextGrid × String)), rows * cols = entries.length →
      (∀ entry ∈ entries, (Value.text entry.1).AssignsToken name entry.2 ∧ ¬entry.1.Columnless) →
      (Value.collection rows cols (entries.map fun entry => .text entry.1)).serialize name =
        .ok (name ++ " = " ++ Collection.literal cols (entries.map fun entry => entry.2) ++ ";\n") := by
  refine ⟨fun _ _ => NumericGrid.token_iff_assigned, fun _ _ => TextGrid.token_iff_assigned, ?_⟩
  intro rows cols entries full assigned
  apply Collection.serialize_of_tokens full
  · intro left inLeft right inRight
    obtain ⟨_, _, rfl⟩ := List.mem_map.mp inLeft
    obtain ⟨_, _, rfl⟩ := List.mem_map.mp inRight
    rfl
  · exact fun entry member => TextGrid.token_iff_assigned.mpr (assigned entry member)

/-- Text of no row and four columns beside text of one character. -/
theorem token_iff_alone_of_texts :
    let entries : List (TextGrid × String) := [(⟨[0, 4], []⟩, "''"), (⟨[1, 1, 1], ['a']⟩, "'a'")]
    1 * 2 = entries.length ∧
      (∀ entry ∈ entries, (Value.text entry.1).AssignsToken "x" entry.2 ∧ ¬entry.1.Columnless) ∧
      (Value.collection 1 2 (entries.map fun entry => .text entry.1)).serialize "x" =
        .ok ("x" ++ " = " ++ Collection.literal 2 (entries.map fun entry => entry.2) ++ ";\n") := by
  intro entries
  have full : 1 * 2 = entries.length := rfl
  have assigned : ∀ entry ∈ entries,
      (Value.text entry.1).AssignsToken "x" entry.2 ∧ ¬entry.1.Columnless := by
    intro entry member
    simp only [entries, List.mem_cons, List.not_mem_nil, or_false] at member
    rcases member with rfl | rfl <;> exact ⟨⟨rfl, by decide⟩, by decide⟩
  exact ⟨full, assigned, (token_iff_alone "x").2.2 1 2 entries full assigned⟩

/-- Three rows without a column are assigned two quotes, like any text without cells, and yet have
no token. -/
theorem columnless_without_token :
    let grid : TextGrid := ⟨[3, 0], []⟩
    TextGrid.ofRows ["", "", ""] = .ok grid ∧
      (Value.text grid).serialize "x" = .ok "x = '';\n" ∧
      (Value.text grid).token "x" = .error (.unsupportedType "x" "char") ∧
      ¬((Value.text grid).token "x" = .ok "''" ↔ (Value.text grid).AssignsToken "x" "''") := by
  refine ⟨rfl, rfl, rfl, ?_⟩
  intro same
  cases same.mpr ⟨rfl, by decide⟩

end ValueScript
