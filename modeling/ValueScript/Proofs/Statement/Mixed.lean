import ValueScript.Proofs.Statement.Outcome

namespace ValueScript

namespace Value

/-- Whether two values are the same sort of value. A record and a list of records are, number grids
are when their cells have one type, and unsupported values when they have one class. -/
def Alike : Value → Value → Prop
  | .record _, .record _ | .record _, .records _ | .records _, .record _ | .records _, .records _ =>
    True
  | .numeric ⟨_, .float _⟩, .numeric ⟨_, .float _⟩ => True
  | .numeric ⟨_, .int _⟩, .numeric ⟨_, .int _⟩ => True
  | .numeric ⟨_, .logical _⟩, .numeric ⟨_, .logical _⟩ => True
  | .text _, .text _ => True
  | .collection .., .collection .. => True
  | .unsupported left, .unsupported right => left = right
  | _, _ => False

theorem kind_eq_iff_alike {left right : Value} : left.kind = right.kind ↔ left.Alike right := by
  rcases left with _ | _ | ⟨_, _ | _ | _⟩ | _ | _ | _ <;>
    rcases right with _ | _ | ⟨_, _ | _ | _⟩ | _ | _ | _ <;> simp [kind, Elements.kind, Alike]

end Value

namespace Collection

theorem firstOther_eq_some {kind found : Kind} {index place : Nat} {items : List Value}
    (other : firstOther kind index items = some (place, found)) :
    ∃ before entry after, items = before ++ entry :: after ∧ place = index + before.length ∧
      (∀ earlier ∈ before, earlier.kind = kind) ∧ entry.kind = found ∧ found ≠ kind := by
  induction items generalizing index with
  | nil => cases other
  | cons item rest ih =>
    rw [firstOther] at other
    split at other
    next same =>
      obtain ⟨before, entry, after, rfl, rfl, alike, kinds⟩ := ih other
      refine ⟨item :: before, entry, after, rfl, ?_, List.forall_mem_cons.mpr ⟨same, alike⟩, kinds⟩
      rw [List.length_cons]
      omega
    next apart =>
      cases other
      exact ⟨[], item, rest, rfl, rfl, List.forall_mem_nil _, rfl, apart⟩

/-- Where a notice says that an entry of another kind stands, counted from zero and row by row. -/
def place (cols : Nat) (warning : Warning) : Nat :=
  (warning.row - 1) * cols + (warning.col - 1)

/-- Whether a notice points at the first entry that is not of the first entry's kind. -/
structure Locates (rows cols : Nat) (items : List Value) (warning : Warning) : Prop where
  row_bounds : 1 ≤ warning.row ∧ warning.row ≤ rows
  col_bounds : 1 ≤ warning.col ∧ warning.col ≤ cols
  first : ∃ entry, items.head? = some entry ∧ entry.kind = warning.first
  found : ∃ entry, items[place cols warning]? = some entry ∧ entry.kind = warning.found
  apart : warning.found ≠ warning.first
  before : ∀ earlier < place cols warning,
    ∃ entry, items[earlier]? = some entry ∧ entry.kind = warning.first

theorem locates_of_notice {name : String} {rows cols : Nat} {items : List Value} {warning : Warning}
    (full : rows * cols = items.length) (mixed : notice? name cols items = some warning) :
    Locates rows cols items warning := by
  cases items with
  | nil => cases mixed
  | cons first rest =>
    rw [notice?_cons] at mixed
    obtain ⟨⟨index, found⟩, other, rfl⟩ := Option.map_eq_some_iff.mp mixed
    obtain ⟨before, entry, after, split, counted, alike, kind, apart⟩ := firstOther_eq_some other
    rw [Nat.zero_add] at counted
    have inside : index < rows * cols := by
      rw [full, split, List.length_append, List.length_cons]
      omega
    have wide : 0 < cols := Nat.pos_of_mul_pos_left (Nat.zero_lt_of_lt inside)
    have here : place cols ⟨name, first.kind, found, index / cols + 1, index % cols + 1⟩ = index :=
      Nat.div_add_mod' index cols
    refine ⟨⟨Nat.succ_pos _, ?_⟩, ⟨Nat.succ_pos _, Nat.mod_lt index wide⟩, ⟨first, rfl, rfl⟩, ?_, apart, ?_⟩
    · exact Nat.div_lt_of_lt_mul (Nat.mul_comm rows cols ▸ inside)
    · rw [here, split, counted]
      exact ⟨entry, by simp, kind⟩
    · intro earlier sooner
      rw [here, counted] at sooner
      rw [split, List.getElem?_append_left sooner]
      exact ⟨before[earlier], List.getElem?_eq_getElem sooner, alike _ (List.getElem_mem sooner)⟩

/-- There is a notice exactly when some entry is not the same sort of value as the first. -/
theorem exists_notice_iff {name : String} {cols : Nat} {items : List Value} :
    (∃ warning, notice? name cols items = some warning) ↔
      ∃ first ∈ items.head?, ∃ entry ∈ items, ¬first.Alike entry := by
  cases items with
  | nil => simp [notice?]
  | cons first rest =>
    have same (entry : Value) : entry.kind = first.kind ↔ first.Alike entry :=
      eq_comm.trans Value.kind_eq_iff_alike
    rw [← Option.ne_none_iff_exists', notice?_cons, Ne, Option.map_eq_none_iff,
      firstOther_eq_none_iff]
    simp only [same, Classical.not_forall, exists_prop, List.head?_cons, Option.mem_some_iff,
      exists_eq_left']

/-- Entries that fill a collection have a notice in place of a statement whenever they give one. -/
theorem statement_eq_notice_iff {name : String} {rows cols : Nat} {items : List Value}
    {warning : Warning} (full : rows * cols = items.length) :
    statement name rows cols items = .ok (.error warning) ↔
      notice? name cols items = some warning := by
  constructor
  · intro written
    rw [statement_eq] at written
    obtain ⟨_, _, decided⟩ := bind_eq_ok written
    cases mixed : notice? name cols items with
    | some given =>
      rw [mixed] at decided
      cases decided
      rfl
    | none =>
      rw [mixed] at decided
      obtain ⟨tokens, _, text⟩ := bind_eq_ok decided
      cases text
  · exact statement_of_notice full

/-- A collection whose entries fill its rows and columns gives a notice, and no fault, exactly when
some entry is not the same sort of value as the first; the notice points at the first such entry. -/
theorem mixed_iff_located (name : String) {rows cols : Nat} {items : List Value}
    (full : rows * cols = items.length) :
    ((∃ warning, statement name rows cols items = .ok (.error warning)) ↔
      ∃ first ∈ items.head?, ∃ entry ∈ items, ¬first.Alike entry) ∧
    ∀ warning, statement name rows cols items = .ok (.error warning) →
      warning.name = name ∧ Locates rows cols items warning := by
  constructor
  · rw [← exists_notice_iff]
    exact exists_congr fun warning => statement_eq_notice_iff full
  · intro warning written
    have mixed := (statement_eq_notice_iff full).mp written
    exact ⟨name_of_notice mixed, locates_of_notice full mixed⟩

/-- Text whose characters do not fill its shape, and an unsupported value whose class is shown like
text: the notice points at the latter, in the second row. -/
theorem mixed_iff_located_of_lookalike :
    let items : List Value := [.ofString "a", .text ⟨[2, 2], ['b']⟩, .unsupported "char", .record []]
    2 * 2 = items.length ∧
      statement "c" 2 2 items = .ok (.error ⟨"c", .text, .unsupported "char", 2, 1⟩) ∧
      Locates 2 2 items ⟨"c", .text, .unsupported "char", 2, 1⟩ := by
  intro items
  have full : 2 * 2 = items.length := rfl
  have written : statement "c" 2 2 items = .ok (.error ⟨"c", .text, .unsupported "char", 2, 1⟩) := rfl
  exact ⟨full, written, ((mixed_iff_located "c" full).2 _ written).2⟩

end Collection

end ValueScript
