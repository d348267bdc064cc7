import Std.Data.String.ToNat
import ValueScript.Proofs.Assignment
import ValueScript.Proofs.Delimited
import ValueScript.Proofs.Emission.Leaves

/-! Names of nodes. A name goes on with a dot or a bracket at each step into a value, so that the
names below two different labels or two different indices have nothing in common. -/

namespace ValueScript

namespace Name

/-- The characters that begin a step. -/
def opensStep (char : Char) : Bool := char = '.' ∨ char = '('

/-- The names of the nodes inside a node: its own name and then a step. -/
def Inside (inner outer : String) : Prop :=
  (outer ++ ".").toList <+: inner.toList ∨ (outer ++ "(").toList <+: inner.toList

/-- A node's own name, or that of a node inside it. -/
def Within (inner outer : String) : Prop := inner = outer ∨ Inside inner outer

/-- What may follow a name: nothing or a step. -/
def Steps (tail : List Char) : Prop := Stops (fun char => !opensStep char) tail

theorem inside_iff {inner outer : String} :
    Inside inner outer ↔
      ∃ tail, inner.toList = outer.toList ++ tail ∧ Steps tail ∧ tail ≠ [] := by
  constructor
  · rintro (⟨rest, same⟩ | ⟨rest, same⟩)
    · exact ⟨'.' :: rest, by simp [← same], Stops.cons rfl rest, List.cons_ne_nil _ _⟩
    · exact ⟨'(' :: rest, by simp [← same], Stops.cons rfl rest, List.cons_ne_nil _ _⟩
  · rintro ⟨tail, same, steps, nonempty⟩
    cases tail with
    | nil => exact absurd rfl nonempty
    | cons char rest =>
      have step : opensStep char = true := by simpa using steps char rfl
      have cases : char = '.' ∨ char = '(' := by simpa [opensStep] using step
      rcases cases with rfl | rfl
      · exact .inl ⟨rest, by simp [same]⟩
      · exact .inr ⟨rest, by simp [same]⟩

theorem within_iff {inner outer : String} :
    Within inner outer ↔ ∃ tail, inner.toList = outer.toList ++ tail ∧ Steps tail := by
  rw [Within, inside_iff]
  constructor
  · rintro (rfl | ⟨tail, same, steps, _⟩)
    · exact ⟨[], by simp, Stops.nil⟩
    · exact ⟨tail, same, steps⟩
  · rintro ⟨tail, same, steps⟩
    by_cases none : tail = []
    · subst none
      exact .inl (String.toList_injective (by simpa using same))
    · exact .inr ⟨tail, same, steps, none⟩

theorem Within.trans {inner middle outer : String} (first : Within inner middle)
    (second : Within middle outer) : Within inner outer := by
  obtain ⟨tail, same, steps⟩ := within_iff.mp first
  obtain ⟨tail', same', steps'⟩ := within_iff.mp second
  exact within_iff.mpr ⟨tail' ++ tail, by simp [same, same'], steps'.append steps⟩

theorem Inside.length_lt {inner outer : String} (inside : Inside inner outer) :
    outer.length < inner.length := by
  obtain ⟨tail, same, _, nonempty⟩ := inside_iff.mp inside
  have longer := congrArg List.length same
  have positive := List.length_pos_iff.mpr nonempty
  simp only [List.length_append, String.length_toList] at longer
  omega

theorem Within.inside {inner middle outer : String} (first : Within inner middle)
    (second : Inside middle outer) : Inside inner outer := by
  rcases first.trans (.inr second) with rfl | inside
  · rcases first with rfl | back
    · exact second
    · have := back.length_lt
      have := second.length_lt
      omega
  · exact inside

theorem field_inside (parent label : String) : Inside (field parent label) parent :=
  .inl ⟨label.toList, by simp [field]⟩

theorem indexed_inside (parent : String) (index : Nat) : Inside (indexed parent index) parent :=
  .inr ⟨index.repr.toList ++ [')'], by simp [indexed]⟩

/-- Whether a label holds no character that begins a step. -/
def Stepless (label : String) : Prop := '.' ∉ label.toList ∧ '(' ∉ label.toList

instance (label : String) : Decidable (Stepless label) :=
  inferInstanceAs (Decidable ('.' ∉ label.toList ∧ '(' ∉ label.toList))

theorem Stepless.inside {label : String} (stepless : Stepless label) :
    ∀ char ∈ label.toList, (!opensStep char) = true := by
  intro char member
  have dot : char ≠ '.' := fun same => stepless.1 (same ▸ member)
  have bracket : char ≠ '(' := fun same => stepless.2 (same ▸ member)
  simp [opensStep, dot, bracket]

theorem label_eq_of_within {name parent label other : String} (stepless : Stepless label)
    (stepless' : Stepless other) (below : Within name (field parent label))
    (below' : Within name (field parent other)) : label = other := by
  obtain ⟨tail, same, steps⟩ := within_iff.mp below
  obtain ⟨tail', same', steps'⟩ := within_iff.mp below'
  have both : label.toList ++ tail = other.toList ++ tail' := by
    simpa [field] using same.symm.trans same'
  exact String.toList_injective
    (front_eq_of_delimited both stepless.inside stepless'.inside steps steps')

theorem index_eq_of_within {name parent : String} {index other : Nat}
    (below : Within name (indexed parent index)) (below' : Within name (indexed parent other)) :
    index = other := by
  obtain ⟨tail, same, _⟩ := within_iff.mp below
  obtain ⟨tail', same', _⟩ := within_iff.mp below'
  have both : index.repr.toList ++ ')' :: tail = other.repr.toList ++ ')' :: tail' := by
    simpa [indexed] using same.symm.trans same'
  have digits (number : Nat) : ∀ char ∈ number.repr.toList, char.isDigit = true := by
    intro char member
    have digit : char ∈ Nat.toDigits 10 number := by simpa [Nat.repr] using member
    exact Nat.isDigit_of_mem_toDigits (by decide) (by decide) digit
  have equal := front_eq_of_delimited both (digits index) (digits other)
    (Stops.cons rfl tail) (Stops.cons rfl tail')
  exact Nat.repr_injective (String.toList_injective equal)

end Name

/-- Two rows of one outline do not collide: their names differ, and neither lies inside the other
where that is a leaf. -/
def Node.Apart (row other : Node) : Prop :=
  row.name ≠ other.name ∧ (row.isLeaf → ¬Name.Inside other.name row.name) ∧
    (other.isLeaf → ¬Name.Inside row.name other.name)

open Name

/-- Rows below names that have nothing below them in common do not collide. -/
theorem Node.apart_of_within {row other : Node} {parent parent' : String}
    (below : Within row.name parent) (below' : Within other.name parent')
    (disjoint : ∀ name, Within name parent → ¬Within name parent') : row.Apart other := by
  refine ⟨?_, ?_, ?_⟩
  · intro same
    exact disjoint row.name below (same ▸ below')
  · intro _ inside
    exact disjoint other.name (Within.trans (.inr inside) below) below'
  · intro _ inside
    exact disjoint row.name below (Within.trans (.inr inside) below')

theorem Node.apart_of_inside {row other : Node} (inner : row.isLeaf = false)
    (inside : Inside other.name row.name) : row.Apart other := by
  have longer := inside.length_lt
  refine ⟨?_, ?_, ?_⟩
  · intro same
    rw [same] at longer
    omega
  · intro leaf
    rw [inner] at leaf
    cases leaf
  · intro _ back
    have := back.length_lt
    omega

namespace Value

/-- No label anywhere in the value holds a dot or an opening bracket, and no record repeats a
label. -/
def Tidy (value : Value) : Prop :=
  ∀ part ∈ value.parts, part.labels.Nodup ∧ ∀ label ∈ part.labels, Stepless label

instance (value : Value) : Decidable value.Tidy :=
  inferInstanceAs (Decidable (∀ part ∈ value.parts,
    part.labels.Nodup ∧ ∀ label ∈ part.labels, Stepless label))

theorem Tidy.field {fields : List (String × Value)} (tidy : (record fields).Tidy)
    {field : String × Value} (member : field ∈ fields) : field.2.Tidy :=
  fun part inside => tidy part (mem_parts_of_field member inside)

theorem Tidy.element {elements : List (List (String × Value))} (tidy : (records elements).Tidy)
    {fields : List (String × Value)} (member : fields ∈ elements) : (record fields).Tidy :=
  fun part inside => tidy part (mem_parts_of_element member inside)

/-- The rows of an outline lie at or inside the name and do not collide. -/
structure WellNamed (name : String) (rows : List Node) : Prop where
  within : ∀ row ∈ rows, Within row.name name
  apart : rows.Pairwise Node.Apart

theorem WellNamed.cons {name : String} {row : Node} {rows : List Node} (named : row.name = name)
    (inner : row.isLeaf = false) (inside : ∀ other ∈ rows, Inside other.name name)
    (apart : rows.Pairwise Node.Apart) : WellNamed name (row :: rows) := by
  constructor
  · intro other member
    rcases List.mem_cons.mp member with rfl | later
    · exact .inl named
    · exact .inr (inside other later)
  · refine List.pairwise_cons.mpr ⟨?_, apart⟩
    intro other member
    exact Node.apart_of_inside inner (named ▸ inside other member)

theorem WellNamed.singleton {name : String} {row : Node} (named : row.name = name) :
    WellNamed name [row] := by
  constructor
  · intro other member
    rw [List.mem_singleton.mp member]
    exact .inl named
  · exact List.pairwise_singleton ..

/-- The rows of a record's fields: each lies at or inside the name of its field. -/
private theorem outlineFields_wellNamed {fields : List (String × Value)}
    (distinct : (Fields.labels fields).Nodup) (stepless : ∀ label ∈ Fields.labels fields, Stepless label)
    (entries : ∀ field ∈ fields, ∀ name, WellNamed name (field.2.outline name)) (name : String) :
    (∀ row ∈ outlineFields name fields,
      ∃ label ∈ Fields.labels fields, Within row.name (Name.field name label)) ∧
    (outlineFields name fields).Pairwise Node.Apart := by
  induction fields with
  | nil => exact ⟨nofun, List.Pairwise.nil⟩
  | cons field rest ih =>
    obtain ⟨label, entry⟩ := field
    obtain ⟨fresh, others⟩ := List.nodup_cons.mp distinct
    have first := entries _ (List.mem_cons_self ..) (Name.field name label)
    obtain ⟨below, apart⟩ := ih others (fun other member => stepless other (List.mem_cons_of_mem _ member))
      (fun other member => entries other (List.mem_cons_of_mem _ member))
    constructor
    · intro row member
      rcases List.mem_append.mp member with here | later
      · exact ⟨label, List.mem_cons_self, first.within row here⟩
      · obtain ⟨other, known, within⟩ := below row later
        exact ⟨other, List.mem_cons_of_mem _ known, within⟩
    · refine List.pairwise_append.mpr ⟨first.apart, apart, ?_⟩
      intro row here other later
      obtain ⟨label', known, within⟩ := below other later
      refine Node.apart_of_within (first.within row here) within ?_
      intro shared left right
      have same := label_eq_of_within (stepless label (List.mem_cons_self ..))
        (stepless label' (List.mem_cons_of_mem _ known)) left right
      exact fresh (same ▸ known)

private theorem outline_record_wellNamed {fields : List (String × Value)}
    (tidy : (record fields).Tidy)
    (entries : ∀ field ∈ fields, ∀ name, WellNamed name (field.2.outline name)) (name : String)
    {row : Node} (named : row.name = name) (inner : row.isLeaf = false) :
    WellNamed name (row :: outlineFields name fields) := by
  obtain ⟨distinct, stepless⟩ := tidy _ (mem_parts_self _)
  obtain ⟨below, apart⟩ := outlineFields_wellNamed distinct stepless entries name
  refine WellNamed.cons named inner ?_ apart
  intro other member
  obtain ⟨label, _, within⟩ := below other member
  exact within.inside (field_inside name label)

/-- The rows of elements counted from `index`: each lies at or inside the name of its element. -/
private theorem outlineElements_wellNamed {elements : List (List (String × Value))}
    (tidy : ∀ fields ∈ elements, (record fields).Tidy)
    (entries : ∀ fields ∈ elements, ∀ field ∈ fields, ∀ name, WellNamed name (field.2.outline name))
    (name : String) (index : Nat) :
    (∀ row ∈ outlineElements name index elements,
      ∃ place, index ≤ place ∧ Within row.name (indexed name place)) ∧
    (outlineElements name index elements).Pairwise Node.Apart := by
  induction elements generalizing index with
  | nil => exact ⟨nofun, List.Pairwise.nil⟩
  | cons fields rest ih =>
    obtain ⟨below, apart⟩ := ih (fun other member => tidy other (List.mem_cons_of_mem _ member))
      (fun other member => entries other (List.mem_cons_of_mem _ member)) (index + 1)
    have first : WellNamed (indexed name index)
        (⟨indexed name index, .record, [1, 1]⟩ :: outlineFields (indexed name index) fields) :=
      outline_record_wellNamed (tidy fields List.mem_cons_self) (entries fields List.mem_cons_self)
        (indexed name index) rfl rfl
    have whole : outlineElements name index (fields :: rest) =
        (⟨indexed name index, .record, [1, 1]⟩ :: outlineFields (indexed name index) fields) ++
          outlineElements name (index + 1) rest := rfl
    rw [whole]
    constructor
    · intro row member
      rcases List.mem_append.mp member with here | later
      · exact ⟨index, Nat.le_refl _, first.within row here⟩
      · obtain ⟨place, after, within⟩ := below row later
        exact ⟨place, Nat.le_of_succ_le after, within⟩
    · refine List.pairwise_append.mpr ⟨first.apart, apart, ?_⟩
      intro row here other later
      obtain ⟨place, after, within⟩ := below other later
      refine Node.apart_of_within (first.within row here) within ?_
      intro shared left right
      have same := index_eq_of_within left right
      omega

/-- Every row of an outline lies at or inside the root name, and no two rows collide. -/
theorem outline_wellNamed (value : Value) (tidy : value.Tidy) (name : String) :
    WellNamed name (value.outline name) := by
  induction value generalizing name with
  | record fields ih =>
    exact outline_record_wellNamed tidy (fun field member => ih field member (tidy.field member))
      name rfl rfl
  | records elements ih =>
    have entries : ∀ fields ∈ elements, ∀ field ∈ fields, ∀ name,
        WellNamed name (field.2.outline name) := fun fields member field inner =>
      ih fields member field inner ((tidy.element member).field inner)
    match elements with
    | [] => exact WellNamed.singleton rfl
    -- A single element takes the name of its list and adds no step.
    | [only] =>
      exact outline_record_wellNamed (tidy.element List.mem_cons_self)
        (entries only List.mem_cons_self) name rfl rfl
    | _ :: _ :: _ =>
      obtain ⟨below, apart⟩ := outlineElements_wellNamed (fun _ member => tidy.element member)
        entries name 1
      refine WellNamed.cons rfl rfl ?_ apart
      intro row member
      obtain ⟨place, _, within⟩ := below row member
      exact within.inside (indexed_inside name place)
  | numeric _ | text _ | collection _ _ _ _ | unsupported _ => exact WellNamed.singleton rfl

private theorem pairwise_visits {name : String} {value : Value} (tidy : value.Tidy) :
    (value.visits name 0).Pairwise fun visit other =>
      visit.isLeaf → other.isLeaf → visit.row.Apart other.row := by
  have apart := (outline_wellNamed value tidy name).apart.filter Node.isLeaf
  rw [← (Agree.of_value value name 0).rows_eq, List.pairwise_map, List.pairwise_filter] at apart
  exact apart

private theorem leaf_of_assignment? {visit : Visit} {assignment : Assignment}
    (assigned : visit.value.assignment? visit.name = some assignment) : visit.isLeaf = true := by
  obtain ⟨name, depth, value⟩ := visit
  cases value with
  | record _ | records _ | unsupported _ => cases assigned
  | numeric grid =>
    obtain ⟨shape, cells⟩ := grid
    cases cells <;> rfl
  | text _ | collection _ _ _ => rfl

/-- The names that one script assigns are distinct, and none of them lies inside another. -/
theorem assignments_apart {name : String} {value : Value} (tidy : value.Tidy) :
    (value.assignments name).Pairwise fun earlier later =>
      earlier.name ≠ later.name ∧ ¬Inside later.name earlier.name := by
  rw [assignments, List.pairwise_filterMap]
  refine (pairwise_visits tidy).imp ?_
  intro visit other apart assignment assigned assignment' assigned'
  have leaf := leaf_of_assignment? assigned
  have rows := apart leaf (leaf_of_assignment? assigned')
  rw [name_of_assignment? assigned, name_of_assignment? assigned']
  exact ⟨rows.1, rows.2.1 leaf⟩

/-- No row of an outline lies inside a leaf. -/
theorem outline_not_inside_leaf {name : String} {value : Value} (tidy : value.Tidy) {leaf row : Node}
    (listed : leaf ∈ value.outline name) (listed' : row ∈ value.outline name) (isLeaf : leaf.isLeaf) :
    ¬Inside row.name leaf.name := by
  have apart := (outline_wellNamed value tidy name).apart
  have all := List.Pairwise.forall_of_forall_of_flip
    (R := fun leaf row : Node => leaf.isLeaf → ¬Inside row.name leaf.name)
    (fun row _ _ inside => Nat.lt_irrefl _ inside.length_lt)
    (apart.imp fun both => both.2.1) (apart.imp fun both => both.2.2)
  exact all listed listed' isLeaf

/-- The names of an outline are distinct and none lies inside a leaf. So a script is a sequence of
statements none of which assigns a name that was assigned before it, or a name inside such a
one. -/
theorem names_never_collide (root : String) (value : Value) (tidy : value.Tidy) :
    ((value.outline root).map Node.name).Nodup ∧
    (∀ leaf ∈ value.outline root, leaf.isLeaf → ∀ row ∈ value.outline root,
      ¬Inside row.name leaf.name) ∧
    ∀ limit script, value.script limit root = .ok script →
      script.text = String.join ((value.assignments root).map Assignment.statement) ∧
      (∀ assignment ∈ value.assignments root,
        ∃ right, assignment.statement = assignment.name ++ " = " ++ right) ∧
      (value.assignments root).Pairwise fun earlier later =>
        earlier.name ≠ later.name ∧ ¬Inside later.name earlier.name := by
  refine ⟨?_, ?_, ?_⟩
  · have apart := (outline_wellNamed value tidy root).apart
    exact List.pairwise_map.mpr (apart.imp fun both => both.1)
  · intro leaf listed isLeaf row listed'
    exact outline_not_inside_leaf tidy listed listed' isLeaf
  · intro limit script written
    refine ⟨text_of_script written, ?_, assignments_apart tidy⟩
    intro assignment _
    exact ⟨_, assignment.statement_eq⟩

/-- Labels may be empty or hold brackets and digits that look like the end of an index. -/
theorem names_never_collide_of_lookalikes :
    let value : Value := .record [
      ("", .records [[("1)", .ofInt 7)], [("1)", .ofInt 8)]]),
      ("1)", .ofRow [.ofString "a"])]
    value.Tidy ∧ ((value.outline "x(1)").map Node.name).Nodup := by
  intro value
  have tidy : value.Tidy := by decide
  exact ⟨tidy, (names_never_collide "x(1)" value tidy).1⟩

end Value

end ValueScript
