import Mathlib.Data.List.Forall2
import ValueScript.Proofs.Emission.Limit

/-! Lists of one record. Such a list means the same as its record: a tree in which records stand for
all of them has the same outline, and its scripts differ only in that they need no deeper limit. -/

namespace ValueScript

namespace Value

mutual

/-- The value with its record in the place of every list of one record, anywhere in the tree. -/
def collapse : Value → Value
  | .record fields => .record (collapseFields fields)
  | .records [fields] => .record (collapseFields fields)
  | .records elements => .records (collapseElements elements)
  | .numeric grid => .numeric grid
  | .text grid => .text grid
  | .collection rows cols items => .collection rows cols (collapseItems items)
  | .unsupported cls => .unsupported cls

def collapseFields : List (String × Value) → List (String × Value)
  | [] => []
  | (label, entry) :: rest => (label, collapse entry) :: collapseFields rest

def collapseElements : List (List (String × Value)) → List (List (String × Value))
  | [] => []
  | fields :: rest => collapseFields fields :: collapseElements rest

def collapseItems : List Value → List Value
  | [] => []
  | item :: rest => collapse item :: collapseItems rest

end

theorem collapseFields_eq_map (fields : List (String × Value)) :
    collapseFields fields = fields.map fun field => (field.1, field.2.collapse) := by
  induction fields with
  | nil => rfl
  | cons field rest ih =>
    obtain ⟨label, entry⟩ := field
    rw [collapseFields, ih, List.map_cons]

theorem collapseElements_eq_map (elements : List (List (String × Value))) :
    collapseElements elements = elements.map collapseFields := by
  induction elements with
  | nil => rfl
  | cons fields rest ih => rw [collapseElements, ih, List.map_cons]

theorem collapseItems_eq_map (items : List Value) : collapseItems items = items.map collapse := by
  induction items with
  | nil => rfl
  | cons item rest ih => rw [collapseItems, ih, List.map_cons]

theorem collapse_of_several (first second : List (String × Value))
    (rest : List (List (String × Value))) :
    (records (first :: second :: rest)).collapse =
      .records ((first :: second :: rest).map collapseFields) := by
  rw [← collapseElements_eq_map]
  rfl

/-- No list of one record is left anywhere. -/
theorem ne_singleton_of_collapse (value : Value) :
    ∀ part ∈ value.collapse.parts, ∀ fields, part ≠ .records [fields] := by
  have ofFields {fields : List (String × Value)}
      (entries : ∀ field ∈ fields, ∀ part ∈ field.2.collapse.parts, ∀ only, part ≠ .records [only]) :
      ∀ part ∈ (record (collapseFields fields)).parts, ∀ only, part ≠ .records [only] := by
    refine forall_parts_record (fun _ => nofun) ?_
    rw [collapseFields_eq_map]
    exact List.forall_mem_map.mpr entries
  induction value with
  | record fields ih => exact ofFields ih
  | records elements ih =>
    match elements with
    | [] => exact List.forall_mem_singleton.mpr fun _ => nofun
    | [fields] => exact ofFields (ih fields List.mem_cons_self)
    | first :: second :: rest =>
      rw [collapse_of_several]
      refine forall_parts_records (fun _ => nofun) ?_
      exact List.forall_mem_map.mpr fun fields member => ofFields (ih fields member)
  | numeric _ => exact List.forall_mem_singleton.mpr fun _ => nofun
  | text _ => exact List.forall_mem_singleton.mpr fun _ => nofun
  | collection rows cols items ih =>
    refine forall_parts_collection (fun _ => nofun) ?_
    rw [collapseItems_eq_map]
    exact List.forall_mem_map.mpr ih
  | unsupported _ => exact List.forall_mem_singleton.mpr fun _ => nofun

theorem kind_collapse (value : Value) : value.collapse.kind = value.kind := by
  match value with
  | .record _ | .records [] | .records [_] | .records (_ :: _ :: _) => rfl
  | .numeric _ | .text _ | .collection .. | .unsupported _ => rfl

theorem dims_collapse (value : Value) : value.collapse.dims = value.dims := by
  match value with
  | .record _ | .records [] | .records [_] => rfl
  | .records (first :: second :: rest) =>
    rw [collapse_of_several, dims, dims, List.length_map]
  | .numeric _ | .text _ | .collection .. | .unsupported _ => rfl

theorem token_collapse (name : String) (value : Value) :
    value.collapse.token name = value.token name := by
  match value with
  | .record _ | .records [] | .records [_] | .records (_ :: _ :: _) => rfl
  | .numeric _ | .text _ | .collection .. | .unsupported _ => rfl

private theorem firstOther_collapse (kind : Kind) (index : Nat) (items : List Value) :
    Collection.firstOther kind index (items.map collapse) = Collection.firstOther kind index items := by
  induction items generalizing index with
  | nil => rfl
  | cons item rest ih =>
    rw [List.map_cons, Collection.firstOther, Collection.firstOther, kind_collapse, ih]

private theorem notice?_collapse (name : String) (cols : Nat) (items : List Value) :
    Collection.notice? name cols (items.map collapse) = Collection.notice? name cols items := by
  cases items with
  | nil => rfl
  | cons first rest =>
    have found := firstOther_collapse first.kind 0 (first :: rest)
    rw [List.map_cons] at found
    rw [List.map_cons, Collection.notice?_cons, Collection.notice?_cons, kind_collapse, found]

private theorem statement_collapse (name : String) (rows cols : Nat) (items : List Value) :
    Collection.statement name rows cols (items.map collapse) =
      Collection.statement name rows cols items := by
  have tokens : (items.map collapse).mapM (token name) = items.mapM (token name) := by
    rw [List.mapM_map]
    exact congrArg (items.mapM ·) (funext (token_collapse name))
  rw [Collection.statement_eq, Collection.statement_eq, List.length_map, notice?_collapse, tokens]

/-- What a value contributes itself does not depend on the lists in it. -/
theorem own_collapse (name : String) (value : Value) :
    value.collapse.own name = value.own name := by
  match value with
  | .record _ | .records [] | .records [_] | .records (_ :: _ :: _) => rfl
  | .collection rows cols items =>
    rw [collapse, own, own, collapseItems_eq_map, statement_collapse]
  | .numeric _ | .text _ | .unsupported _ => rfl

private theorem outlineFields_collapse {fields : List (String × Value)}
    (entries : ∀ field ∈ fields, ∀ name, field.2.collapse.outline name = field.2.outline name)
    (name : String) : outlineFields name (collapseFields fields) = outlineFields name fields := by
  rw [collapseFields_eq_map, outlineFields_eq_flatMap, outlineFields_eq_flatMap, List.flatMap_map]
  exact List.flatMap_congr fun field member => entries field member _

private theorem outlineElements_collapse {elements : List (List (String × Value))}
    (entries : ∀ fields ∈ elements, ∀ field ∈ fields, ∀ name,
      field.2.collapse.outline name = field.2.outline name)
    (name : String) (index : Nat) :
    outlineElements name index (elements.map collapseFields) =
      outlineElements name index elements := by
  rw [outlineElements_eq_flatMap, outlineElements_eq_flatMap, List.zipIdx_map, List.flatMap_map]
  refine List.flatMap_congr fun element member => congrArg (List.cons _) ?_
  exact outlineFields_collapse (entries _ (List.fst_mem_of_mem_zipIdx member)) _

theorem outline_collapse (value : Value) (name : String) :
    value.collapse.outline name = value.outline name := by
  induction value generalizing name with
  | record fields ih => exact congrArg (List.cons _) (outlineFields_collapse ih name)
  | records elements ih =>
    match elements with
    | [] => rfl
    | [fields] =>
      exact congrArg (List.cons _) (outlineFields_collapse (ih fields List.mem_cons_self) name)
    | first :: second :: rest =>
      rw [outline.eq_def, kind_collapse, dims_collapse, collapse_of_several, outline.eq_def]
      exact congrArg (List.cons _) (outlineElements_collapse ih name 1)
  | numeric _ => rfl
  | text _ => rfl
  | collection _ _ _ _ => rfl
  | unsupported _ => rfl

end Value

/-- A visit on the way through a collapsed tree in the place of a visit on the way through the tree:
under the same name, and no deeper. -/
structure Visit.Collapsed (visit original : Visit) : Prop where
  name_eq : visit.name = original.name
  depth_le : visit.depth ≤ original.depth
  value_eq : visit.value = original.value.collapse

namespace Value

private theorem fieldVisits_collapse {fields : List (String × Value)}
    (entries : ∀ field ∈ fields, ∀ name depth lower, lower ≤ depth →
      List.Forall₂ Visit.Collapsed (field.2.collapse.visits name lower) (field.2.visits name depth))
    (name : String) {depth lower : Nat} (above : lower ≤ depth) :
    List.Forall₂ Visit.Collapsed (fieldVisits name lower (collapseFields fields))
      (fieldVisits name depth fields) := by
  rw [collapseFields_eq_map, fieldVisits_eq_flatMap, fieldVisits_eq_flatMap, List.flatMap_map]
  exact forall₂_flatMap fun field member => entries field member _ depth lower above

private theorem elementVisits_collapse {elements : List (List (String × Value))}
    (entries : ∀ fields ∈ elements, ∀ field ∈ fields, ∀ name depth lower, lower ≤ depth →
      List.Forall₂ Visit.Collapsed (field.2.collapse.visits name lower) (field.2.visits name depth))
    (name : String) (index : Nat) {depth lower : Nat} (above : lower ≤ depth) :
    List.Forall₂ Visit.Collapsed (elementVisits name index lower (elements.map collapseFields))
      (elementVisits name index depth elements) := by
  rw [elementVisits_eq_flatMap, elementVisits_eq_flatMap, List.zipIdx_map, List.flatMap_map]
  refine forall₂_flatMap fun element member => ?_
  exact fieldVisits_collapse (entries _ (List.fst_mem_of_mem_zipIdx member)) _ above

/-- The way through a collapsed tree is the way through the tree, visit by visit. The fields of a
lone record lie one level below it, and two levels below the list that it is taken from. -/
theorem visits_collapse (value : Value) (name : String) (depth lower : Nat) (above : lower ≤ depth) :
    List.Forall₂ Visit.Collapsed (value.collapse.visits name lower) (value.visits name depth) := by
  induction value generalizing name depth lower with
  | record fields ih =>
    exact .cons ⟨rfl, above, rfl⟩ (fieldVisits_collapse ih name (Nat.succ_le_succ above))
  | records elements ih =>
    match elements with
    | [] => exact .cons ⟨rfl, above, rfl⟩ .nil
    | [fields] =>
      have deeper : lower + 1 ≤ depth + 2 := by omega
      have inner := fieldVisits_collapse (ih fields List.mem_cons_self) name deeper
      exact .cons ⟨rfl, above, rfl⟩ inner
    | first :: second :: rest =>
      have deeper : lower + 2 ≤ depth + 2 := by omega
      have inner := elementVisits_collapse ih name 1 deeper
      refine .cons ⟨rfl, above, rfl⟩ ?_
      rw [← collapseElements_eq_map] at inner
      exact inner
  | numeric _ => exact .cons ⟨rfl, above, rfl⟩ .nil
  | text _ => exact .cons ⟨rfl, above, rfl⟩ .nil
  | collection _ _ _ _ => exact .cons ⟨rfl, above, rfl⟩ .nil
  | unsupported _ => exact .cons ⟨rfl, above, rfl⟩ .nil

end Value

namespace Visit.Collapsed

variable {visit original : Visit} {visits originals : List Visit}

theorem own_eq (collapsed : visit.Collapsed original) : visit.own = original.own := by
  rw [Visit.own, Visit.own, collapsed.value_eq, collapsed.name_eq, Value.own_collapse]

theorem fault?_eq (collapsed : visit.Collapsed original) :
    visit.value.fault? visit.name = original.value.fault? original.name := by
  have own : failure? visit.own = failure? original.own := congrArg failure? collapsed.own_eq
  rwa [Visit.own, Visit.own, Value.failure?_own, Value.failure?_own] at own

theorem collect_eq (collapsed : List.Forall₂ Collapsed visits originals) :
    Script.collect Visit.own visits = Script.collect Visit.own originals := by
  induction collapsed with
  | nil => rfl
  | cons first _ ih => rw [Script.collect_cons, Script.collect_cons, first.own_eq, ih]

theorem deepest_le (collapsed : List.Forall₂ Collapsed visits originals) :
    deepest visits ≤ deepest originals := by
  induction collapsed with
  | nil => exact Nat.le_refl 0
  | cons first _ ih =>
    have depth := first.depth_le
    rw [deepest, deepest, first.fault?_eq]
    split
    · exact depth
    · omega

end Visit.Collapsed

namespace Value

theorem leastLimit_collapse_le (value : Value) : value.collapse.leastLimit ≤ value.leastLimit :=
  Visit.Collapsed.deepest_le (visits_collapse value "" 0 0 (Nat.le_refl 0))

/-- When records stand for all lists of one record, no such list is left, and nothing else changes
that an outline or a script shows: the outline is the same, and so is the outcome of a script under
every limit that the tree itself does not exceed. -/
theorem outline_and_script_of_collapse (value : Value) (name : String) :
    (∀ part ∈ value.collapse.parts, ∀ fields, part ≠ .records [fields]) ∧
      value.collapse.outline name = value.outline name ∧
      ∀ limit, value.script limit name = .error (.depthExceeded limit) ∨
        value.collapse.script limit name = value.script limit name := by
  refine ⟨ne_singleton_of_collapse value, outline_collapse value name, fun limit => ?_⟩
  rw [script_eq_of_limit, script_eq_of_limit]
  by_cases short : limit < value.leastLimit
  · exact .inl (if_pos short)
  · right
    have enough : ¬limit < value.collapse.leastLimit := by
      have lower := leastLimit_collapse_le value
      omega
    rw [if_neg short, if_neg enough]
    exact Visit.Collapsed.collect_eq (visits_collapse value name 0 0 (Nat.le_refl 0))

/-- A list of one record in a field, one inside an element of a longer list, and one in a
collection. -/
theorem outline_and_script_of_lone_records :
    let value : Value := .record [
      ("a", .records [[("x", .ofInt 1)]]),
      ("b", .records [[("y", .records [[("z", .ofInt 2)]])], []]),
      ("c", .ofRow [.records [[]]])]
    value.collapse = .record [
        ("a", .record [("x", .ofInt 1)]),
        ("b", .records [[("y", .record [("z", .ofInt 2)])], []]),
        ("c", .ofRow [.record []])] ∧
      value.collapse.outline "r" = value.outline "r" ∧
      value.collapse.script 5 "r" = .ok
        ⟨"r.a.x = 1;\nr.b(1).y.z = 2;\nr.c = \x7b 'FIXME' \x7d;\n", []⟩ := by
  intro value
  have written : value.script 5 "r" = .ok
      ⟨"r.a.x = 1;\nr.b(1).y.z = 2;\nr.c = \x7b 'FIXME' \x7d;\n", []⟩ := rfl
  obtain ⟨_, rows, scripts⟩ := outline_and_script_of_collapse value "r"
  refine ⟨rfl, rows, ?_⟩
  rcases scripts 5 with deep | same
  · cases written.symm.trans deep
  · exact same.trans written

end Value

end ValueScript
