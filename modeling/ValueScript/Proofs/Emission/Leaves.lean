import ValueScript.Outline
import ValueScript.Proofs.Emission.Visits
import ValueScript.Proofs.Statement.Outcome

namespace ValueScript

/-- Whether a row stands for a leaf: not for a record or a list of records. -/
def Node.isLeaf (row : Node) : Bool := row.kind ≠ .record

namespace Visit

/-- The row that an outline has for a visited value. -/
def row (visit : Visit) : Node := ⟨visit.name, visit.value.kind, visit.value.dims⟩

def isLeaf (visit : Visit) : Bool := visit.row.isLeaf

end Visit

/-- The leaves among some visits are met under the names of the leaf rows, in the order of both
lists. -/
structure Agree (visits : List Visit) (rows : List Node) (leaves : List Value) : Prop where
  rows_eq : (visits.filter Visit.isLeaf).map Visit.row = rows.filter Node.isLeaf
  leaves_eq : (visits.filter Visit.isLeaf).map Visit.value = leaves

namespace Agree

theorem nil : Agree [] [] [] := ⟨rfl, rfl⟩

theorem append {visits visits' : List Visit} {rows rows' : List Node} {leaves leaves' : List Value}
    (first : Agree visits rows leaves) (second : Agree visits' rows' leaves') :
    Agree (visits ++ visits') (rows ++ rows') (leaves ++ leaves') := by
  constructor
  · simp only [List.filter_append, List.map_append, first.rows_eq, second.rows_eq]
  · simp only [List.filter_append, List.map_append, first.leaves_eq, second.leaves_eq]

variable {visits : List Visit} {rows : List Node} {leaves : List Value}

theorem cons_visit {visit : Visit} (inner : visit.isLeaf = false) (rest : Agree visits rows leaves) :
    Agree (visit :: visits) rows leaves := by
  constructor
  · simpa [inner] using rest.rows_eq
  · simpa [inner] using rest.leaves_eq

theorem cons_row {row : Node} (inner : row.isLeaf = false) (rest : Agree visits rows leaves) :
    Agree visits (row :: rows) leaves := by
  constructor
  · simpa [inner] using rest.rows_eq
  · exact rest.leaves_eq

theorem singleton {visit : Visit} (leaf : visit.isLeaf = true) :
    Agree [visit] [visit.row] [visit.value] := by
  have same : visit.row.isLeaf = true := leaf
  constructor <;> simp [leaf, same]

private theorem fields {fields : List (String × Value)}
    (entries : ∀ field ∈ fields, ∀ name depth,
      Agree (field.2.visits name depth) (field.2.outline name) field.2.leaves)
    (name : String) (depth : Nat) :
    Agree (Value.fieldVisits name depth fields) (Value.outlineFields name fields)
      (Value.fieldLeaves fields) := by
  induction fields with
  | nil => exact nil
  | cons field rest ih =>
    obtain ⟨label, entry⟩ := field
    have first := entries _ (List.mem_cons_self ..) (Name.field name label) depth
    exact first.append (ih fun other member => entries other (List.mem_cons_of_mem _ member))

private theorem elements {elements : List (List (String × Value))}
    (entries : ∀ fields ∈ elements, ∀ field ∈ fields, ∀ name depth,
      Agree (field.2.visits name depth) (field.2.outline name) field.2.leaves)
    (name : String) (index depth : Nat) :
    Agree (Value.elementVisits name index depth elements) (Value.outlineElements name index elements)
      (Value.elementLeaves elements) := by
  induction elements generalizing index with
  | nil => exact nil
  | cons element rest ih =>
    have first := fields (entries _ (List.mem_cons_self ..)) (Name.indexed name index) depth
    have others := ih (fun other member => entries other (List.mem_cons_of_mem _ member)) (index + 1)
    exact cons_row rfl (first.append others)

theorem of_value (value : Value) (name : String) (depth : Nat) :
    Agree (value.visits name depth) (value.outline name) value.leaves := by
  induction value generalizing name depth with
  | record inner ih => exact cons_visit rfl (cons_row rfl (fields ih name (depth + 1)))
  | records list ih =>
    match list with
    | [] => exact cons_visit rfl (cons_row rfl nil)
    | [only] =>
      have inner := fields (ih _ (List.mem_singleton_self _)) name (depth + 2)
      have whole : (Value.records [only]).leaves = Value.fieldLeaves only := List.append_nil _
      rw [whole]
      exact cons_visit rfl (cons_row rfl inner)
    | _ :: _ :: _ => exact cons_visit rfl (cons_row rfl (elements ih name 1 (depth + 2)))
  | numeric grid =>
    refine singleton ?_
    obtain ⟨shape, cells⟩ := grid
    cases cells <;> rfl
  | text grid => exact singleton rfl
  | collection rows cols items _ => exact singleton rfl
  | unsupported cls => exact singleton rfl

/-- The leaf rows of an outline paired with the leaves are what the walk meets, name and value. -/
theorem zip_eq (agree : Agree visits rows leaves) :
    (rows.filter Node.isLeaf).zip leaves =
      (visits.filter Visit.isLeaf).map fun visit => (visit.row, visit.value) := by
  rw [← agree.rows_eq, ← agree.leaves_eq, List.zip_map']

end Agree

namespace Value

/-- A leaf alone gives what it contributes to any script, whatever the limit. -/
theorem script_of_leaf (limit : Nat) (visit : Visit) (leaf : visit.isLeaf = true) :
    visit.value.script limit visit.name = visit.value.own visit.name := by
  have only : visit.value.visits visit.name 0 = [⟨visit.name, 0, visit.value⟩] := by
    obtain ⟨name, depth, value⟩ := visit
    cases value with
    | record _ | records _ => cases leaf
    | numeric _ | text _ | collection _ _ _ | unsupported _ => rfl
  rw [script_eq_collect, only, Script.collect_singleton]
  exact if_neg (Nat.not_lt_zero limit)

theorem own_of_inner (visit : Visit) (inner : visit.isLeaf = false) :
    visit.value.own visit.name = .ok .empty := by
  obtain ⟨name, depth, value⟩ := visit
  cases value with
  | record _ | records _ => rfl
  | numeric grid =>
    obtain ⟨shape, cells⟩ := grid
    cases cells <;> cases inner
  | text _ | collection _ _ _ | unsupported _ => cases inner

end Value

/-- What a walk gives in full is what its leaves give alone. -/
theorem collect_leaves {limit : Nat} {visits : List Visit} {script : Script}
    (written : Script.collect (Visit.output limit) visits = .ok script) (alone : Nat) :
    Script.collect (fun leaf : Node × Value => leaf.2.script alone leaf.1.name)
      ((visits.filter Visit.isLeaf).map fun visit => (visit.row, visit.value)) = .ok script := by
  induction visits generalizing script with
  | nil => exact written
  | cons visit rest ih =>
    obtain ⟨part, others, first, remaining, rfl⟩ := Script.collect_cons_eq_ok written
    have own := Visit.output_eq_ok first
    have later := ih remaining
    cases leaf : visit.isLeaf with
    | true =>
      have same := (Value.script_of_leaf alone visit leaf).trans own
      rw [List.filter_cons_of_pos leaf, List.map_cons, Script.collect_cons, later]
      change (do return (← visit.value.script alone visit.name) ++ others) = _
      rw [same]
      rfl
    | false =>
      rw [Value.own_of_inner visit leaf] at own
      cases own
      rw [List.filter_cons_of_neg (by simp [leaf]), Script.empty_append]
      exact later

namespace Value

/-- Whether a value is a collection of entries that are not all of one kind. -/
def Mixed : Value → Prop
  | .collection _ _ items => ¬Collection.OneKind items
  | _ => False

theorem own_mixed {name : String} {value : Value} {part : Script}
    (success : value.own name = .ok part) :
    (value.Mixed → ∃ warning, part = ⟨"", [warning]⟩) ∧
      (¬value.Mixed → ∃ text, part = ⟨text, []⟩) := by
  match value with
  | .record _ | .records _ =>
    cases success
    exact ⟨False.elim, fun _ => ⟨"", rfl⟩⟩
  | .unsupported _ => cases success
  | .numeric grid =>
    obtain ⟨text, _, rfl⟩ := map_eq_ok success
    exact ⟨False.elim, fun _ => ⟨text, rfl⟩⟩
  | .text grid =>
    obtain ⟨text, _, rfl⟩ := map_eq_ok success
    exact ⟨False.elim, fun _ => ⟨text, rfl⟩⟩
  | .collection rows cols items =>
    obtain ⟨result, written, rfl⟩ := map_eq_ok success
    have full := Collection.full_of_statement written
    constructor
    · intro mixed
      obtain ⟨warning, notice, _⟩ := Collection.statement_of_mixed name full mixed
      cases written.symm.trans notice
      exact ⟨warning, rfl⟩
    · intro same
      rw [Collection.statement_of_oneKind name full (Decidable.not_not.mp same)] at written
      obtain ⟨tokens, _, rfl⟩ := map_eq_ok written
      exact ⟨_, rfl⟩

/-- The leaf rows of the outline stand for the leaves in order, and the script is what these give
alone under the names of their rows, one after another. -/
theorem script_of_leaf_rows {limit : Nat} {name : String} {value : Value} {script : Script}
    (written : value.script limit name = .ok script) (alone : Nat) :
    let rows := (value.outline name).filter Node.isLeaf
    let pairs := rows.zip value.leaves
    rows.map (fun row => (row.kind, row.dims)) =
        value.leaves.map (fun leaf => (leaf.kind, leaf.dims)) ∧
      (∃ parts : List Script,
        pairs.mapM (fun (row, leaf) => leaf.script alone row.name) = .ok parts ∧
        script.text = String.join (parts.map Script.text) ∧
        script.warnings = (parts.map Script.warnings).flatten) ∧
      ∀ row leaf, (row, leaf) ∈ pairs →
        (∀ cls, leaf ≠ .unsupported cls) ∧
        (leaf.Mixed → ∃ warning, leaf.script alone row.name = .ok ⟨"", [warning]⟩) ∧
        (¬leaf.Mixed → ∃ text, leaf.script alone row.name = .ok ⟨text, []⟩) := by
  intro rows pairs
  have agree := Agree.of_value value name 0
  have walk : pairs = ((value.visits name 0).filter Visit.isLeaf).map
      fun visit => (visit.row, visit.value) := agree.zip_eq
  have collected := collect_leaves ((script_eq_collect limit name value).symm.trans written) alone
  rw [← walk] at collected
  refine ⟨?_, ?_, ?_⟩
  · rw [show rows = _ from agree.rows_eq.symm, ← agree.leaves_eq, List.map_map, List.map_map]
    rfl
  · obtain ⟨parts, each, rfl⟩ := map_eq_ok collected
    exact ⟨parts, each, rfl, rfl⟩
  · intro row leaf member
    obtain ⟨part, success⟩ := Script.eq_ok_of_collect collected member
    rw [walk, List.mem_map] at member
    obtain ⟨visit, met, same⟩ := member
    cases same
    have own := (script_of_leaf alone visit (List.mem_filter.mp met).2).symm.trans success
    have single := own_mixed own
    refine ⟨?_, ?_, ?_⟩
    · intro cls unsupported
      rw [unsupported] at own
      cases own
    · intro mixed
      obtain ⟨warning, rfl⟩ := single.1 mixed
      exact ⟨warning, success⟩
    · intro same
      obtain ⟨text, rfl⟩ := single.2 same
      exact ⟨text, success⟩

/-- A list of two records, a list of one and a mixed collection. -/
theorem script_of_listed_rows :
    let value : Value := .record [
      ("pts", .records [[("x", .ofInt 7)], [("x", .ofBool true)]]),
      ("only", .records [[("t", .ofString "a")]]),
      ("tags", .ofRow [.ofString "a", .ofInt 1])]
    ∃ parts : List Script,
      (((value.outline "cfg").filter Node.isLeaf).zip value.leaves).mapM
        (fun (row, leaf) => leaf.script 0 row.name) = .ok parts ∧
      "cfg.pts(1).x = 7;\ncfg.pts(2).x = 1;\ncfg.only.t = 'a';\n" =
        String.join (parts.map Script.text) ∧
      [⟨"cfg.tags", .text, .int, 1, 2⟩] = (parts.map Script.warnings).flatten := by
  intro value
  have written : value.script 3 "cfg" = .ok
      ⟨"cfg.pts(1).x = 7;\ncfg.pts(2).x = 1;\ncfg.only.t = 'a';\n",
        [⟨"cfg.tags", .text, .int, 1, 2⟩]⟩ := rfl
  exact (script_of_leaf_rows written 0).2.1

end Value

end ValueScript
