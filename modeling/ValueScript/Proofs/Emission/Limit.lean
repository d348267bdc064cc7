import ValueScript.Proofs.Emission.Causes
import ValueScript.Proofs.Emission.Leaves
import ValueScript.Proofs.Emission.Root

/-! The depth limit of a script. Under a limit below the deepest node that is reached a script
fails for its depth, and all other limits give one and the same outcome. When a script is written,
no node lies below the limit but elements of lists that hold no field. -/

namespace ValueScript

/-- What a visit contributes when no limit is set. -/
def Visit.own (visit : Visit) : Except Fault Script := visit.value.own visit.name

/-- The depth of the deepest visit up to the first whose value fails on account of itself. What
comes after that one is not reached. -/
def deepest : List Visit → Nat
  | [] => 0
  | visit :: rest =>
    match visit.value.fault? visit.name with
    | some _ => visit.depth
    | none => max visit.depth (deepest rest)

theorem deepest_of_fault {visit : Visit} {fault : Fault}
    (failed : visit.value.fault? visit.name = some fault) (rest : List Visit) :
    deepest (visit :: rest) = visit.depth := by
  rw [deepest, failed]

theorem deepest_of_sound {visit : Visit} (sound : visit.value.fault? visit.name = none)
    (rest : List Visit) : deepest (visit :: rest) = max visit.depth (deepest rest) := by
  rw [deepest, sound]

theorem depth_le_deepest (visit : Visit) (rest : List Visit) :
    visit.depth ≤ deepest (visit :: rest) := by
  cases fault : visit.value.fault? visit.name with
  | some _ => exact Nat.le_of_eq (deepest_of_fault fault rest).symm
  | none =>
    rw [deepest_of_sound fault]
    exact Nat.le_max_left ..

theorem deepest_below (root : String) (visits : List Visit) :
    deepest (visits.map (Visit.below root)) = deepest visits := by
  induction visits with
  | nil => rfl
  | cons visit rest ih =>
    simp only [List.map_cons, deepest, Visit.below, Value.fault?_append, ih]
    cases visit.value.fault? visit.name <;> rfl

/-- A walk under a limit fails for its depth, or gives what it gives without a limit. -/
theorem collect_output (limit : Nat) (visits : List Visit) :
    Script.collect (Visit.output limit) visits =
      if limit < deepest visits then .error (.depthExceeded limit)
      else Script.collect Visit.own visits := by
  induction visits with
  | nil => rfl
  | cons visit rest ih =>
    by_cases deep : limit < visit.depth
    · have failed : visit.output limit = .error (.depthExceeded limit) := if_pos deep
      have below := Nat.lt_of_lt_of_le deep (depth_le_deepest visit rest)
      rw [Script.collect_cons_of_error _ failed, if_pos below]
    · have output : visit.output limit = visit.own := if_neg deep
      have fault : failure? visit.own = _ := visit.value.failure?_own visit.name
      cases own : visit.own with
      | error problem =>
        have same := deepest_of_fault (fault.symm.trans (congrArg failure? own)) rest
        rw [Script.collect_cons_of_error _ (output.trans own), Script.collect_cons_of_error _ own,
          same, if_neg deep]
      | ok part =>
        have same := deepest_of_sound (fault.symm.trans (congrArg failure? own)) rest
        have reached : limit < deepest (visit :: rest) ↔ limit < deepest rest := by
          rw [same]
          omega
        rw [Script.collect_cons, Script.collect_cons, output, own, ih]
        simp only [reached]
        split <;> rfl

namespace Value

/-- The least limit under which a value has a script or fails for another reason than its depth. -/
def leastLimit (value : Value) : Nat := deepest (value.visits "" 0)

theorem script_eq_of_limit (limit : Nat) (name : String) (value : Value) :
    value.script limit name =
      if limit < value.leastLimit then .error (.depthExceeded limit)
      else Script.collect Visit.own (value.visits name 0) := by
  have same : deepest (value.visits name 0) = value.leastLimit := by
    rw [visits_eq_map, deepest_below, leastLimit]
  rw [script_eq_collect, collect_output, same]

theorem collect_own_ne_depthExceeded (limit : Nat) (visits : List Visit) :
    Script.collect Visit.own visits ≠ .error (.depthExceeded limit) := by
  intro failed
  have first := congrArg failure? failed
  rw [Script.collect, failure?_map, failure?_mapM, failure?_error] at first
  obtain ⟨visit, _, fault⟩ := List.exists_of_findSome?_eq_some first
  exact visit.value.fault?_ne_depthExceeded visit.name limit
    ((visit.value.failure?_own visit.name).symm.trans fault)

/-- For every value there is a depth, whatever the name of the root, such that all limits from it
on give one outcome, which is never that the depth is exceeded, and all limits below it give the
fault that they are exceeded. Hence another limit changes an outcome only from or to that fault. -/
theorem limit_is_threshold (value : Value) :
    ∃ least : Nat, ∀ name : String,
      (∃ outcome : Except Fault Script,
        (∀ limit, outcome ≠ .error (.depthExceeded limit)) ∧
        ∀ limit, least ≤ limit → value.script limit name = outcome) ∧
      (∀ limit, limit < least → value.script limit name = .error (.depthExceeded limit)) ∧
      ∀ low high, low ≤ high →
        value.script low name = .error (.depthExceeded low) ∨
          value.script low name = value.script high name := by
  refine ⟨value.leastLimit, fun name => ?_⟩
  have above (limit : Nat) (enough : value.leastLimit ≤ limit) :
      value.script limit name = Script.collect Visit.own (value.visits name 0) := by
    rw [script_eq_of_limit, if_neg (Nat.not_lt.mpr enough)]
  have below (limit : Nat) (short : limit < value.leastLimit) :
      value.script limit name = .error (.depthExceeded limit) := by
    rw [script_eq_of_limit, if_pos short]
  refine ⟨⟨_, fun limit => collect_own_ne_depthExceeded limit _, above⟩, below, ?_⟩
  intro low high raised
  rcases Nat.lt_or_ge low value.leastLimit with short | enough
  · exact .inl (below low short)
  · exact .inr ((above low enough).trans (above high (Nat.le_trans enough raised)).symm)

end Value

/-- A node that an outline lists, and whether it is there as an element of a list. -/
structure Listed extends Visit where
  element : Bool

/-- Whether a node is an element that has no field. Such a node lies on the way to no other, and so
no visit takes note of its depth. -/
def Listed.Hollow (node : Listed) : Prop := node.element ∧ node.value = .record []

/-- Whether a node is not deeper than the limit, or is a hollow element right below it. -/
def Listed.Covered (limit : Nat) (node : Listed) : Prop :=
  node.depth ≤ limit ∨ node.depth = limit + 1 ∧ node.Hollow

namespace Value

mutual

/-- The nodes that an outline lists, each with the value it stands for and the depth of that: a
field lies one level below its record, an element one level below its list. -/
def listed (name : String) (depth : Nat) (value : Value) : List Listed :=
  ⟨⟨name, depth, value⟩, false⟩ ::
    match value with
    | .record fields => fieldsListed name (depth + 1) fields
    | .records [fields] => fieldsListed name (depth + 2) fields
    | .records elements => elementsListed name 1 (depth + 1) elements
    | .numeric _ | .text _ | .collection .. | .unsupported _ => []

/-- The nodes listed for the fields of a record. -/
def fieldsListed (name : String) (depth : Nat) : List (String × Value) → List Listed
  | [] => []
  | (label, entry) :: rest =>
    listed (Name.field name label) depth entry ++ fieldsListed name depth rest

/-- The elements of a list, counted from `index`, each followed by what is listed for its fields. -/
def elementsListed (name : String) (index depth : Nat) :
    List (List (String × Value)) → List Listed
  | [] => []
  | fields :: rest =>
    ⟨⟨Name.indexed name index, depth, .record fields⟩, true⟩ ::
      (fieldsListed (Name.indexed name index) (depth + 1) fields ++
        elementsListed name (index + 1) depth rest)

end

private theorem map_fieldsListed {fields : List (String × Value)}
    (entries : ∀ field ∈ fields, ∀ name depth,
      (field.2.listed name depth).map (·.row) = field.2.outline name)
    (name : String) (depth : Nat) :
    (fieldsListed name depth fields).map (·.row) = outlineFields name fields := by
  induction fields with
  | nil => rfl
  | cons field rest ih =>
    obtain ⟨label, entry⟩ := field
    have first := entries _ List.mem_cons_self (Name.field name label) depth
    have others := ih fun other member => entries other (List.mem_cons_of_mem _ member)
    rw [fieldsListed, outlineFields, List.map_append, first, others]

private theorem map_elementsListed {elements : List (List (String × Value))}
    (entries : ∀ fields ∈ elements, ∀ field ∈ fields, ∀ name depth,
      (field.2.listed name depth).map (·.row) = field.2.outline name)
    (name : String) (index depth : Nat) :
    (elementsListed name index depth elements).map (·.row) =
      outlineElements name index elements := by
  induction elements generalizing index with
  | nil => rfl
  | cons fields rest ih =>
    have first := map_fieldsListed (entries _ List.mem_cons_self) (Name.indexed name index) (depth + 1)
    have others := ih (fun other member => entries other (List.mem_cons_of_mem _ member)) (index + 1)
    rw [elementsListed, outlineElements, List.map_cons, List.map_append, first, others]
    rfl

theorem map_listed (value : Value) (name : String) (depth : Nat) :
    (value.listed name depth).map (·.row) = value.outline name := by
  induction value generalizing name depth with
  | record fields ih => exact congrArg (List.cons _) (map_fieldsListed ih name (depth + 1))
  | records elements ih =>
    match elements with
    | [] => rfl
    | [fields] =>
      have inner := map_fieldsListed (ih _ List.mem_cons_self) name (depth + 2)
      exact congrArg (List.cons _) inner
    | _ :: _ :: _ => exact congrArg (List.cons _) (map_elementsListed ih name 1 (depth + 1))
  | numeric _ => rfl
  | text _ => rfl
  | collection _ _ _ _ => rfl
  | unsupported _ => rfl

private theorem covered_fieldsListed {limit : Nat} {fields : List (String × Value)}
    (entries : ∀ field ∈ fields, ∀ name depth,
      (∀ visit ∈ field.2.visits name depth, visit.depth ≤ limit) →
        ∀ node ∈ field.2.listed name depth, node.Covered limit)
    {name : String} {depth : Nat}
    (shallow : ∀ visit ∈ fieldVisits name depth fields, visit.depth ≤ limit) :
    ∀ node ∈ fieldsListed name depth fields, node.Covered limit := by
  induction fields with
  | nil => exact List.forall_mem_nil _
  | cons field rest ih =>
    obtain ⟨label, entry⟩ := field
    obtain ⟨first, later⟩ := List.forall_mem_append.mp shallow
    refine List.forall_mem_append.mpr ⟨?_, ?_⟩
    · exact entries _ List.mem_cons_self (Name.field name label) depth first
    · exact ih (fun other member => entries other (List.mem_cons_of_mem _ member)) later

private theorem covered_element {limit depth : Nat} {list : String} {index : Nat}
    {fields : List (String × Value)} (above : depth ≤ limit + 1)
    (shallow : ∀ visit ∈ fieldVisits (Name.indexed list index) (depth + 1) fields,
      visit.depth ≤ limit) :
    Listed.Covered limit ⟨⟨Name.indexed list index, depth, .record fields⟩, true⟩ := by
  match fields with
  | [] =>
    rcases Nat.lt_or_eq_of_le above with within | last
    · exact .inl (Nat.le_of_lt_succ within)
    · exact .inr ⟨last, rfl, rfl⟩
  | (label, entry) :: rest =>
    have first : ⟨Name.field (Name.indexed list index) label, depth + 1, entry⟩ ∈
        fieldVisits (Name.indexed list index) (depth + 1) ((label, entry) :: rest) := by
      rw [fieldVisits, visits.eq_def]
      exact List.mem_cons_self
    exact .inl (Nat.le_of_succ_le (shallow _ first))

private theorem covered_elementsListed {limit : Nat} {elements : List (List (String × Value))}
    (entries : ∀ fields ∈ elements, ∀ field ∈ fields, ∀ name depth,
      (∀ visit ∈ field.2.visits name depth, visit.depth ≤ limit) →
        ∀ node ∈ field.2.listed name depth, node.Covered limit)
    {name : String} {depth : Nat} (above : depth ≤ limit + 1) (index : Nat)
    (shallow : ∀ visit ∈ elementVisits name index (depth + 1) elements, visit.depth ≤ limit) :
    ∀ node ∈ elementsListed name index depth elements, node.Covered limit := by
  induction elements generalizing index with
  | nil => exact List.forall_mem_nil _
  | cons fields rest ih =>
    obtain ⟨first, later⟩ := List.forall_mem_append.mp shallow
    refine List.forall_mem_cons.mpr ⟨covered_element above first, ?_⟩
    refine List.forall_mem_append.mpr ⟨?_, ?_⟩
    · exact covered_fieldsListed (entries fields List.mem_cons_self) first
    · exact ih (fun other member => entries other (List.mem_cons_of_mem _ member)) _ later

/-- When all visits are within the limit, so is every listed node but hollow elements. -/
theorem covered_listed {limit : Nat} (value : Value) (name : String) (depth : Nat)
    (shallow : ∀ visit ∈ value.visits name depth, visit.depth ≤ limit) :
    ∀ node ∈ value.listed name depth, node.Covered limit := by
  induction value generalizing name depth with
  | record fields ih =>
    obtain ⟨own, inner⟩ := List.forall_mem_cons.mp shallow
    exact List.forall_mem_cons.mpr ⟨.inl own, covered_fieldsListed ih inner⟩
  | records elements ih =>
    match elements with
    | [] => exact List.forall_mem_singleton.mpr (.inl (shallow _ List.mem_cons_self))
    | [fields] =>
      obtain ⟨own, inner⟩ := List.forall_mem_cons.mp shallow
      have covered := covered_fieldsListed (ih fields List.mem_cons_self) inner
      exact List.forall_mem_cons.mpr ⟨.inl own, covered⟩
    | first :: second :: rest =>
      obtain ⟨own, inner⟩ := List.forall_mem_cons.mp shallow
      have covered := covered_elementsListed ih (Nat.succ_le_succ own) 1 inner
      exact List.forall_mem_cons.mpr ⟨.inl own, covered⟩
  | numeric _ => exact List.forall_mem_singleton.mpr (.inl (shallow _ List.mem_cons_self))
  | text _ => exact List.forall_mem_singleton.mpr (.inl (shallow _ List.mem_cons_self))
  | collection _ _ _ _ => exact List.forall_mem_singleton.mpr (.inl (shallow _ List.mem_cons_self))
  | unsupported _ => exact List.forall_mem_singleton.mpr (.inl (shallow _ List.mem_cons_self))

/-- The visits of a script that is written are all within the limit. -/
theorem depth_le_of_script {limit : Nat} {name : String} {value : Value} {script : Script}
    (written : value.script limit name = .ok script) :
    ∀ visit ∈ value.visits name 0, visit.depth ≤ limit := by
  intro visit met
  rw [script_eq_collect] at written
  obtain ⟨part, output⟩ := Script.eq_ok_of_collect written met
  unfold Visit.output at output
  split at output
  · cases output
  · rename_i shallow
    exact Nat.le_of_not_lt shallow

/-- When a script is written, every row of the outline stands for a node within the limit, except
that elements without fields may lie one level below it. -/
theorem depth_of_outline_rows {limit : Nat} {name : String} {value : Value} {script : Script}
    (written : value.script limit name = .ok script) :
    (value.listed name 0).map (·.row) = value.outline name ∧
      ∀ node ∈ value.listed name 0,
        node.depth ≤ limit ∨ node.depth = limit + 1 ∧ node.Hollow :=
  ⟨map_listed value name 0, covered_listed value name 0 (depth_le_of_script written)⟩

/-- A list of two elements without fields beside a number, under the limit that the list needs. -/
theorem depth_of_rows_beside_number :
    let value : Value := .record [("a", .records [[], []]), ("b", .ofInt 7)]
    (value.listed "r" 0).map (·.row) = value.outline "r" ∧
      ∀ node ∈ value.listed "r" 0, node.depth ≤ 1 ∨ node.depth = 2 ∧ node.Hollow := by
  intro value
  have written : value.script 1 "r" = .ok ⟨"r.b = 7;\n", []⟩ := rfl
  exact depth_of_outline_rows written

/-- Two elements without fields are listed one level below their list, and a limit that admits the
list alone lets their script pass. -/
theorem hollow_elements_below_limit :
    (Value.records [[], []]).script 0 "a" = .ok .empty ∧
      (Value.records [[], []]).outline "a" =
        [⟨"a", .record, [1, 2]⟩, ⟨"a(1)", .record, [1, 1]⟩, ⟨"a(2)", .record, [1, 1]⟩] ∧
      ¬∀ node ∈ (Value.records [[], []]).listed "a" 0, node.depth ≤ 0 := by
  refine ⟨rfl, rfl, ?_⟩
  intro within
  exact absurd (within ⟨⟨"a(1)", 1, .record []⟩, true⟩ (.tail _ (.head _))) (by decide)

end Value

end ValueScript
