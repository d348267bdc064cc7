import ValueScript.Document
import ValueScript.Proofs.FieldOrder
import ValueScript.Proofs.Json.Form

/-! Members of objects as a text shows them. A document may be read with all of them and rebuilt
afterwards from those that are kept, and to put the members of one key together before or after the
conversion makes no difference. -/

namespace ValueScript.Json

section rebuilt

variable (keep : List (String × Json) → List (String × Json))

mutual

/-- A document with each object, innermost first, rebuilt from what is kept of its members. -/
def rebuilt : Json → Json
  | .null => .null
  | .bool truth => .bool truth
  | .number value => .number value
  | .string text => .string text
  | .array items => .array (rebuiltItems items)
  | .object members => .object (keep (rebuiltMembers members))

def rebuiltItems : List Json → List Json
  | [] => []
  | item :: rest => rebuilt item :: rebuiltItems rest

def rebuiltMembers : List (String × Json) → List (String × Json)
  | [] => []
  | (key, item) :: rest => (key, rebuilt item) :: rebuiltMembers rest

end

variable {keep}

theorem rebuiltItems_eq_map (items : List Json) :
    rebuiltItems keep items = items.map (rebuilt keep) := by
  induction items with
  | nil => rfl
  | cons item rest ih => rw [rebuiltItems, ih, List.map_cons]

theorem rebuiltMembers_eq_map (members : List (String × Json)) :
    rebuiltMembers keep members = Fields.mapEntries (rebuilt keep) members := by
  induction members with
  | nil => rfl
  | cons member rest ih =>
    rw [rebuiltMembers, ih]
    rfl

end rebuilt

section reading

variable {convert : Json → Json} {item other : (index : Nat) → Reading Json index}
  {text : ByteArray} {start : Nat}

/-- Items that are converted as they are read are gathered as if they were converted afterwards. -/
theorem moreItems_map (same : ∀ index, other index = (item index).map (Taken.map convert))
    {index : Nat} (later : start < index) (items : Array Json) :
    moreItems other text index later (items.map convert) =
      (moreItems item text index later items).map (Taken.map (List.map convert)) := by
  -- Both readers look at the same bytes, which leaves one way for the second one to go on.
  fun_induction moreItems item text index later items with
  | case5 _ _ _ _ _ _ _ _ _ _ _ _ _ ih =>
    rw [moreItems]
    split <;> simp_all +zetaDelta
    exact ih
  | _ =>
    rw [moreItems]
    split <;> simp_all +zetaDelta [Except.map, Taken.map]

theorem list_map (same : ∀ index, other index = (item index).map (Taken.map convert)) :
    list other text start = (list item text start).map (Taken.map (List.map convert)) := by
  unfold list
  dsimp only
  split
  next => rfl
  next => rfl
  next =>
    rw [same]
    cases item (skipBlanks text start) with
    | error error => rfl
    | ok taken =>
      have more {next : Nat} (later : start < next) :=
        @moreItems_map _ _ _ text _ same _ later #[taken.item]
      simp only [List.map_toArray, List.map_cons, List.map_nil] at more
      exact more _

theorem member_map (same : ∀ index, other index = (item index).map (Taken.map convert)) :
    member other text start =
      (member item text start).map (Taken.map fun member => (member.1, convert member.2)) := by
  unfold member
  cases quoted text start with
  | error error => rfl
  | ok key =>
    dsimp only [bind, Except.bind]
    split
    next => rfl
    next =>
      rw [same]
      cases item (skipBlanks text key.next + 1) <;> rfl
    next => rfl

theorem moreMembers_map (same : ∀ index, other index = (item index).map (Taken.map convert))
    {index : Nat} (later : start < index) (members : Array (String × Json)) :
    moreMembers other text index later
        (members.map fun member => (member.1, convert member.2)) =
      (moreMembers item text index later members).map (Taken.map (Fields.mapEntries convert)) := by
  have each := @member_map convert item other text
  fun_induction moreMembers item text index later members with
  | case6 _ _ _ _ _ _ _ _ _ _ _ _ _ ih =>
    rw [moreMembers]
    split <;> simp_all +zetaDelta
    exact ih
  | _ =>
    rw [moreMembers]
    split <;> simp_all +zetaDelta [Except.map, Taken.map, Fields.mapEntries]

theorem membersOf_map (same : ∀ index, other index = (item index).map (Taken.map convert)) :
    membersOf other text start =
      (membersOf item text start).map (Taken.map (Fields.mapEntries convert)) := by
  unfold membersOf
  dsimp only
  split
  next => rfl
  next => rfl
  next =>
    rw [member_map same]
    cases member item text (skipBlanks text start + 1) with
    | error error => rfl
    | ok taken =>
      have more {next : Nat} (later : start < next) :=
        @moreMembers_map _ _ _ text _ same _ later #[taken.item]
      simp only [List.map_toArray, List.map_cons, List.map_nil] at more
      exact more _
  next => rfl

end reading

variable {keep : List (String × Json) → List (String × Json)}

theorem rebuilt_array (items : List Json) :
    rebuilt keep (.array items) = .array (items.map (rebuilt keep)) := by
  rw [rebuilt, rebuiltItems_eq_map]

theorem rebuilt_object (members : List (String × Json)) :
    rebuilt keep (.object members) = .object (keep (Fields.mapEntries (rebuilt keep) members)) := by
  rw [rebuilt, rebuiltMembers_eq_map]

/-- What is kept of members may be chosen after all of them were read. -/
theorem valueWith_eq_rebuilt (text : ByteArray) (nesting start : Nat) :
    valueWith keep text nesting start =
      (valueWith id text nesting start).map (Taken.map (rebuilt keep)) := by
  induction nesting using Nat.strongRecOn generalizing start with
  | ind nesting ih =>
    unfold valueWith
    dsimp only
    split
    next => rfl
    next => cases word text _ _ [0x75, 0x6c, 0x6c] <;> rfl
    next => cases word text _ _ [0x72, 0x75, 0x65] <;> rfl
    next => cases word text _ _ [0x61, 0x6c, 0x73, 0x65] <;> rfl
    next => cases numeral true text (skipBlanks text start + 1) <;> rfl
    next => cases quoted text (skipBlanks text start + 1) <;> rfl
    next =>
      cases nesting with
      | zero => rfl
      | succ nesting =>
        dsimp only
        rw [list_map fun index => ih nesting (Nat.lt_succ_self nesting) index]
        cases list (valueWith id text nesting) text (skipBlanks text start + 1) with
        | error error => rfl
        | ok taken => simp [bind, Except.bind, pure, Except.pure, Except.map, Taken.map, Taken.since,
            rebuilt_array]
    next =>
      cases nesting with
      | zero => rfl
      | succ nesting =>
        dsimp only
        rw [membersOf_map fun index => ih nesting (Nat.lt_succ_self nesting) index]
        cases membersOf (valueWith id text nesting) text (skipBlanks text start + 1) with
        | error error => rfl
        | ok taken => simp [bind, Except.bind, pure, Except.pure, Except.map, Taken.map, Taken.since,
            rebuilt_object]
    next =>
      split
      next => cases numeral false text (skipBlanks text start) <;> rfl
      next => rfl

theorem readWith_eq_rebuilt (text : ByteArray) :
    readWith keep text = (readWith id text).map (rebuilt keep) := by
  unfold readWith
  rw [valueWith_eq_rebuilt]
  cases valueWith id text greatestNesting 0 with
  | error error => rfl
  | ok taken =>
    dsimp only [Except.map, bind, Except.bind, Taken.map]
    split <;> rfl

/-! What does not look into objects makes the same of a document and of the rebuilt one. -/

theorem isObject_rebuilt (document : Json) : (rebuilt keep document).isObject = document.isObject := by
  cases document <;> rfl

theorem bool?_rebuilt (document : Json) : (rebuilt keep document).bool? = document.bool? := by
  cases document <;> rfl

theorem number?_rebuilt (document : Json) : (rebuilt keep document).number? = document.number? := by
  cases document <;> rfl

theorem length?_rebuilt (document : Json) : (rebuilt keep document).length? = document.length? := by
  cases document with
  | array items => rw [rebuilt_array, length?, length?, List.length_map]
  | null | bool | number | string | object => rfl

private theorem commonLevels?_rebuilt {items : List Json}
    (each : ∀ item ∈ items, levels? (rebuilt keep item) = levels? item) :
    commonLevels? (items.map (rebuilt keep)) = commonLevels? items := by
  induction items with
  | nil => rfl
  | cons item rest ih =>
    obtain ⟨first, others⟩ := List.forall_mem_cons.mp each
    cases rest with
    | nil => exact first
    | cons second later =>
      have common := ih others
      rw [List.map_cons] at common ⊢
      simp only [List.map_cons, commonLevels?, first] at common ⊢
      rw [common]

theorem levels?_rebuilt (document : Json) : levels? (rebuilt keep document) = levels? document := by
  induction document with
  | null | bool | number | string | object => rfl
  | array items each _ =>
    have common := commonLevels?_rebuilt each
    rw [rebuilt_array]
    cases items with
    | nil => rfl
    | cons item rest =>
      rw [List.map_cons] at common
      rw [List.map_cons, levels?, levels?, common, List.length_map]

theorem leaves_rebuilt (document : Json) :
    leaves (rebuilt keep document) = (leaves document).map (rebuilt keep) := by
  induction document with
  | null | bool | number | string | object => rfl
  | array items each _ =>
    rw [rebuilt_array, leaves, leaves, leavesOf_eq_flatMap, leavesOf_eq_flatMap, List.flatMap_map,
      List.map_flatMap]
    exact List.flatMap_congr each

theorem elements?_rebuilt (leaves : List Json) :
    elements? (leaves.map (rebuilt keep)) = elements? leaves := by
  have truths : (leaves.map (rebuilt keep)).mapM bool? = leaves.mapM bool? :=
    List.mapM_map.trans (congrArg leaves.mapM (funext bool?_rebuilt))
  have numbers : (leaves.map (rebuilt keep)).mapM number? = leaves.mapM number? :=
    List.mapM_map.trans (congrArg leaves.mapM (funext number?_rebuilt))
  cases leaves with
  | nil => rfl
  | cons leaf rest =>
    rw [List.map_cons] at truths numbers
    simp only [List.map_cons, elements?, truths, numbers]

theorem grid?_rebuilt (items : List Json) : grid? (items.map (rebuilt keep)) = grid? items := by
  have levels := @levels?_rebuilt keep (.array items)
  have leaves := @leaves_rebuilt keep (.array items)
  rw [rebuilt_array] at levels leaves
  rw [Json.leaves, Json.leaves] at leaves
  rw [grid?, grid?, levels, leaves, elements?_rebuilt]

theorem commonLength?_rebuilt (items : List Json) :
    commonLength? (items.map (rebuilt keep)) = commonLength? items := by
  cases items with
  | nil => rfl
  | cons item rest =>
    simp only [List.map_cons, commonLength?, length?_rebuilt, List.all_map, Function.comp_def]

/-- A document with one member for each key of an object. -/
def merged (document : Json) : Json := rebuilt Fields.ofMembers document

private theorem toValue_merged_object {members : List (String × Json)}
    (each : ∀ member ∈ members, toValue (merged member.2) = toValue member.2) :
    toValue (merged (.object members)) = toValue (.object members) := by
  have converted (members : List (String × Json)) :
      memberValues members = Fields.mapEntries toValue members := memberValues_eq_map members
  have entries : Fields.mapEntries toValue (Fields.mapEntries merged members) =
      Fields.mapEntries toValue members := by
    unfold Fields.mapEntries
    rw [List.map_map]
    exact List.map_congr_left fun member inside => congrArg (Prod.mk member.1) (each member inside)
  -- The keys of the members are distinct the second time.
  rw [merged, rebuilt_object, toValue, toValue, converted, converted, ← Fields.ofMembers_mapEntries,
    Value.ofMembers, Fields.ofMembers_ofMembers]
  exact congrArg Value.ofMembers entries

section items

variable {items : List Json}

private theorem valuesOf_merged (each : ∀ item ∈ items, toValue (merged item) = toValue item) :
    valuesOf (items.map merged) = valuesOf items := by
  rw [valuesOf_eq_map, valuesOf_eq_map, List.map_map]
  exact List.map_congr_left each

private theorem recordsOf_merged (each : ∀ item ∈ items, toValue (merged item) = toValue item) :
    recordsOf (items.map merged) = recordsOf items := by
  induction items with
  | nil => rfl
  | cons item rest ih =>
    obtain ⟨first, others⟩ := List.forall_mem_cons.mp each
    cases item with
    | object members => exact congrArg₂ List.cons (Value.record.inj first) (ih others)
    | null | bool | number | string | array => exact ih others

private theorem cellsOf_merged (each : ∀ item ∈ items, toValue (merged item) = toValue item)
    (inner : ∀ row, .array row ∈ items → ∀ entry ∈ row, toValue (merged entry) = toValue entry) :
    cellsOf (items.map merged) = cellsOf items := by
  induction items with
  | nil => rfl
  | cons item rest ih =>
    obtain ⟨first, others⟩ := List.forall_mem_cons.mp each
    have later := ih others fun row member => inner row (List.mem_cons_of_mem _ member)
    cases item with
    | array row =>
      have whole : merged (.array row) = .array (row.map merged) := rebuilt_array row
      rw [List.map_cons, whole, cellsOf, cellsOf, later,
        valuesOf_merged (inner row (List.mem_cons_self ..))]
    | null | bool | number | string | object => exact congrArg₂ List.cons first later

end items

/-- Members of one key are put together by the conversion if they were not before. -/
theorem toValue_merged (document : Json) : toValue (merged document) = toValue document := by
  induction document with
  | null | bool | number | string => rfl
  | object members each => exact toValue_merged_object each
  | array items each inner =>
    have whole : merged (.array items) = .array (items.map merged) := rebuilt_array items
    have objects : (items.map merged).all isObject = items.all isObject := by
      rw [List.all_map]
      exact congrArg items.all (funext isObject_rebuilt)
    rw [whole, toValue, toValue, valuesOf_merged each, recordsOf_merged each,
      cellsOf_merged each inner, List.isEmpty_map, List.length_map, objects]
    unfold merged
    rw [grid?_rebuilt, commonLength?_rebuilt]

section readers

variable {ε : Type} {reader whole : ByteArray → Except ε Json}

/-- Whether a reader gives what another gives with the members of each key put together, where the
first of them stands and with what the last one says. -/
def Merges (reader whole : ByteArray → Except ε Json) : Prop :=
  ∀ text, reader text = (whole text).map merged

theorem Merges.map_toValue (merges : Merges reader whole) (text : ByteArray) :
    (reader text).map toValue = (whole text).map toValue := by
  rw [merges text]
  cases whole text with
  | error error => rfl
  | ok document => exact congrArg Except.ok (toValue_merged document)

theorem read_merges : Merges read (readWith id) := readWith_eq_rebuilt

theorem toValue_object (members : List (String × Json)) :
    toValue (.object members) = .record (Fields.ofMembers
      (members.map fun member => (member.1, member.2.toValue))) := by
  rw [← memberValues_eq_map]
  rfl

end readers

end ValueScript.Json

namespace ValueScript

/-- A run of settings leaves each label once, in the order in which the labels came first, with the
entry that came last. A document has the value that its members give when all of them are set one
after another as the text shows them, though reading has put those of one key together before,
whichever reader does so. -/
theorem record_keeps_first_place_and_last_entry :
    (∀ (α : Type) (members : List (String × α)),
      let fields := Fields.ofMembers members
      let given := Fields.labels members
      fields.labels.Nodup ∧
      (∀ label, label ∈ fields.labels ↔ label ∈ given) ∧
      fields.labels.Pairwise (fun earlier later => given.idxOf earlier < given.idxOf later) ∧
      (∀ label, fields.find? label =
        (members.reverse.find? fun member => member.1 == label).map Prod.snd) ∧
      (∀ label, fields.find? label = none ↔ label ∉ given) ∧
      fields.length = given.toFinset.card) ∧
    (∀ (ε : Type) (reader whole : ByteArray → Except ε Json), Json.Merges reader whole →
      ∀ text : ByteArray,
        match whole text with
        | .ok (.object members) =>
          (reader text).map Json.toValue = .ok (.record (Fields.ofMembers
            (members.map fun member => (member.1, member.2.toValue))))
        | .ok document => (reader text).map Json.toValue = .ok document.toValue
        | .error error => reader text = .error error) ∧
    ∀ text : ByteArray,
      Json.read text = (Json.readWith id text).map Json.merged ∧
      match Json.readWith id text with
      | .ok (.object members) =>
        Document.valueOf text = .ok (.record (Fields.ofMembers
          (members.map fun member => (member.1, member.2.toValue))))
      | .ok document => Document.valueOf text = .ok document.toValue
      | .error error => Document.valueOf text = .error (.read error) := by
  refine ⟨fun α members => ?_, fun ε reader whole merges text => ?_, fun text => ?_⟩
  · exact ⟨Fields.labels_nodup_ofMembers members, fun _ => Fields.mem_labels_ofMembers,
      Fields.labels_ofMembers_pairwise members, Fields.find?_ofMembers members,
      fun _ => Fields.find?_eq_none_iff.trans Fields.mem_labels_ofMembers.not,
      Fields.length_ofMembers members⟩
  · have same := merges.map_toValue text
    split
    next members shown =>
      rw [same, shown, ← Json.toValue_object]
      rfl
    next document _ shown =>
      rw [same, shown]
      rfl
    next error shown =>
      rw [merges text, shown]
      rfl
  · have read : Json.read text = (Json.readWith id text).map Json.merged := Json.read_merges text
    refine ⟨read, ?_⟩
    rw [Document.valueOf, read]
    split
    next members shown =>
      rw [shown, ← Json.toValue_object]
      exact congrArg Except.ok (Json.toValue_merged (.object members))
    next document _ shown =>
      rw [shown]
      exact congrArg Except.ok (Json.toValue_merged document)
    next error shown =>
      rw [shown]
      rfl

/-- An object with two members of one key, by a reader that puts them together. -/
theorem record_keeps_first_place_and_last_entry_of_repeated_key :
    let text : ByteArray :=
      ⟨#[0x7b, 0x22, 0x22, 0x3a, 0x5b, 0x5d, 0x2c, 0x22, 0x22, 0x3a, 0x7b, 0x7d, 0x7d]⟩
    Json.Merges Json.read (Json.readWith id) ∧
      Json.readWith id text = .ok (.object [("", .array []), ("", .object [])]) ∧
      (Json.read text).map Json.toValue = .ok (.record (Fields.ofMembers
        [("", Json.toValue (.array [])), ("", Json.toValue (.object []))])) := by
  have whole : Json.readWith id
      ⟨#[0x7b, 0x22, 0x22, 0x3a, 0x5b, 0x5d, 0x2c, 0x22, 0x22, 0x3a, 0x7b, 0x7d, 0x7d]⟩ =
      .ok (.object [("", .array []), ("", .object [])]) := by
    with_unfolding_all rfl
  intro text
  have built := record_keeps_first_place_and_last_entry.2.1 _ _ _ Json.read_merges text
  rw [whole] at built
  exact ⟨Json.read_merges, whole, built⟩

end ValueScript
