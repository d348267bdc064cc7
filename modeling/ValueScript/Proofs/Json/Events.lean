import ValueScript.Proofs.Json.Grid
import ValueScript.Proofs.Json.Keys
import ValueScript.Proofs.Tree

/-! Documents and values read from front to back. A document and its value show the same scalars in
the same order, and around them the same records with the same labels. -/

namespace ValueScript

/-- What is met when a tree is read from front to back: its scalars, where each record begins and
ends, and in a record a label before each entry. -/
inductive Event (Scalar : Type)
  | enter
  | label (key : String)
  | leave
  | scalar (content : Scalar)

/-- The same event on both sides, up to a relation between scalars. -/
inductive Event.Same {Left Right : Type} (Shows : Left → Right → Prop) :
    Event Left → Event Right → Prop
  | enter : Same Shows .enter .enter
  | label (key : String) : Same Shows (.label key) (.label key)
  | leave : Same Shows .leave .leave
  | scalar {left : Left} {right : Right} (shows : Shows left right) :
    Same Shows (.scalar left) (.scalar right)

/-- A scalar that a value holds. A double comes with the number of cells of its grid. -/
inductive Scalar
  | truth (content : Bool)
  | int (word : Int64)
  | float (number : Float) (cells : Nat)
  | text (content : String)
  | unsupported (cls : String)

/-- The cells of a grid as they are stored. -/
def Elements.scalars : Elements → List Scalar
  | .float cells => cells.map fun number => .float number cells.length
  | .int cells => cells.map .int
  | .logical cells => cells.map .truth

namespace Value

mutual

/-- A value read from front to back: records field by field, lists of records element by element,
collections item by item. A text is one scalar, and so is a value that cannot be written. -/
def events : Value → List (Event Scalar)
  | .record fields => .enter :: (fieldEvents fields ++ [.leave])
  | .records elements => elementEvents elements
  | .numeric grid => grid.elements.scalars.map .scalar
  | .text grid => [.scalar (.text (String.ofList grid.chars))]
  | .collection _ _ items => itemEvents items
  | .unsupported cls => [.scalar (.unsupported cls)]

/-- The fields of a record, each after its label. -/
def fieldEvents : List (String × Value) → List (Event Scalar)
  | [] => []
  | (label, entry) :: rest => .label label :: (events entry ++ fieldEvents rest)

/-- The elements of a list, each as a record. -/
def elementEvents : List (List (String × Value)) → List (Event Scalar)
  | [] => []
  | fields :: rest => .enter :: (fieldEvents fields ++ [.leave]) ++ elementEvents rest

def itemEvents : List Value → List (Event Scalar)
  | [] => []
  | item :: rest => events item ++ itemEvents rest

end

theorem fieldEvents_eq_flatMap (fields : List (String × Value)) :
    fieldEvents fields = fields.flatMap fun field => .label field.1 :: field.2.events := by
  induction fields with
  | nil => rfl
  | cons field rest ih =>
    rw [fieldEvents, ih, List.flatMap_cons]
    rfl

theorem elementEvents_eq_flatMap (elements : List (List (String × Value))) :
    elementEvents elements = elements.flatMap fun fields => (record fields).events := by
  induction elements with
  | nil => rfl
  | cons fields rest ih => rw [elementEvents, ih, List.flatMap_cons, events]

theorem itemEvents_eq_flatMap (items : List Value) : itemEvents items = items.flatMap events := by
  induction items with
  | nil => rfl
  | cons item rest ih => rw [itemEvents, ih, List.flatMap_cons]

end Value

namespace Json

mutual

/-- A document read from front to back: objects are records, and lists leave no mark. -/
def events : Json → List (Event Json)
  | .array items => itemEvents items
  | .object members => .enter :: (memberEvents members ++ [.leave])
  | scalar => [.scalar scalar]

def itemEvents : List Json → List (Event Json)
  | [] => []
  | item :: rest => events item ++ itemEvents rest

/-- The members of an object, each after its key. -/
def memberEvents : List (String × Json) → List (Event Json)
  | [] => []
  | (key, item) :: rest => .label key :: (events item ++ memberEvents rest)

end

theorem itemEvents_eq_flatMap (items : List Json) : itemEvents items = items.flatMap events := by
  induction items with
  | nil => rfl
  | cons item rest ih => rw [itemEvents, ih, List.flatMap_cons]

theorem memberEvents_eq_flatMap (members : List (String × Json)) :
    memberEvents members = members.flatMap fun member => .label member.1 :: member.2.events := by
  induction members with
  | nil => rfl
  | cons member rest ih =>
    rw [memberEvents, ih, List.flatMap_cons]
    rfl

/-- How a scalar of a document is kept: a number as a word if it is one, and else as a double. Only
next to another number of its grid may a word be a double too. -/
inductive Shows : Json → Scalar → Prop
  | null : Shows .null (.unsupported "null")
  | bool (truth : Bool) : Shows (.bool truth) (.truth truth)
  | string (text : String) : Shows (.string text) (.text text)
  | word {number : Number} {word : Int64} (fits : number.toInt64? = some word) :
    Shows (.number number) (.int word)
  | double {number : Number} (cells : Nat) (wide : number.toInt64? = none) :
    Shows (.number number) (.float number.toFloat cells)
  | widened (number : Number) {cells : Nat} (several : 2 ≤ cells) :
    Shows (.number number) (.float number.toFloat cells)

private theorem two_le_length {α : Type} {items : List α} {first second : α}
    (member : first ∈ items) (member' : second ∈ items) (apart : first ≠ second) :
    2 ≤ items.length := by
  match items with
  | [] => cases member
  | [only] =>
    have same := (List.mem_singleton.mp member).trans (List.mem_singleton.mp member').symm
    exact absurd same apart
  | _ :: _ :: _ => simp

/-- A number among the leaves of doubles is kept as one: it is no word, or it is not the only
leaf. -/
private theorem shows_double {leaves : List Json} {number : Number} {cells : Nat}
    (wide : leaves = [] ∨ ∃ other : Number, .number other ∈ leaves ∧ other.toInt64? = none)
    (member : .number number ∈ leaves) (count : cells = leaves.length) :
    Shows (.number number) (.float number.toFloat cells) := by
  cases fits : number.toInt64? with
  | none => exact .double cells fits
  | some word =>
    rcases wide with rfl | ⟨other, member', none⟩
    · cases member
    · have apart : Json.number number ≠ .number other := by
        rintro same
        cases same
        cases fits.symm.trans none
      exact .widened number (count ▸ two_le_length member member' apart)

private theorem shows_of_holds {leaves : List Json} {elements : Elements}
    (holds : Holds leaves elements) :
    List.Forall₂ (fun leaf scalar => leaf.events = [.scalar leaf] ∧ Shows leaf scalar)
      leaves elements.scalars := by
  cases elements with
  | logical truths =>
    rw [Elements.scalars, List.forall₂_map_right_iff]
    refine List.Forall₂.imp ?_ holds
    rintro _ truth rfl
    exact ⟨rfl, .bool truth⟩
  | int words =>
    rw [Elements.scalars, List.forall₂_map_right_iff]
    refine List.Forall₂.imp ?_ holds
    rintro _ word ⟨number, rfl, fits⟩
    exact ⟨rfl, .word fits⟩
  | float cells =>
    obtain ⟨each, wide⟩ := holds
    have count := each.length_eq.symm
    rw [Elements.scalars, List.forall₂_map_right_iff]
    refine List.Forall₂.imp ?_ ((List.forall₂_and_left _ _).mpr ⟨fun _ member => member, each⟩)
    rintro _ cell ⟨member, number, rfl, rfl⟩
    exact ⟨rfl, shows_double wide member count⟩

private theorem flatMap_leaves (document : Json) :
    document.leaves.flatMap events = document.events := by
  induction document with
  | array items ih _ =>
    have each : items.map (fun item => item.leaves.flatMap events) = items.map events :=
      List.map_congr_left ih
    rw [leaves, leavesOf_eq_flatMap, List.flatMap_assoc, events, itemEvents_eq_flatMap,
      List.flatMap_def, each, ← List.flatMap_def]
  | null => rfl
  | bool _ => rfl
  | number _ => rfl
  | string _ => rfl
  | object members _ => exact List.append_nil (events (.object members))

/-- A document and a value that show the same from front to back. -/
private abbrev Agrees (document : Json) (value : Value) : Prop :=
  List.Forall₂ (Event.Same Shows) document.events value.events

private theorem agrees_grid {items : List Json} {grid : NumericGrid}
    (holds : Holds (items.flatMap leaves) grid.elements) :
    Agrees (.array items) (.numeric grid) := by
  obtain ⟨alone, shown⟩ := (List.forall₂_and_left _ _).mp (shows_of_holds holds)
  have single : (items.flatMap leaves).flatMap events = (items.flatMap leaves).map .scalar := by
    rw [List.flatMap_def, List.map_congr_left alone, ← List.flatMap_def]
    exact List.map_eq_flatMap.symm
  rw [Agrees, ← flatMap_leaves, leaves, leavesOf_eq_flatMap, single, Value.events,
    List.forall₂_map_left_iff, List.forall₂_map_right_iff]
  exact shown.imp fun _ _ => .scalar

private theorem agrees_items {items : List Json} (rows cols : Nat)
    (each : ∀ item ∈ items, Agrees item (toValue item)) :
    Agrees (.array items) (.collection rows cols (items.map toValue)) := by
  rw [Agrees, events, Value.events, itemEvents_eq_flatMap, Value.itemEvents_eq_flatMap,
    List.flatMap_map]
  exact forall₂_flatMap each

/-- Lists in a list are read as if their items stood in it. -/
private theorem events_arrays (rows : List (List Json)) :
    (Json.array (rows.map .array)).events = (Json.array rows.flatten).events := by
  simp only [events, itemEvents_eq_flatMap]
  induction rows with
  | nil => rfl
  | cons row rest ih =>
    rw [List.map_cons, List.flatMap_cons, ih, List.flatten_cons, List.flatMap_append, events,
      itemEvents_eq_flatMap]

private theorem agrees_list {items : List Json} (inner : ∀ item ∈ items, Agrees item (toValue item))
    (deeper : ∀ row, .array row ∈ items → ∀ entry ∈ row, Agrees entry (toValue entry)) :
    Agrees (.array items) (toValue (.array items)) := by
  have form := listForm items
  generalize toValue (.array items) = value at form
  cases form with
  | empty => exact .nil
  | @records objects some =>
    rw [Agrees, events, Value.events, itemEvents_eq_flatMap, Value.elementEvents_eq_flatMap,
      List.flatMap_map, List.flatMap_map]
    refine forall₂_flatMap fun members listed => ?_
    have whole := inner _ (List.mem_map_of_mem listed)
    rwa [toValue] at whole
  | grid rectangular =>
    obtain ⟨_, _, holds⟩ := grid?_eq_some rectangular
    exact agrees_grid holds
  | @table rows cols some positive full =>
    rw [Agrees, events_arrays]
    refine agrees_items rows.length cols fun entry inside => ?_
    obtain ⟨row, listed, here⟩ := List.mem_flatten.mp inside
    exact deeper row (List.mem_map_of_mem listed) entry here
  | row some => exact agrees_items 1 _ inner

private theorem agrees_object {members : List (String × Json)}
    (distinct : (Fields.labels members).Nodup)
    (inner : ∀ member ∈ members, Agrees member.2 (toValue member.2)) :
    Agrees (.object members) (toValue (.object members)) := by
  have keys : (Fields.labels (memberValues members)).Nodup := by
    rw [memberValues_eq_map, Fields.labels, List.map_map]
    exact distinct
  rw [Agrees, events, toValue, Value.ofMembers, Fields.ofMembers_of_nodup keys, Value.events,
    memberValues_eq_map, memberEvents_eq_flatMap, Value.fieldEvents_eq_flatMap, List.flatMap_map]
  refine .cons .enter (List.rel_append ?_ (.cons .leave .nil))
  exact forall₂_flatMap fun member listed => .cons (.label member.1) (inner member listed)

/-- Read from front to back, the value of a document shows what the document shows: the same
scalars in the same order, none left out and none repeated, and each object as a record with its
keys in order. -/
theorem events_toValue (document : Json) (distinct : document.DistinctKeys) :
    List.Forall₂ (Event.Same Shows) document.events document.toValue.events := by
  induction document with
  | null => exact .cons (.scalar .null) .nil
  | bool truth => exact .cons (.scalar (.bool truth)) .nil
  | number number =>
    rw [toValue]
    split
    next word fits => exact .cons (.scalar (.word fits)) .nil
    next wide => exact .cons (.scalar (.double 1 wide)) .nil
  | string text =>
    have chars : (TextGrid.ofString text).chars = text.toList := by
      unfold TextGrid.ofString
      split <;> simp [*]
    rw [toValue, Value.ofString, Value.events, chars, String.ofList_toList]
    exact .cons (.scalar (.string text)) .nil
  | array items inner deeper =>
    have each := distinctKeys_array.mp distinct
    refine agrees_list (fun item member => inner item member (each item member)) ?_
    intro row member entry inside
    exact deeper row member entry inside (distinctKeys_array.mp (each _ member) entry inside)
  | object members inner =>
    obtain ⟨apart, each⟩ := distinctKeys_object.mp distinct
    exact agrees_object apart fun member listed => inner member listed (each member listed)

/-- Each form of a list once, with a word beside a fraction and a number that is no word. -/
theorem events_toValue_of_every_form :
    let document : Json := .object [
      ("grid", .array [.number (.int 1), .number (.float 2.5)]),
      ("records", .array [.object [("x", .null)], .object []]),
      ("table", .array [.array [.string "p"], .array [.bool true]]),
      ("row", .array [.string "", .array [], .number (.int 0x8000000000000000)])]
    document.DistinctKeys ∧
      List.Forall₂ (Event.Same Shows) document.events [
        .enter, .label "grid", .scalar (.float (Float.ofInt 1) 2), .scalar (.float 2.5 2),
        .label "records", .enter, .label "x", .scalar (.unsupported "null"), .leave, .enter, .leave,
        .label "table", .scalar (.text "p"), .scalar (.truth true),
        .label "row", .scalar (.text ""), .scalar (.float (Float.ofInt 0x8000000000000000) 1),
        .leave] := by
  intro document
  have distinct : document.DistinctKeys := by decide
  exact ⟨distinct, events_toValue document distinct⟩

end Json

end ValueScript
