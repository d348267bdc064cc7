import ValueScript.Document
import ValueScript.Proofs.Emission.Limit
import ValueScript.Proofs.Fields
import ValueScript.Proofs.Json.Form
import ValueScript.Proofs.Json.Reading

/-! Nesting of documents. No node of a document's value lies deeper than the lists and objects of
the document nest, so that a script never needs a deeper limit, and what can be read at all fits
into the limit that reading has itself. -/

namespace ValueScript

theorem Value.script_ne_depthExceeded {limit : Nat} {name : String} {value : Value}
    (shallow : ∀ visit ∈ value.visits name 0, visit.depth ≤ limit) (reported : Nat) :
    value.script limit name ≠ .error (.depthExceeded reported) := by
  intro failed
  have first := congrArg failure? failed
  rw [failure?_script, failure?_error] at first
  obtain ⟨visit, met, cause⟩ := List.exists_of_findSome?_eq_some first
  rw [Visit.fault?, if_neg (Nat.not_lt.mpr (shallow visit met))] at cause
  exact visit.value.fault?_ne_depthExceeded visit.name reported cause

namespace Json

mutual

/-- How many lists and objects are open at once where most are. -/
def nesting : Json → Nat
  | .array items => itemNesting items + 1
  | .object members => memberNesting members + 1
  | .null | .bool _ | .number _ | .string _ => 0

def itemNesting : List Json → Nat
  | [] => 0
  | item :: rest => max (nesting item) (itemNesting rest)

def memberNesting : List (String × Json) → Nat
  | [] => 0
  | (_, item) :: rest => max (nesting item) (memberNesting rest)

end

theorem nesting_array_le_iff {items : List Json} {most : Nat} :
    (array items).nesting ≤ most + 1 ↔ ∀ item ∈ items, item.nesting ≤ most := by
  rw [nesting, Nat.succ_le_succ_iff]
  induction items with
  | nil => simp [itemNesting]
  | cons item rest ih => rw [itemNesting, Nat.max_le, List.forall_mem_cons, ih]

theorem nesting_object_le_iff {members : List (String × Json)} {most : Nat} :
    (object members).nesting ≤ most + 1 ↔ ∀ member ∈ members, member.2.nesting ≤ most := by
  rw [nesting, Nat.succ_le_succ_iff]
  induction members with
  | nil => simp [memberNesting]
  | cons member rest ih => rw [memberNesting, Nat.max_le, List.forall_mem_cons, ih]

theorem nesting_lt_array {items : List Json} {item : Json} (member : item ∈ items) :
    item.nesting < (array items).nesting :=
  Nat.lt_succ_of_le (nesting_array_le_iff.mp (Nat.le_refl _) item member)

theorem nesting_lt_object {members : List (String × Json)} {member : String × Json}
    (inside : member ∈ members) : member.2.nesting < (object members).nesting :=
  Nat.lt_succ_of_le (nesting_object_le_iff.mp (Nat.le_refl _) member inside)

/-- Below a node that stands for a document, nothing lies deeper than the document nests. -/
theorem depth_le_nesting (document : Json) (name : String) (depth : Nat) :
    ∀ visit ∈ document.toValue.visits name depth, visit.depth ≤ depth + document.nesting := by
  induction document generalizing name depth with
  | null => exact List.forall_mem_singleton.mpr (Nat.le_add_right ..)
  | bool _ => exact List.forall_mem_singleton.mpr (Nat.le_add_right ..)
  | number value =>
    rw [toValue]
    split <;> exact List.forall_mem_singleton.mpr (Nat.le_add_right ..)
  | string _ => exact List.forall_mem_singleton.mpr (Nat.le_add_right ..)
  | array items inner _ =>
    have form := listForm items
    generalize toValue (.array items) = value at form
    cases form with
    | @records objects _ =>
      intro visit met
      rcases Value.mem_visits_of_records met with rfl | ⟨fields, listed, node, inside⟩
      · exact Nat.le_add_right ..
      · obtain ⟨members, member, rfl⟩ := List.mem_map.mp listed
        have whole := List.mem_map_of_mem (f := Json.object) member
        have bound := inner _ whole node (depth + 1) visit (by rwa [toValue])
        have less := nesting_lt_array whole
        omega
    | empty | grid _ | table _ _ _ | row _ =>
      exact List.forall_mem_singleton.mpr (Nat.le_add_right ..)
  | object members inner =>
    intro visit met
    rcases List.mem_cons.mp met with rfl | inside
    · exact Nat.le_add_right ..
    · obtain ⟨field, listed, below⟩ := Value.mem_fieldVisits inside
      have given := Fields.mem_of_mem_ofMembers listed
      rw [memberValues_eq_map] at given
      obtain ⟨member, source, rfl⟩ := List.mem_map.mp given
      have bound := inner member source _ (depth + 1) visit below
      have less := nesting_lt_object source
      omega

/-- Whether a reader of documents gives none that nests deeper than this. -/
def ReadsWithin {ε : Type} (reader : ByteArray → Except ε Json) (most : Nat) : Prop :=
  ∀ text document, reader text = .ok document → document.nesting ≤ most

theorem read_within : ReadsWithin read greatestNesting := by
  intro text document found
  obtain ⟨taken, first, last⟩ := bind_eq_ok found
  have gives : Gives (value text greatestNesting) (·.nesting ≤ greatestNesting) := by
    refine @gives_value (fun most document => document.nesting ≤ most) Nat.zero_le
      (fun most _ => Nat.zero_le most) (fun most _ => Nat.zero_le most)
      (fun most _ => Nat.zero_le most) ?_ ?_ text greatestNesting
    · intro _ items inner
      exact nesting_array_le_iff.mpr inner
    · intro _ members inner
      refine nesting_object_le_iff.mpr fun member inside => ?_
      exact inner member (Fields.mem_of_mem_ofMembers inside)
  dsimp only at last
  split at last
  · cases last
  · cases last
    exact gives first

theorem script_ne_depthExceeded_of_nesting {document : Json} {limit : Nat}
    (enough : document.nesting ≤ limit) (name : String) (reported : Nat) :
    document.toValue.script limit name ≠ .error (.depthExceeded reported) := by
  refine Value.script_ne_depthExceeded (fun visit met => ?_) reported
  have bound := depth_le_nesting document name 0 visit met
  omega

/-- A document needs no deeper limit than it nests, and one that was read, by this reader or by any
other that gives none of more than 127 levels, needs none beyond 127. -/
theorem script_within_nesting :
    (∀ (document : Json) (limit : Nat), document.nesting ≤ limit → ∀ name reported,
      document.toValue.script limit name ≠ .error (.depthExceeded reported)) ∧
    (∀ (ε : Type) (reader : ByteArray → Except ε Json), ReadsWithin reader 127 →
      ∀ text document, reader text = .ok document → ∀ limit, 127 ≤ limit → ∀ name reported,
        document.toValue.script limit name ≠ .error (.depthExceeded reported)) ∧
    ∀ (text : ByteArray) (value : Value), Document.valueOf text = .ok value →
      ∀ limit, 127 ≤ limit → ∀ name reported,
        value.script limit name ≠ .error (.depthExceeded reported) := by
  have any {ε : Type} (reader : ByteArray → Except ε Json) (within : ReadsWithin reader 127)
      (text : ByteArray) (document : Json) (found : reader text = .ok document) (limit : Nat)
      (enough : 127 ≤ limit) : document.nesting ≤ limit :=
    Nat.le_trans (within text document found) enough
  refine ⟨fun document limit => script_ne_depthExceeded_of_nesting, ?_, ?_⟩
  · intro ε reader within text document found limit enough
    exact script_ne_depthExceeded_of_nesting (any reader within text document found limit enough)
  · intro text value loaded limit enough
    unfold Document.valueOf at loaded
    split at loaded
    next document found =>
      cases loaded
      exact script_ne_depthExceeded_of_nesting (any read read_within text document found limit enough)
    next => cases loaded

/-- A document of four levels, whose value has a field at the fourth, and one that is read. -/
theorem script_within_nesting_of_records :
    let document : Json := .array [.object [("a", .array [.object [("b", .bool true)]])]]
    let text : ByteArray := ⟨#[0x5b, 0x7b, 0x7d, 0x5d]⟩
    document.nesting = 4 ∧ document.toValue.script 4 "r" ≠ .error (.depthExceeded 4) ∧
      document.toValue.script 3 "r" = .error (.depthExceeded 3) ∧
      ReadsWithin read 127 ∧ read text = .ok (.array [.object []]) ∧
      (Json.array [.object []]).toValue.script 127 "r" ≠ .error (.depthExceeded 127) ∧
      Document.valueOf text = .ok (.records [[]]) ∧
      (Value.records [[]]).script 127 "r" ≠ .error (.depthExceeded 127) := by
  have found : read ⟨#[0x5b, 0x7b, 0x7d, 0x5d]⟩ = .ok (.array [.object []]) := by
    with_unfolding_all rfl
  intro document text
  have loaded : Document.valueOf text = .ok (.records [[]]) := by
    rw [Document.valueOf, found]
    rfl
  obtain ⟨ofTree, ofReader, ofText⟩ := script_within_nesting
  exact ⟨rfl, ofTree document 4 (by decide) "r" 4, rfl, read_within, found,
    ofReader _ read read_within text _ found 127 (by decide) "r" 127, loaded,
    ofText text _ loaded 127 (by decide) "r" 127⟩

end Json

end ValueScript
