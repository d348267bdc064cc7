import ValueScript.Proofs.Fields
import ValueScript.Proofs.Json.Reading

namespace ValueScript.Json

mutual

/-- All the documents in a document, itself first. -/
def parts (document : Json) : List Json :=
  document ::
    match document with
    | .array items => itemParts items
    | .object members => memberParts members
    | .null | .bool _ | .number _ | .string _ => []

def itemParts : List Json → List Json
  | [] => []
  | item :: rest => parts item ++ itemParts rest

def memberParts : List (String × Json) → List Json
  | [] => []
  | (_, item) :: rest => parts item ++ memberParts rest

end

theorem itemParts_eq_flatMap (items : List Json) : itemParts items = items.flatMap parts := by
  induction items with
  | nil => rfl
  | cons item rest ih => rw [itemParts, ih, List.flatMap_cons]

theorem memberParts_eq_flatMap (members : List (String × Json)) :
    memberParts members = members.flatMap fun member => member.2.parts := by
  induction members with
  | nil => rfl
  | cons member rest ih =>
    rw [memberParts, ih, List.flatMap_cons]

/-- The keys of an object's own members. -/
def keys : Json → List String
  | .object members => Fields.labels members
  | _ => []

/-- Whether no object in the document has two members of one key. -/
def DistinctKeys (document : Json) : Prop := ∀ part ∈ document.parts, part.keys.Nodup

instance (document : Json) : Decidable document.DistinctKeys :=
  inferInstanceAs (Decidable (∀ part ∈ document.parts, part.keys.Nodup))

theorem distinctKeys_array {items : List Json} :
    (array items).DistinctKeys ↔ ∀ item ∈ items, item.DistinctKeys := by
  rw [DistinctKeys, parts, List.forall_mem_cons, itemParts_eq_flatMap, List.forall_mem_flatMap]
  exact and_iff_right List.nodup_nil

theorem distinctKeys_object {members : List (String × Json)} :
    (object members).DistinctKeys ↔
      (Fields.labels members).Nodup ∧ ∀ member ∈ members, member.2.DistinctKeys := by
  rw [DistinctKeys, parts, List.forall_mem_cons, memberParts_eq_flatMap, List.forall_mem_flatMap]
  rfl

/-- A document that was read has no object with two members of one key. -/
theorem distinctKeys_of_read {text : ByteArray} {document : Json} (found : read text = .ok document) :
    document.DistinctKeys := by
  obtain ⟨taken, first, last⟩ := bind_eq_ok found
  have scalar {leaf : Json} (alone : leaf.parts = [leaf]) (none : leaf.keys = []) :
      leaf.DistinctKeys := by
    rw [DistinctKeys, alone, List.forall_mem_singleton, none]
    exact List.nodup_nil
  have gives : Gives (value text greatestNesting) DistinctKeys := by
    refine @gives_value (fun _ => DistinctKeys) (fun _ => scalar rfl rfl) (fun _ _ => scalar rfl rfl)
      (fun _ _ => scalar rfl rfl) (fun _ _ => scalar rfl rfl) ?_ ?_ text greatestNesting
    · intro _ items inner
      exact distinctKeys_array.mpr inner
    · intro _ members inner
      refine distinctKeys_object.mpr ⟨Fields.labels_nodup_ofMembers members, ?_⟩
      exact fun member inside => inner member (Fields.mem_of_mem_ofMembers inside)
  dsimp only at last
  split at last
  · cases last
  · cases last
    exact gives first

end ValueScript.Json
