import ValueScript.Json.Reader
import ValueScript.Proofs.Attempt

namespace ValueScript.Json

/-- Whether all that a reader of items gives has a property. -/
def Gives (item : (index : Nat) → Reading Json index) (holds : Json → Prop) : Prop :=
  ∀ {index : Nat} {taken : Taken Json index}, item index = .ok taken → holds taken.item

section gather

variable {holds : Json → Prop} {item : (index : Nat) → Reading Json index} {text : ByteArray}
  {start : Nat}

theorem forall_moreItems (gives : Gives item holds) {index : Nat} {later : start < index}
    {items : Array Json} (before : ∀ known ∈ items.toList, holds known)
    {taken : Taken (List Json) start}
    (read : moreItems item text index later items = .ok taken) :
    ∀ known ∈ taken.item, holds known := by
  fun_induction moreItems item text index later items with
  | case1 | case3 | case4 | case6 => cases read
  | case2 =>
    cases read
    exact before
  | case5 _ _ _ _ _ _ _ _ _ _ _ found _ ih =>
    refine ih ?_ read
    rw [Array.toList_push]
    exact List.forall_mem_append.mpr ⟨before, List.forall_mem_singleton.mpr (gives found)⟩

theorem forall_list (gives : Gives item holds) {taken : Taken (List Json) start}
    (read : list item text start = .ok taken) : ∀ known ∈ taken.item, holds known := by
  unfold list at read
  dsimp only at read
  split at read
  next => cases read
  next =>
    cases read
    exact List.forall_mem_nil _
  next =>
    split at read
    next => cases read
    next found => exact forall_moreItems gives (List.forall_mem_singleton.mpr (gives found)) read

theorem holds_member (gives : Gives item holds) {taken : Taken (String × Json) start}
    (read : member item text start = .ok taken) : holds taken.item.2 := by
  obtain ⟨key, _, rest⟩ := bind_eq_ok read
  dsimp only at rest
  split at rest
  next => cases rest
  next =>
    obtain ⟨value, found, last⟩ := bind_eq_ok rest
    cases last
    exact gives found
  next => cases rest

theorem forall_moreMembers (gives : Gives item holds) {index : Nat} {later : start < index}
    {members : Array (String × Json)} (before : ∀ known ∈ members.toList, holds known.2)
    {taken : Taken (List (String × Json)) start}
    (read : moreMembers item text index later members = .ok taken) :
    ∀ known ∈ taken.item, holds known.2 := by
  fun_induction moreMembers item text index later members with
  | case1 | case3 | case4 | case5 | case7 | case8 => cases read
  | case2 =>
    cases read
    exact before
  | case6 _ _ _ _ _ _ _ _ _ _ _ found _ ih =>
    refine ih ?_ read
    rw [Array.toList_push]
    have last := holds_member gives found
    exact List.forall_mem_append.mpr ⟨before, List.forall_mem_singleton.mpr last⟩

theorem forall_membersOf (gives : Gives item holds) {taken : Taken (List (String × Json)) start}
    (read : membersOf item text start = .ok taken) : ∀ known ∈ taken.item, holds known.2 := by
  unfold membersOf at read
  dsimp only at read
  split at read
  next => cases read
  next =>
    cases read
    exact List.forall_mem_nil _
  next =>
    split at read
    next => cases read
    next found =>
      refine forall_moreMembers gives ?_ read
      exact List.forall_mem_singleton.mpr (holds_member gives found)
  next => cases read

end gather

/-- The forms of what is read, with the nesting that there was to spare. -/
inductive ReadForm (text : ByteArray) : Nat → Json → Prop
  | null (nesting : Nat) : ReadForm text nesting .null
  | bool (nesting : Nat) (truth : Bool) : ReadForm text nesting (.bool truth)
  | number (nesting : Nat) (value : Number) : ReadForm text nesting (.number value)
  | string (nesting : Nat) (content : String) : ReadForm text nesting (.string content)
  | array {nesting start : Nat} {gathered : Taken (List Json) start}
    (read : list (value text nesting) text start = .ok gathered) :
    ReadForm text (nesting + 1) (.array gathered.item)
  | object {nesting start : Nat} {gathered : Taken (List (String × Json)) start}
    (read : membersOf (value text nesting) text start = .ok gathered) :
    ReadForm text (nesting + 1) (.object (Fields.ofMembers gathered.item))

theorem readForm {text : ByteArray} {nesting start : Nat} {taken : Taken Json start}
    (read : value text nesting start = .ok taken) : ReadForm text nesting taken.item := by
  unfold value valueWith at read
  dsimp only at read
  split at read
  next => cases read
  next =>
    obtain ⟨_, _, last⟩ := bind_eq_ok read
    cases last
    exact .null _
  next =>
    obtain ⟨_, _, last⟩ := bind_eq_ok read
    cases last
    exact .bool _ true
  next =>
    obtain ⟨_, _, last⟩ := bind_eq_ok read
    cases last
    exact .bool _ false
  next =>
    obtain ⟨_, _, last⟩ := bind_eq_ok read
    cases last
    exact .number ..
  next =>
    obtain ⟨_, _, last⟩ := bind_eq_ok read
    cases last
    exact .string ..
  next =>
    split at read
    next => cases read
    next =>
      obtain ⟨_, gathered, last⟩ := bind_eq_ok read
      cases last
      exact .array gathered
  next =>
    split at read
    next => cases read
    next =>
      obtain ⟨_, gathered, last⟩ := bind_eq_ok read
      cases last
      exact .object gathered
  next =>
    split at read
    next =>
      obtain ⟨_, _, last⟩ := bind_eq_ok read
      cases last
      exact .number ..
    next => cases read

/-- What is read with some nesting to spare has a property for this nesting, as soon as scalars
have it for any, and lists and objects for one more than all that they gather. -/
theorem gives_value {holds : Nat → Json → Prop} (null : ∀ nesting, holds nesting .null)
    (bool : ∀ nesting truth, holds nesting (.bool truth))
    (number : ∀ nesting value, holds nesting (.number value))
    (string : ∀ nesting text, holds nesting (.string text))
    (array : ∀ nesting (items : List Json),
      (∀ item ∈ items, holds nesting item) → holds (nesting + 1) (.array items))
    (object : ∀ nesting (members : List (String × Json)),
      (∀ member ∈ members, holds nesting member.2) →
        holds (nesting + 1) (.object (Fields.ofMembers members)))
    (text : ByteArray) (nesting : Nat) : Gives (value text nesting) (holds nesting) := by
  induction nesting using Nat.strongRecOn with
  | ind nesting ih =>
    intro start taken read
    have form := readForm read
    generalize taken.item = document at form
    cases form with
    | null => exact null nesting
    | bool _ truth => exact bool nesting truth
    | number _ value => exact number nesting value
    | string _ content => exact string nesting content
    | @array less _ _ gathered =>
      exact array less _ (forall_list (ih less (Nat.lt_succ_self less)) gathered)
    | @object less _ _ gathered =>
      exact object less _ (forall_membersOf (ih less (Nat.lt_succ_self less)) gathered)

end ValueScript.Json
