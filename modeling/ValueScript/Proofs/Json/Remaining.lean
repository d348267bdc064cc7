import ValueScript.Json.Cursor

/-! What is left of a text at a position, and readers that take the start of it. -/

namespace ValueScript.Json

/-- The bytes of characters. -/
def encoded (chars : List Char) : List UInt8 := chars.flatMap String.utf8EncodeChar

@[simp] theorem encoded_nil : encoded [] = [] := rfl

@[simp] theorem encoded_cons (char : Char) (rest : List Char) :
    encoded (char :: rest) = String.utf8EncodeChar char ++ encoded rest := rfl

@[simp] theorem encoded_append (front back : List Char) :
    encoded (front ++ back) = encoded front ++ encoded back :=
  List.flatMap_append

theorem utf8EncodeChar_of_lt {char : Char} (small : char.toNat < 0x80) :
    String.utf8EncodeChar char = [UInt8.ofNat char.toNat] := by
  unfold String.utf8EncodeChar
  exact if_pos (Nat.le_of_lt_succ small)

theorem toUTF8_ofList (chars : List Char) :
    (String.ofList chars).toUTF8 = ⟨⟨encoded chars⟩⟩ := by
  rw [String.toUTF8_eq_toByteArray, String.toByteArray_ofList]
  apply ByteArray.ext
  apply Array.toList_inj.mp
  exact List.toList_data_toByteArray

/-- Whether these bytes are left of a text at a position. -/
def Left (text : ByteArray) (index : Nat) (bytes : List UInt8) : Prop :=
  text.data.toList.drop index = bytes

section Left

variable {text : ByteArray} {index : Nat} {byte : UInt8} {rest : List UInt8}

theorem left_zero (text : ByteArray) : Left text 0 text.data.toList := rfl

theorem Left.byteAt?_eq (left : Left text index rest) : byteAt? text index = rest.head? := by
  unfold Left at left
  rw [← left, List.head?_drop, byteAt?]
  split
  next inside => exact (Array.getElem?_toList ..).trans (Array.getElem?_eq_getElem inside) |>.symm
  next outside =>
    refine (List.getElem?_eq_none ?_).symm
    exact Nat.le_of_not_lt outside

theorem Left.tail (left : Left text index (byte :: rest)) : Left text (index + 1) rest := by
  unfold Left at *
  rw [← List.drop_drop, left]
  rfl

theorem Left.size_le (left : Left text index []) : text.size ≤ index := by
  exact List.drop_eq_nil_iff.mp left

/-- Skipping passes a run of accepted bytes, up to one that is not accepted. -/
theorem Left.skipWhile {accept : UInt8 → Bool} {run : List UInt8}
    (left : Left text index (run ++ rest)) (accepted : ∀ byte ∈ run, accept byte = true)
    (ends : ∀ byte ∈ rest.head?, accept byte = false) :
    Left text (Json.skipWhile accept text index) rest := by
  induction run generalizing index with
  | nil =>
    have here := left.byteAt?_eq
    rw [Json.skipWhile]
    unfold byteAt? at here
    split
    next inside =>
      rw [dif_pos inside] at here
      rw [if_neg (by simp [ends _ here.symm])]
      exact left
    next => exact left
  | cons byte run ih =>
    obtain ⟨first, others⟩ := List.forall_mem_cons.mp accepted
    have here := left.byteAt?_eq
    have inside := lt_size_of_byteAt? here
    rw [byteAt?, dif_pos inside] at here
    cases here
    rw [Json.skipWhile, dif_pos inside, if_pos first]
    exact ih left.tail others

end Left

/-- Whether a reader takes this item and leaves these bytes. -/
def Reads {α : Type} {start : Nat} (text : ByteArray) (outcome : Reading α start) (item : α)
    (rest : List UInt8) : Prop :=
  ∃ taken, outcome = .ok taken ∧ taken.item = item ∧ Left text taken.next rest

section Reads

variable {α β : Type} {start : Nat} {text : ByteArray} {outcome : Reading α start} {item : α}
  {rest : List UInt8}

theorem reads_ok {next : Nat} (later : start < next) (left : Left text next rest) :
    Reads text (.ok ⟨item, next, later⟩ : Reading α start) item rest :=
  ⟨_, rfl, rfl, left⟩

theorem Reads.since_map (reads : Reads text outcome item rest) (convert : α → β) (earlier : Nat)
    (before : earlier ≤ start) :
    Reads text (do return ((← outcome).map convert).since earlier before) (convert item) rest := by
  obtain ⟨taken, rfl, rfl, left⟩ := reads
  exact ⟨_, rfl, rfl, left⟩

end Reads

end ValueScript.Json
