import ValueScript.Json.Reader
import ValueScript.Proofs.Json.Remaining

namespace ValueScript.Json

variable {text : ByteArray} {start index : Nat} {blanks front after rest : List UInt8} {first : UInt8}

/-- Blanks are passed over up to a byte that is none. -/
theorem Left.skipBlanks (left : Left text index (blanks ++ front))
    (blank : ∀ byte ∈ blanks, isBlank byte = true) (head : front.head? = some first)
    (printed : isBlank first = false) :
    Left text (Json.skipBlanks text index) front ∧
      byteAt? text (Json.skipBlanks text index) = some first := by
  have past : Left text (Json.skipBlanks text index) front := by
    refine left.skipWhile blank fun other member => ?_
    cases head.symm.trans member
    exact printed
  exact ⟨past, past.byteAt?_eq.trans head⟩

theorem Left.skipBlanks_self (left : Left text index (first :: rest)) (printed : isBlank first = false) :
    Left text (Json.skipBlanks text index) (first :: rest) ∧
      byteAt? text (Json.skipBlanks text index) = some first :=
  @Left.skipBlanks text index [] _ _ left (List.forall_mem_nil _) rfl printed

section item

variable {item : (index : Nat) → Reading Json index} {value : Json}

section lists

variable {later : start < index} {items : Array Json} {gathered : List Json}

theorem moreItems_of_close (left : Left text index (blanks ++ 0x5d :: rest))
    (blank : ∀ byte ∈ blanks, isBlank byte = true) :
    Reads text (moreItems item text index later items) items.toList rest := by
  obtain ⟨past, here⟩ := left.skipBlanks blank rfl rfl
  rw [moreItems]
  dsimp only
  split
  next found => cases found.symm.trans here
  next => exact reads_ok _ past.tail
  next found => cases found.symm.trans here
  next apart _ found => exact absurd (Option.some.inj (found.symm.trans here)) apart

theorem moreItems_of_comma (left : Left text index (0x2c :: (blanks ++ front)))
    (blank : ∀ byte ∈ blanks, isBlank byte = true) (head : front.head? = some first)
    (printed : isBlank first = false) (apart : first ≠ 0x5d)
    (reads : ∀ {place}, Left text place front → Reads text (item place) value after)
    (more : ∀ {index} {later : start < index}, Left text index after →
      Reads text (moreItems item text index later (items.push value)) gathered rest) :
    Reads text (moreItems item text index later items) gathered rest := by
  obtain ⟨past, here⟩ := left.skipBlanks_self rfl
  obtain ⟨place, found⟩ := past.tail.skipBlanks blank head printed
  obtain ⟨taken, read, rfl, beyond⟩ := reads place
  rw [moreItems]
  dsimp only
  split
  next none => cases none.symm.trans here
  next bracket => cases bracket.symm.trans here
  next =>
    rw [if_neg (by rw [found]; exact fun same => apart (Option.some.inj same)), read]
    exact more beyond
  next other byte => exact absurd (Option.some.inj (byte.symm.trans here)) other

theorem list_of_close (left : Left text start (0x5d :: rest)) :
    Reads text (list item text start) [] rest := by
  obtain ⟨past, here⟩ := left.skipBlanks_self rfl
  rw [list]
  dsimp only
  rw [here]
  exact reads_ok _ past.tail

theorem list_of_item (left : Left text start (blanks ++ front))
    (blank : ∀ byte ∈ blanks, isBlank byte = true) (head : front.head? = some first)
    (printed : isBlank first = false) (apart : first ≠ 0x5d)
    (reads : ∀ {place}, Left text place front → Reads text (item place) value after)
    (more : ∀ {index} {later : start < index}, Left text index after →
      Reads text (moreItems item text index later #[value]) gathered rest) :
    Reads text (list item text start) gathered rest := by
  obtain ⟨past, here⟩ := left.skipBlanks blank head printed
  obtain ⟨taken, read, rfl, beyond⟩ := reads past
  rw [list]
  dsimp only
  split
  next none => cases none.symm.trans here
  next bracket => exact absurd (Option.some.inj (here.symm.trans bracket)) apart
  next =>
    rw [read]
    exact more beyond

end lists

section objects

variable {later : start < index} {members : Array (String × Json)} {gathered : List (String × Json)}
  {next : String × Json}

/-- A member is read after the quote that opens its key. -/
theorem member_of_key {key : String} (named : Reads text (quoted text start) key (0x3a :: front))
    (reads : ∀ {place}, Left text place front → Reads text (item place) value rest) :
    Reads text (member item text start) (key, value) rest := by
  obtain ⟨name, read, rfl, left⟩ := named
  obtain ⟨colon, here⟩ := left.skipBlanks_self rfl
  obtain ⟨taken, found, rfl, last⟩ := reads colon.tail
  rw [member, read]
  dsimp only [bind, Except.bind]
  rw [here]
  rw [found]
  exact ⟨_, rfl, rfl, last⟩

theorem moreMembers_of_close (left : Left text index (blanks ++ 0x7d :: rest))
    (blank : ∀ byte ∈ blanks, isBlank byte = true) :
    Reads text (moreMembers item text index later members) members.toList rest := by
  obtain ⟨past, here⟩ := left.skipBlanks blank rfl rfl
  rw [moreMembers]
  dsimp only
  split
  next found => cases found.symm.trans here
  next => exact reads_ok _ past.tail
  next found => cases found.symm.trans here
  next apart _ found => exact absurd (Option.some.inj (found.symm.trans here)) apart

theorem moreMembers_of_comma (left : Left text index (0x2c :: (blanks ++ 0x22 :: front)))
    (blank : ∀ byte ∈ blanks, isBlank byte = true)
    (reads : ∀ {place}, Left text place front → Reads text (member item text place) next after)
    (more : ∀ {index} {later : start < index}, Left text index after →
      Reads text (moreMembers item text index later (members.push next)) gathered rest) :
    Reads text (moreMembers item text index later members) gathered rest := by
  obtain ⟨past, here⟩ := left.skipBlanks_self rfl
  obtain ⟨quote, found⟩ := past.tail.skipBlanks blank rfl rfl
  obtain ⟨taken, read, rfl, beyond⟩ := reads quote.tail
  rw [moreMembers]
  dsimp only
  split
  next none => cases none.symm.trans here
  next brace => cases brace.symm.trans here
  next =>
    rw [found]
    rw [read]
    exact more beyond
  next other byte => exact absurd (Option.some.inj (byte.symm.trans here)) other

theorem membersOf_of_close (left : Left text start (0x7d :: rest)) :
    Reads text (membersOf item text start) [] rest := by
  obtain ⟨past, here⟩ := left.skipBlanks_self rfl
  rw [membersOf]
  dsimp only
  rw [here]
  exact reads_ok _ past.tail

theorem membersOf_of_member (left : Left text start (blanks ++ 0x22 :: front))
    (blank : ∀ byte ∈ blanks, isBlank byte = true)
    (reads : ∀ {place}, Left text place front → Reads text (member item text place) next after)
    (more : ∀ {index} {later : start < index}, Left text index after →
      Reads text (moreMembers item text index later #[next]) gathered rest) :
    Reads text (membersOf item text start) gathered rest := by
  obtain ⟨past, here⟩ := left.skipBlanks blank rfl rfl
  obtain ⟨taken, read, rfl, beyond⟩ := reads past.tail
  rw [membersOf]
  dsimp only
  rw [here]
  rw [read]
  exact more beyond

end objects

end item

theorem word_reads {later : start < index} {letters : List UInt8}
    (left : Left text index (letters ++ rest)) : Reads text (word text index later letters) () rest := by
  induction letters generalizing index with
  | nil => exact reads_ok _ left
  | cons letter letters ih =>
    rw [word, left.byteAt?_eq]
    dsimp only [List.cons_append, List.head?_cons]
    rw [if_pos rfl]
    exact ih left.tail

section value

variable {nesting : Nat} (blank : ∀ byte ∈ blanks, isBlank byte = true)
include blank

theorem value_of_null (left : Left text index (blanks ++ 0x6e :: 0x75 :: 0x6c :: 0x6c :: rest)) :
    Reads text (value text nesting index) .null rest := by
  obtain ⟨past, here⟩ := left.skipBlanks blank rfl rfl
  obtain ⟨taken, read, _, beyond⟩ := @word_reads text index _ _
    (Nat.lt_succ_of_le (le_skipBlanks text index)) [0x75, 0x6c, 0x6c] past.tail
  unfold value valueWith
  dsimp only
  rw [here]
  rw [read]
  exact ⟨_, rfl, rfl, beyond⟩

theorem value_of_quote {content : String} (left : Left text index (blanks ++ 0x22 :: front))
    (reads : ∀ {place}, Left text place front → Reads text (quoted text place) content rest) :
    Reads text (value text nesting index) (.string content) rest := by
  obtain ⟨past, here⟩ := left.skipBlanks blank rfl rfl
  unfold value valueWith
  dsimp only
  rw [here]
  exact (reads past.tail).since_map Json.string index (Nat.le_succ_of_le (le_skipBlanks text index))

theorem value_of_bracket {items : List Json} (left : Left text index (blanks ++ 0x5b :: front))
    (reads : ∀ {place}, Left text place front →
      Reads text (list (value text nesting) text place) items rest) :
    Reads text (value text (nesting + 1) index) (.array items) rest := by
  obtain ⟨past, here⟩ := left.skipBlanks blank rfl rfl
  unfold value valueWith
  dsimp only
  rw [here]
  exact (reads past.tail).since_map Json.array index (Nat.le_succ_of_le (le_skipBlanks text index))

theorem value_of_brace {members : List (String × Json)}
    (left : Left text index (blanks ++ 0x7b :: front))
    (reads : ∀ {place}, Left text place front →
      Reads text (membersOf (value text nesting) text place) members rest) :
    Reads text (value text (nesting + 1) index) (.object (Fields.ofMembers members)) rest := by
  obtain ⟨past, here⟩ := left.skipBlanks blank rfl rfl
  unfold value valueWith
  dsimp only
  rw [here]
  exact (reads past.tail).since_map (Json.object ∘ Fields.ofMembers) index
    (Nat.le_succ_of_le (le_skipBlanks text index))

theorem value_of_digit {number : Number} {digit : Nat} (left : Left text index (blanks ++ front))
    (head : front.head? = some first) (shown : digit? first = some digit)
    (printed : isBlank first = false)
    (reads : ∀ {place}, Left text place front → Reads text (numeral false text place) number rest) :
    Reads text (value text nesting index) (.number number) rest := by
  obtain ⟨past, here⟩ := left.skipBlanks blank head printed
  unfold value valueWith
  dsimp only
  split
  next none => cases none.symm.trans here
  iterate 7
    next found =>
      cases found.symm.trans here
      cases shown
  next found =>
    cases found.symm.trans here
    rw [if_pos (by rw [shown]; rfl)]
    exact (reads past).since_map Json.number index (le_skipBlanks text index)

end value

end ValueScript.Json
