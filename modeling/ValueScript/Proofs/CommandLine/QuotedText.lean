import ValueScript.CommandLine.Report
import ValueScript.Json.Reader
import ValueScript.Proofs.Json.Remaining

namespace ValueScript.Json

/-- The bytes of a character of more than one byte are no characters of their own. -/
theorem le_of_mem_utf8EncodeChar {char : Char} (large : 0x80 ≤ char.toNat) {byte : UInt8}
    (member : byte ∈ String.utf8EncodeChar char) : 0x80 ≤ byte.toNat := by
  unfold String.utf8EncodeChar at member
  have several : ¬char.val.toNat ≤ 0x7f := Nat.not_le.mpr large
  rw [if_neg several] at member
  split at member
  · simp only [List.mem_cons, List.not_mem_nil, or_false] at member
    rcases member with rfl | rfl <;> rw [UInt8.toNat_ofNat'] <;> omega
  · split at member
    · simp only [List.mem_cons, List.not_mem_nil, or_false] at member
      rcases member with rfl | rfl | rfl <;> rw [UInt8.toNat_ofNat'] <;> omega
    · simp only [List.mem_cons, List.not_mem_nil, or_false] at member
      rcases member with rfl | rfl | rfl | rfl <;> rw [UInt8.toNat_ofNat'] <;> omega

theorem quotedRest_close {text : ByteArray} {start index : Nat} {inside : start ≤ index}
    {content : String} {rest : List UInt8} (left : Left text index (0x22 :: rest)) :
    Reads text (quotedRest text index inside content.toUTF8) content rest := by
  have here := left.byteAt?_eq
  have valid : String.fromUTF8? content.toUTF8 = some content := by
    unfold String.fromUTF8?
    exact dif_pos content.isValidUTF8
  rw [quotedRest]
  split
  next found => cases here.symm.trans found
  next byte found =>
    cases here.symm.trans found
    rw [if_pos rfl, close, valid]
    exact reads_ok _ left.tail

theorem quotedRest_byte {text : ByteArray} {start index : Nat} {inside : start ≤ index}
    {gathered : ByteArray} {byte : UInt8} {rest : List UInt8} (left : Left text index (byte :: rest))
    (notQuote : byte ≠ 0x22) (notEscape : byte ≠ 0x5c) (printed : ¬byte < 0x20) :
    quotedRest text index inside gathered =
      quotedRest text (index + 1) (Nat.le_succ_of_le inside) (gathered.push byte) := by
  have here := left.byteAt?_eq
  rw [quotedRest]
  split
  next found => cases here.symm.trans found
  next byte found =>
    cases here.symm.trans found
    rw [if_neg notQuote, if_neg notEscape, if_neg printed]

theorem quotedRest_escape {text : ByteArray} {start index : Nat} {inside : start ≤ index}
    {gathered : ByteArray} {rest : List UInt8} (left : Left text index (0x5c :: rest))
    {char : Taken Char (index + 1)} (escaped : escape text (index + 1) = .ok char) :
    quotedRest text index inside gathered =
      quotedRest text char.next (Nat.le_trans (Nat.le_succ_of_le inside) (Nat.le_of_lt char.later))
        (gathered ++ char.item.toString.toUTF8) := by
  have here := left.byteAt?_eq
  rw [quotedRest]
  split
  next found => cases here.symm.trans found
  next byte found =>
    cases here.symm.trans found
    rw [if_neg (by decide), if_pos rfl]
    split
    next failed => cases escaped.symm.trans failed
    next taken found =>
      cases escaped.symm.trans found
      rfl

theorem hexDigit?_digitChar {digit : Nat} (small : digit < 16) :
    hexDigit? (UInt8.ofNat (Nat.digitChar digit).toNat) = some digit := by
  revert digit
  decide

theorem toNat_digitChar_lt {digit : Nat} (small : digit < 16) :
    (Nat.digitChar digit).toNat < 0x80 := by
  revert digit
  decide

theorem hexQuad_reads {text : ByteArray} {start a b c d : Nat} {rest : List UInt8} (first : a < 16)
    (second : b < 16) (third : c < 16) (fourth : d < 16)
    (left : Left text start (encoded
      [Nat.digitChar a, Nat.digitChar b, Nat.digitChar c, Nat.digitChar d] ++ rest)) :
    Reads text (hexQuad text start) (((a * 16 + b) * 16 + c) * 16 + d) rest := by
  simp only [encoded_cons, encoded_nil, utf8EncodeChar_of_lt, toNat_digitChar_lt, first, second,
    third, fourth, List.cons_append, List.nil_append] at left
  rw [hexQuad, left.byteAt?_eq, left.tail.byteAt?_eq, left.tail.tail.byteAt?_eq,
    left.tail.tail.tail.byteAt?_eq]
  simp only [List.head?_cons, hexDigit?_digitChar, first, second, third, fourth]
  exact reads_ok _ left.tail.tail.tail.tail

theorem unicodeEscape_reads {text : ByteArray} {start unit : Nat} {rest : List UInt8}
    (reads : Reads text (hexQuad text start) unit rest) (basic : unit < 0xd800) :
    Reads text (unicodeEscape text start) (Char.ofNat unit) rest := by
  obtain ⟨first, read, rfl, left⟩ := reads
  have noTrail : ¬(0xdc00 ≤ first.item ∧ first.item ≤ 0xdfff) := by omega
  rw [unicodeEscape, read]
  change Reads text (if _ then _ else if _ then _ else _) _ _
  rw [if_neg noTrail, if_pos (.inl basic)]
  exact reads_ok _ left

theorem escape_reads {char : Char} {more : List Char} {text : ByteArray} {start : Nat}
    {rest : List UInt8} (special : Report.escaped char = '\\' :: more) (apart : more ≠ [])
    (left : Left text start (encoded more ++ rest)) : Reads text (escape text start) char rest := by
  unfold Report.escaped at special
  split at special
  iterate 7
    cases special
    rw [escape, left.byteAt?_eq]
    exact reads_ok _ left.tail
  split at special
  next control =>
    cases special
    have upper : char.toNat / 16 < 16 := by omega
    have lower : char.toNat % 16 < 16 := by omega
    have quad := @hexQuad_reads text (start + 1) 0 0 _ _ rest (by decide) (by decide) upper lower
      left.tail
    have whole : ((0 * 16 + 0) * 16 + char.toNat / 16) * 16 + char.toNat % 16 = char.toNat := by
      omega
    rw [whole] at quad
    have unit := unicodeEscape_reads quad (by omega)
    rw [Char.ofNat_toNat] at unit
    rw [escape, left.byteAt?_eq]
    exact unit.since_map id start (Nat.le_succ start)
  next =>
    cases special
    exact absurd rfl apart

/-- A character is written as itself or by an escape. -/
theorem escaped_cases (char : Char) :
    (∃ more, Report.escaped char = '\\' :: more ∧ more ≠ []) ∨
      Report.escaped char = [char] ∧ char ≠ '"' ∧ char ≠ '\\' ∧ 0x20 ≤ char.toNat := by
  unfold Report.escaped
  split
  iterate 7 exact .inl ⟨_, rfl, List.cons_ne_nil _ _⟩
  next noQuote noBackslash _ _ _ _ _ =>
    split
    next => exact .inl ⟨_, rfl, List.cons_ne_nil _ _⟩
    next printed => exact .inr ⟨rfl, noQuote, noBackslash, Nat.le_of_not_lt printed⟩

theorem printed_of_mem {char : Char} (noQuote : char ≠ '"') (noBackslash : char ≠ '\\')
    (printed : 0x20 ≤ char.toNat) {byte : UInt8} (member : byte ∈ String.utf8EncodeChar char) :
    byte ≠ 0x22 ∧ byte ≠ 0x5c ∧ ¬byte < 0x20 := by
  have value : byte.toNat ≠ 0x22 ∧ byte.toNat ≠ 0x5c ∧ 0x20 ≤ byte.toNat := by
    by_cases small : char.toNat < 0x80
    · rw [utf8EncodeChar_of_lt small, List.mem_singleton] at member
      have same : byte.toNat = char.toNat := by
        rw [member, UInt8.toNat_ofNat']
        omega
      rw [same]
      exact ⟨fun quote => noQuote (Char.toNat_inj.mp quote),
        fun backslash => noBackslash (Char.toNat_inj.mp backslash), printed⟩
    · have high := le_of_mem_utf8EncodeChar (Nat.le_of_not_lt small) member
      omega
  refine ⟨?_, ?_, ?_⟩
  · rintro rfl
    exact value.1 rfl
  · rintro rfl
    exact value.2.1 rfl
  · rw [UInt8.lt_iff_toNat_lt]
    exact Nat.not_lt.mpr value.2.2

theorem push_append_toByteArray (gathered : ByteArray) (byte : UInt8) (bytes : List UInt8) :
    gathered.push byte ++ bytes.toByteArray = gathered ++ (byte :: bytes).toByteArray := by
  apply ByteArray.ext
  apply Array.toList_inj.mp
  simp [ByteArray.data_append]

theorem quotedRest_bytes {text : ByteArray} {start index : Nat} {inside : start ≤ index}
    {gathered : ByteArray} {bytes rest : List UInt8} (left : Left text index (bytes ++ rest))
    (plain : ∀ byte ∈ bytes, byte ≠ 0x22 ∧ byte ≠ 0x5c ∧ ¬byte < 0x20) :
    ∃ next, ∃ beyond : start ≤ next, Left text next rest ∧
      quotedRest text index inside gathered =
        quotedRest text next beyond (gathered ++ bytes.toByteArray) := by
  induction bytes generalizing index gathered with
  | nil => exact ⟨index, inside, left, by simp⟩
  | cons byte bytes ih =>
    obtain ⟨⟨noQuote, noEscape, printed⟩, others⟩ := List.forall_mem_cons.mp plain
    obtain ⟨next, beyond, after, same⟩ :=
      @ih (index + 1) (Nat.le_succ_of_le inside) (gathered.push byte) left.tail others
    refine ⟨next, beyond, after, ?_⟩
    rw [quotedRest_byte left noQuote noEscape printed, same, push_append_toByteArray]

/-- A text is read from its escaped characters and a quote. -/
theorem quotedRest_reads {text : ByteArray} {start index : Nat} {inside : start ≤ index}
    {before : String} {chars : List Char} {rest : List UInt8}
    (left : Left text index (encoded (chars.flatMap Report.escaped) ++ 0x22 :: rest)) :
    Reads text (quotedRest text index inside before.toUTF8) (before ++ String.ofList chars) rest := by
  induction chars generalizing index before with
  | nil => simpa using quotedRest_close left
  | cons char chars ih =>
    rw [List.flatMap_cons, encoded_append, List.append_assoc] at left
    have longer : before ++ String.ofList (char :: chars) =
        before ++ String.singleton char ++ String.ofList chars := by
      apply String.toList_injective
      simp
    rw [longer]
    obtain ⟨more, special, apart⟩ | ⟨plain, noQuote, noBackslash, printed⟩ := escaped_cases char
    · rw [special] at left
      obtain ⟨taken, read, rfl, after⟩ := escape_reads special apart left.tail
      rw [quotedRest_escape left read]
      exact @ih taken.next _ (before ++ String.singleton taken.item) after
    · rw [plain, encoded_cons, encoded_nil, List.append_nil] at left
      obtain ⟨next, beyond, after, same⟩ :=
        @quotedRest_bytes text start index inside before.toUTF8 _ _ left
          fun byte member => printed_of_mem noQuote noBackslash printed member
      rw [same]
      have bytes : (String.singleton char).toUTF8 = (String.utf8EncodeChar char).toByteArray := by
        rw [String.toUTF8_eq_toByteArray, String.toByteArray_singleton, List.utf8Encode_singleton]
      rw [← bytes]
      exact @ih next beyond (before ++ String.singleton char) after

theorem quoted_reads {text : ByteArray} {start : Nat} {content : String} {rest : List UInt8}
    (left : Left text start
      (encoded (content.toList.flatMap Report.escaped) ++ 0x22 :: rest)) :
    Reads text (quoted text start) content rest := by
  have read := @quotedRest_reads text start start (Nat.le_refl _) "" content.toList rest left
  rw [String.ofList_toList, String.empty_append] at read
  exact read

end ValueScript.Json
