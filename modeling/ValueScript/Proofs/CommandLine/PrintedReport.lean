import ValueScript.Proofs.CommandLine.QuotedText
import ValueScript.Proofs.Json.Counts
import ValueScript.Proofs.Json.Taking

/-! Reports read back. What a report prints, read as a document, has the members of the report. -/

namespace ValueScript

namespace Report

mutual

/-- The document that a report stands for. -/
def document : Report → Json
  | .null => .null
  | .count number => .number (.int number)
  | .text content => .string content
  | .list items => .array (documents items)
  | .object members => .object (Fields.ofMembers (entries members))

def documents : List Report → List Json
  | [] => []
  | item :: rest => document item :: documents rest

def entries : List (String × Report) → List (String × Json)
  | [] => []
  | (key, item) :: rest => (key, document item) :: entries rest

end

/-- Whether a report has no more than some lists and objects inside each other, and no count that
reading would round. -/
inductive Readable : Nat → Report → Prop
  | null {nesting : Nat} : Readable nesting .null
  | count {nesting number : Nat} (small : number < Json.significandBound) :
    Readable nesting (.count number)
  | text {nesting : Nat} {content : String} : Readable nesting (.text content)
  | list {nesting : Nat} {items : List Report} (inner : ∀ item ∈ items, Readable nesting item) :
    Readable (nesting + 1) (.list items)
  | object {nesting : Nat} {members : List (String × Report)}
    (inner : ∀ member ∈ members, Readable nesting member.2) : Readable (nesting + 1) (.object members)

end Report

namespace Json

/-- The bytes of a text. -/
def bytes (text : String) : List UInt8 := encoded text.toList

theorem bytes_append (front back : String) : bytes (front ++ back) = bytes front ++ bytes back := by
  rw [bytes, String.toList_append, encoded_append]
  rfl

theorem bytes_ofList (chars : List Char) : bytes (String.ofList chars) = encoded chars := by
  rw [bytes, String.toList_ofList]

theorem toList_toUTF8 (text : String) : text.toUTF8.data.toList = bytes text := by
  have stored := toUTF8_ofList text.toList
  rw [String.ofList_toList] at stored
  rw [stored, bytes]

theorem length_le_utf8ByteSize (text : String) : text.toList.length ≤ text.utf8ByteSize := by
  have size : text.utf8ByteSize = (encoded text.toList).length := by
    rw [← bytes, ← toList_toUTF8]
    rfl
  rw [size]
  generalize text.toList = chars
  induction chars with
  | nil => exact Nat.le_refl _
  | cons char chars ih =>
    have some := List.length_pos_iff.mpr (@String.utf8EncodeChar_ne_nil char)
    rw [encoded_cons, List.length_append, List.length_cons]
    omega

theorem bytes_newline (level : Nat) :
    bytes (Report.newline level) = 0x0a :: List.replicate (2 * level) 0x20 := by
  have blanks (count : Nat) : encoded (List.replicate count ' ') = List.replicate count 0x20 := by
    induction count with
    | zero => rfl
    | succ count ih =>
      rw [List.replicate_succ, encoded_cons, ih]
      rfl
  rw [Report.newline, bytes_append, bytes_ofList (List.replicate (2 * level) ' '), blanks]
  rfl

theorem isBlank_newline (level : Nat) : ∀ byte ∈ bytes (Report.newline level), isBlank byte = true := by
  rw [bytes_newline]
  refine List.forall_mem_cons.mpr ⟨rfl, fun byte member => ?_⟩
  rw [List.eq_of_mem_replicate member]
  rfl

theorem bytes_quoted (content : String) :
    bytes (Report.quoted content) =
      0x22 :: (encoded (content.toList.flatMap Report.escaped) ++ [0x22]) := by
  rw [Report.quoted, bytes_append, bytes_append, bytes_ofList (content.toList.flatMap Report.escaped)]
  rfl

section printed

variable (level : Nat)

theorem bytes_null : bytes (Report.null.pretty level) = [0x6e, 0x75, 0x6c, 0x6c] := by
  rw [Report.pretty]
  rfl

theorem bytes_count (size : Nat) :
    bytes ((Report.count size).pretty level) = encoded (Nat.toDigits 10 size) := by
  rw [Report.pretty, bytes, Nat.toList_repr]

theorem bytes_text (content : String) :
    bytes ((Report.text content).pretty level) =
      0x22 :: (encoded (content.toList.flatMap Report.escaped) ++ [0x22]) := by
  rw [Report.pretty, bytes_quoted]

theorem bytes_prettyItems_nil : bytes (Report.prettyItems level []) = [] := by
  rw [Report.prettyItems]
  rfl

theorem bytes_prettyItems_cons (report : Report) (reports : List Report) :
    bytes (Report.prettyItems level (report :: reports)) =
      0x2c :: (bytes (Report.newline level) ++
        (bytes (report.pretty level) ++ bytes (Report.prettyItems level reports))) := by
  have comma : bytes "," = [0x2c] := rfl
  simp only [Report.prettyItems, bytes_append, comma, List.append_assoc, List.cons_append,
    List.nil_append]

theorem bytes_list_nil : bytes ((Report.list []).pretty level) = [0x5b, 0x5d] := by
  rw [Report.pretty]
  rfl

theorem bytes_list_cons (report : Report) (reports : List Report) :
    bytes ((Report.list (report :: reports)).pretty level) =
      0x5b :: (bytes (Report.newline (level + 1)) ++ (bytes (report.pretty (level + 1)) ++
        (bytes (Report.prettyItems (level + 1) reports) ++
          (bytes (Report.newline level) ++ [0x5d])))) := by
  have opening : bytes "[" = [0x5b] := rfl
  have closing : bytes "]" = [0x5d] := rfl
  simp only [Report.pretty, bytes_append, opening, closing, List.append_assoc, List.cons_append,
    List.nil_append]

/-- The bytes of a member after the quote that opens its key. -/
def memberBytes (member : String × Report) : List UInt8 :=
  encoded (member.1.toList.flatMap Report.escaped) ++
    0x22 :: 0x3a :: 0x20 :: bytes (member.2.pretty level)

theorem bytes_prettyMembers_nil : bytes (Report.prettyMembers level []) = [] := by
  rw [Report.prettyMembers]
  rfl

theorem bytes_prettyMembers_cons (member : String × Report) (members : List (String × Report)) :
    bytes (Report.prettyMembers level (member :: members)) =
      0x2c :: (bytes (Report.newline level) ++
        0x22 :: (memberBytes level member ++ bytes (Report.prettyMembers level members))) := by
  have comma : bytes "," = [0x2c] := rfl
  have colon : bytes ": " = [0x3a, 0x20] := rfl
  simp only [Report.prettyMembers, bytes_append, bytes_quoted, comma, colon, memberBytes,
    List.append_assoc, List.cons_append, List.nil_append]

theorem bytes_object_nil : bytes ((Report.object []).pretty level) = [0x7b, 0x7d] := by
  rw [Report.pretty]
  rfl

theorem bytes_object_cons (member : String × Report) (members : List (String × Report)) :
    bytes ((Report.object (member :: members)).pretty level) =
      0x7b :: (bytes (Report.newline (level + 1)) ++ 0x22 :: (memberBytes (level + 1) member ++
        (bytes (Report.prettyMembers (level + 1) members) ++
          (bytes (Report.newline level) ++ [0x7d])))) := by
  have opening : bytes "\x7b" = [0x7b] := rfl
  have closing : bytes "\x7d" = [0x7d] := rfl
  have colon : bytes ": " = [0x3a, 0x20] := rfl
  simp only [Report.pretty, bytes_append, bytes_quoted, opening, closing, colon, memberBytes,
    List.append_assoc, List.cons_append, List.nil_append]

end printed

theorem apart_of_digit {byte : UInt8} {digit : Nat} (shown : digit? byte = some digit) :
    isBlank byte = false ∧ byte ≠ 0x5d := by
  constructor
  · rw [Bool.eq_false_iff]
    intro blank
    simp only [isBlank, Bool.or_eq_true, beq_iff_eq] at blank
    obtain ((rfl | rfl) | rfl) | rfl := blank <;> cases shown
  · rintro rfl
    cases shown

theorem head_toDigits (size : Nat) :
    ∃ byte digit, (encoded (Nat.toDigits 10 size)).head? = some byte ∧ digit? byte = some digit := by
  obtain ⟨first, rest, digits, digit, _⟩ := toDigits_head size
  obtain ⟨byte, alone, shown⟩ := encoded_digit digit
  exact ⟨byte, _, by rw [digits, encoded_cons, alone]; rfl, shown⟩

/-- What a report prints begins with no blank, and with no bracket that closes a list. -/
theorem head_pretty (level : Nat) (report : Report) :
    ∃ byte, (bytes (report.pretty level)).head? = some byte ∧ isBlank byte = false ∧ byte ≠ 0x5d := by
  match report with
  | .null => exact ⟨0x6e, by rw [bytes_null]; rfl, rfl, by decide⟩
  | .count size =>
    obtain ⟨byte, digit, head, shown⟩ := head_toDigits size
    exact ⟨byte, by rw [bytes_count, head], apart_of_digit shown⟩
  | .text content => exact ⟨0x22, by rw [bytes_text]; rfl, rfl, by decide⟩
  | .list [] => exact ⟨0x5b, by rw [bytes_list_nil]; rfl, rfl, by decide⟩
  | .list (item :: rest) => exact ⟨0x5b, by rw [bytes_list_cons]; rfl, rfl, by decide⟩
  | .object [] => exact ⟨0x7b, by rw [bytes_object_nil]; rfl, rfl, by decide⟩
  | .object (member :: rest) => exact ⟨0x7b, by rw [bytes_object_cons]; rfl, rfl, by decide⟩

section items

variable {item : (index : Nat) → Reading Json index} {text : ByteArray} {start index : Nat}
  {level : Nat} {blanks rest : List UInt8}

/-- Whether a reader reads what a report prints at any level, with blanks before it. -/
def ReadsReport (item : (index : Nat) → Reading Json index) (text : ByteArray) (report : Report) :
    Prop :=
  ∀ {level index : Nat} {blanks rest : List UInt8}, (∀ byte ∈ blanks, isBlank byte = true) →
    Closed rest → Left text index (blanks ++ (bytes (report.pretty level) ++ rest)) →
      Reads text (item index) report.document rest

theorem ReadsReport.here {report : Report} (own : ReadsReport item text report) (closed : Closed rest)
    {place : Nat} (left : Left text place (bytes (report.pretty level) ++ rest)) :
    Reads text (item place) report.document rest :=
  @own level place [] rest (List.forall_mem_nil _) closed left

theorem closed_newline (level : Nat) (rest : List UInt8) :
    Closed (bytes (Report.newline level) ++ rest) := by
  rw [bytes_newline]
  exact .inr rfl

theorem closed_prettyItems (reports : List Report) (closed : Closed rest) :
    Closed (bytes (Report.prettyItems level reports) ++ rest) := by
  cases reports with
  | nil => rwa [bytes_prettyItems_nil]
  | cons report reports =>
    rw [bytes_prettyItems_cons]
    exact .inl rfl

theorem closed_prettyMembers (members : List (String × Report)) (closed : Closed rest) :
    Closed (bytes (Report.prettyMembers level members) ++ rest) := by
  cases members with
  | nil => rwa [bytes_prettyMembers_nil]
  | cons member members =>
    rw [bytes_prettyMembers_cons]
    exact .inl rfl

/-- The items after the first are read with the commas before them and the bracket after them. -/
theorem moreItems_reads {later : start < index} {items : Array Json} {reports : List Report}
    (each : ∀ report ∈ reports, ReadsReport item text report)
    (blank : ∀ byte ∈ blanks, isBlank byte = true) (closed : Closed (blanks ++ 0x5d :: rest))
    (left : Left text index (bytes (Report.prettyItems level reports) ++ (blanks ++ 0x5d :: rest))) :
    Reads text (moreItems item text index later items) (items.toList ++ Report.documents reports)
      rest := by
  induction reports generalizing index items with
  | nil =>
    rw [bytes_prettyItems_nil] at left
    rw [Report.documents, List.append_nil]
    exact moreItems_of_close left blank
  | cons report reports ih =>
    obtain ⟨own, others⟩ := List.forall_mem_cons.mp each
    obtain ⟨byte, head, printed, apart⟩ := head_pretty level report
    rw [bytes_prettyItems_cons, List.cons_append, List.append_assoc, List.append_assoc] at left
    have pushed : items.toList ++ Report.documents (report :: reports) =
        (items.push report.document).toList ++ Report.documents reports := by
      rw [Report.documents, Array.toList_push, List.append_assoc, List.singleton_append]
    rw [pushed]
    exact moreItems_of_comma left (isBlank_newline level) (by rw [List.head?_append, head]; rfl)
      printed apart (own.here (closed_prettyItems reports closed)) (ih others)

theorem list_reads {reports : List Report} (each : ∀ report ∈ reports, ReadsReport item text report)
    (left : Left text start ((bytes ((Report.list reports).pretty level)).tail ++ rest)) :
    Reads text (list item text start) (Report.documents reports) rest := by
  cases reports with
  | nil =>
    rw [bytes_list_nil] at left
    rw [Report.documents]
    exact list_of_close left
  | cons report reports =>
    obtain ⟨own, others⟩ := List.forall_mem_cons.mp each
    obtain ⟨byte, head, printed, apart⟩ := head_pretty (level + 1) report
    have closed := closed_newline level (0x5d :: rest)
    simp only [bytes_list_cons, List.tail_cons, List.append_assoc, List.singleton_append] at left
    rw [Report.documents]
    exact list_of_item left (isBlank_newline (level + 1)) (by rw [List.head?_append, head]; rfl)
      printed apart (own.here (closed_prettyItems reports closed))
      (moreItems_reads others (isBlank_newline level) closed)

theorem member_reads {one : String × Report} (own : ReadsReport item text one.2) (closed : Closed rest)
    (left : Left text start (memberBytes level one ++ rest)) :
    Reads text (member item text start) (one.1, one.2.document) rest := by
  have space : ∀ byte ∈ [(0x20 : UInt8)], isBlank byte = true :=
    List.forall_mem_cons.mpr ⟨rfl, List.forall_mem_nil _⟩
  rw [memberBytes, List.append_assoc] at left
  exact member_of_key (quoted_reads left) fun after => @own level _ [0x20] rest space closed after

theorem moreMembers_reads {later : start < index} {gathered : Array (String × Json)}
    {members : List (String × Report)} (each : ∀ member ∈ members, ReadsReport item text member.2)
    (blank : ∀ byte ∈ blanks, isBlank byte = true) (closed : Closed (blanks ++ 0x7d :: rest))
    (left : Left text index
      (bytes (Report.prettyMembers level members) ++ (blanks ++ 0x7d :: rest))) :
    Reads text (moreMembers item text index later gathered)
      (gathered.toList ++ Report.entries members) rest := by
  induction members generalizing index gathered with
  | nil =>
    rw [bytes_prettyMembers_nil] at left
    rw [Report.entries, List.append_nil]
    exact moreMembers_of_close left blank
  | cons member members ih =>
    obtain ⟨own, others⟩ := List.forall_mem_cons.mp each
    rw [bytes_prettyMembers_cons] at left
    simp only [List.cons_append, List.append_assoc] at left
    have pushed : gathered.toList ++ Report.entries (member :: members) =
        (gathered.push (member.1, member.2.document)).toList ++ Report.entries members := by
      rw [Report.entries, Array.toList_push, List.append_assoc, List.singleton_append]
    rw [pushed]
    exact moreMembers_of_comma left (isBlank_newline level)
      (member_reads own (closed_prettyMembers members closed)) (ih others)

theorem membersOf_reads {members : List (String × Report)}
    (each : ∀ member ∈ members, ReadsReport item text member.2)
    (left : Left text start ((bytes ((Report.object members).pretty level)).tail ++ rest)) :
    Reads text (membersOf item text start) (Report.entries members) rest := by
  cases members with
  | nil =>
    rw [bytes_object_nil] at left
    rw [Report.entries]
    exact membersOf_of_close left
  | cons member members =>
    obtain ⟨own, others⟩ := List.forall_mem_cons.mp each
    have closed := closed_newline level (0x7d :: rest)
    simp only [bytes_object_cons, List.tail_cons, List.append_assoc, List.cons_append,
      List.nil_append] at left
    rw [Report.entries]
    exact membersOf_of_member left (isBlank_newline (level + 1))
      (member_reads own (closed_prettyMembers members closed))
      (moreMembers_reads others (isBlank_newline level) closed)

end items

theorem bytes_list (level : Nat) (reports : List Report) :
    bytes ((Report.list reports).pretty level) =
      0x5b :: (bytes ((Report.list reports).pretty level)).tail := by
  cases reports with
  | nil => rw [bytes_list_nil]; rfl
  | cons => rw [bytes_list_cons]; rfl

theorem bytes_object (level : Nat) (members : List (String × Report)) :
    bytes ((Report.object members).pretty level) =
      0x7b :: (bytes ((Report.object members).pretty level)).tail := by
  cases members with
  | nil => rw [bytes_object_nil]; rfl
  | cons => rw [bytes_object_cons]; rfl

/-- What a report prints is read as its document, if it is followed by a comma or a line feed. -/
theorem readsReport {nesting : Nat} {report : Report} (readable : report.Readable nesting)
    (text : ByteArray) : ReadsReport (value text nesting) text report := by
  induction readable with
  | null =>
    intro level index blanks rest blank closed left
    rw [bytes_null] at left
    rw [Report.document]
    exact value_of_null blank left
  | count small =>
    intro level index blanks rest blank closed left
    obtain ⟨byte, digit, head, shown⟩ := head_toDigits _
    rw [bytes_count] at left
    rw [Report.document]
    exact value_of_digit blank left (by rw [List.head?_append, head]; rfl) shown
      (apart_of_digit shown).1 fun place => numeral_reads place closed small
  | text =>
    intro level index blanks rest blank closed left
    rw [bytes_text, List.cons_append, List.append_assoc] at left
    rw [Report.document]
    exact value_of_quote blank left quoted_reads
  | list inner ih =>
    intro level index blanks rest blank closed left
    rw [bytes_list, List.cons_append] at left
    rw [Report.document]
    exact value_of_bracket blank left (list_reads ih)
  | object inner ih =>
    intro level index blanks rest blank closed left
    rw [bytes_object, List.cons_append] at left
    rw [Report.document]
    exact value_of_brace blank left (membersOf_reads ih)

/-- A printed report is read as its document. -/
theorem read_pretty {report : Report} (readable : report.Readable greatestNesting) :
    read (report.pretty 0 ++ "\n").toUTF8 = .ok report.document := by
  have feed : bytes "\n" = [0x0a] := rfl
  have left := left_zero (report.pretty 0 ++ "\n").toUTF8
  rw [toList_toUTF8, bytes_append, feed] at left
  generalize (report.pretty 0 ++ "\n").toUTF8 = text at left
  have reads : ReadsReport (value text greatestNesting) text report := readsReport readable text
  obtain ⟨taken, found, same, after⟩ := reads.here (.inr rfl) left
  have blank : ∀ byte ∈ [(0x0a : UInt8)], isBlank byte = true :=
    List.forall_mem_cons.mpr ⟨rfl, List.forall_mem_nil _⟩
  have last := @Left.skipWhile text taken.next [] isBlank [0x0a] after blank (by simp)
  unfold value at found
  rw [read, readWith, found]
  dsimp only [bind, Except.bind]
  rw [skipBlanks, if_neg (Nat.not_lt.mpr last.size_le), same]
  rfl

end Json

end ValueScript
