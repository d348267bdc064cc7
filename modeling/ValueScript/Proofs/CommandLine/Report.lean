import ValueScript.Proofs.CommandLine.PrintedReport

namespace ValueScript.Report

/-- The lines of a text, each without the line feed that ends it. -/
def lines : List Char → List (List Char)
  | [] => []
  | char :: rest =>
    if char = '\n' then [] :: lines rest
    else
      match lines rest with
      | [] => [[char]]
      | first :: more => (char :: first) :: more

/-- A character that is no line feed only opens a line when nothing follows it. -/
theorem length_lines_cons_of_ne {char : Char} (apart : char ≠ '\n') (next : Char)
    (rest : List Char) : (lines (char :: next :: rest)).length = (lines (next :: rest)).length := by
  have some : lines (next :: rest) ≠ [] := by
    rw [lines]
    split
    · exact List.cons_ne_nil _ _
    · split <;> exact List.cons_ne_nil _ _
  obtain ⟨first, more, split⟩ := List.exists_cons_of_ne_nil some
  rw [lines, if_neg apart, split]
  rfl

/-- Counting line feeds, and a last line that none of them ends, counts the lines. -/
theorem lineCount_eq (text : String) : lineCount text = (lines text.toList).length := by
  unfold lineCount
  generalize text.toList = chars
  induction chars with
  | nil => rfl
  | cons char rest ih =>
    cases rest with
    | nil => by_cases feed : char = '\n' <;> simp [feed, lines]
    | cons next rest =>
      dsimp only at ih ⊢
      rw [List.getLast?_cons_cons]
      by_cases feed : char = '\n'
      · rw [feed, List.count_cons_self, lines, if_pos rfl, List.length_cons, ← ih]
        split
        · rfl
        · split <;> rfl
      · rw [List.count_cons_of_ne feed, length_lines_cons_of_ne feed, ← ih]

theorem length_lines_le (chars : List Char) : (lines chars).length ≤ chars.length := by
  induction chars with
  | nil => exact Nat.le_refl _
  | cons char rest ih =>
    rw [lines]
    split
    next => exact Nat.succ_le_succ ih
    next =>
      split
      next => exact Nat.succ_le_succ (Nat.zero_le _)
      next more shown =>
        rw [shown] at ih
        exact Nat.le_succ_of_le ih

theorem lineCount_le (text : String) : lineCount text ≤ text.utf8ByteSize := by
  rw [lineCount_eq]
  exact Nat.le_trans (length_lines_le _) (Json.length_le_utf8ByteSize text)

/-- Whether members tell of a script how many lines and bytes its text has and which notices it
gives, with this as its text. -/
structure Describes (members : Fields Json) (script : Script) (text : Option Json) : Prop where
  lines : Fields.find? members "lines" =
    some (.number (.int (lines script.text.toList).length))
  bytes : Fields.find? members "bytes" = some (.number (.int script.text.toUTF8.size))
  warnings : Fields.find? members "warnings" =
    some (.array (script.warnings.map fun warning => .string warning.message))
  text : Fields.find? members "text" = text

theorem documents_texts {α : Type} (content : α → String) (items : List α) :
    documents (items.map fun item => .text (content item)) =
      items.map fun item => .string (content item) := by
  induction items with
  | nil => rw [List.map_nil, documents]; rfl
  | cons item rest ih => rw [List.map_cons, documents, document, ih, List.map_cons]

section ofScript

variable {path name : String} {compression : Compression} {out : Option String} {script : Script}

theorem readable_ofScript (small : script.text.utf8ByteSize < Json.significandBound) :
    (ofScript path name compression out script).Readable Json.greatestNesting := by
  have notices : Readable 126 (.list (script.warnings.map fun warning => .text warning.message)) := by
    refine @Readable.list 125 _ fun item member => ?_
    obtain ⟨warning, _, rfl⟩ := List.mem_map.mp member
    exact .text
  have lines := Nat.lt_of_le_of_lt (lineCount_le script.text) small
  unfold ofScript
  refine @Readable.object 126 _ ?_
  cases out with
  | none => simp [Readable.text, Readable.null, Readable.count, lines, small, notices]
  | some path => simp [Readable.text, Readable.count, lines, small, notices]

/-- What is printed of a script describes it, and shows its text unless that went to a file. -/
theorem read_ofScript (small : script.text.utf8ByteSize < Json.significandBound) :
    ∃ members, Json.read ((ofScript path name compression out script).pretty 0 ++ "\n").toUTF8 =
        .ok (.object members) ∧
      Describes members script (if out.isSome then none else some (.string script.text)) := by
  have shown := Json.read_pretty (@readable_ofScript path name compression out script small)
  have notices := documents_texts Warning.message script.warnings
  have count := lineCount_eq script.text
  unfold ofScript at shown ⊢
  rw [document] at shown
  refine ⟨_, shown, ?_⟩
  cases out with
  | none =>
    simp only [Option.isSome_none, Bool.false_eq_true, if_false, List.cons_append, List.nil_append,
      entries, document, notices, count]
    exact ⟨rfl, rfl, rfl, rfl⟩
  | some path =>
    simp only [Option.isSome_some, if_true, entries, document, notices, count]
    exact ⟨rfl, rfl, rfl, rfl⟩

end ofScript

end ValueScript.Report
