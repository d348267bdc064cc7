import ValueScript.Proofs.Reading.Statement
import ValueScript.Proofs.Separated

/-! Reading a whole script: cut into lines, its statements are read one after another. -/

namespace ValueScript

/-- Whether a text stays on its line. -/
def Unbroken (text : String) : Prop := '\n' ∉ text.toList

instance (text : String) : Decidable (Unbroken text) :=
  inferInstanceAs (Decidable ('\n' ∉ text.toList))

namespace Unbroken

theorem append {first second : String} (unbroken : Unbroken first) (unbroken' : Unbroken second) :
    Unbroken (first ++ second) := by
  unfold Unbroken
  rw [String.toList_append, List.mem_append]
  rintro (before | after)
  · exact unbroken before
  · exact unbroken' after

theorem join {texts : List String} (unbroken : ∀ text ∈ texts, Unbroken text) :
    Unbroken (String.join texts) := by
  unfold Unbroken
  rw [String.toList_join]
  intro broken
  obtain ⟨text, listed, within⟩ := List.mem_flatMap.mp broken
  exact unbroken text listed within

theorem intercalate {gap : String} (unbroken : Unbroken gap) {texts : List String}
    (unbroken' : ∀ text ∈ texts, Unbroken text) : Unbroken (gap.intercalate texts) := by
  match texts with
  | [] => exact List.not_mem_nil
  | [text] =>
    rw [String.intercalate_singleton]
    exact unbroken' text List.mem_cons_self
  | text :: next :: more =>
    obtain ⟨first, later⟩ := List.forall_mem_cons.mp unbroken'
    rw [String.intercalate_cons_cons]
    exact (first.append unbroken).append (unbroken.intercalate later)

theorem closed {gap : String} (unbroken : Unbroken gap) {texts : List String}
    (unbroken' : ∀ text ∈ texts, Unbroken text) : Unbroken (String.join (texts.map (· ++ gap))) := by
  apply join
  intro text member
  obtain ⟨inner, listed, rfl⟩ := List.mem_map.mp member
  exact (unbroken' inner listed).append unbroken

theorem of_plain {token : String} (plain : Token.Plain token) : Unbroken token := by
  intro broken
  have kept := plain.2 _ broken
  cases kept

theorem of_reads {cls : LeafClass} {cell : String} (reads : cls.Reads cell) : Unbroken cell := by
  cases cls with
  | numeric => exact of_plain reads
  | text =>
    obtain ⟨char, rfl, _, single⟩ := reads
    intro broken
    rw [String.toList_singleton, List.mem_singleton] at broken
    exact single broken.symm
  | collection =>
    rcases reads with number | ⟨chars, rfl, _, single⟩
    · exact of_plain number
    · have inside : Unbroken (String.ofList chars) := by
        unfold Unbroken
        rwa [String.toList_ofList]
      have quote : Unbroken "'" := by decide
      exact (quote.append inside).append quote

end Unbroken

open Unbroken

theorem unbroken_entryLines {rows : List (List String)}
    (unbroken : ∀ row ∈ rows, ∀ token ∈ row, Unbroken token) :
    ∀ line ∈ entryLines rows, Unbroken line := by
  have gap : Unbroken ", " := by decide
  fun_induction entryLines rows with
  | case1 => exact List.forall_mem_nil _
  | case2 last => exact List.forall_mem_singleton.mpr (gap.intercalate (unbroken last List.mem_cons_self))
  | case3 row rest more ih =>
    obtain ⟨first, later⟩ := List.forall_mem_cons.mp unbroken
    exact List.forall_mem_cons.mpr ⟨gap.closed first, ih later⟩

namespace Assignment

section body

variable {layout : Layout}

theorem unbroken_row (cells : ∀ cell ∈ layout.cells, Unbroken cell) :
    ∀ row ∈ layout.grid, ∀ cell ∈ row, Unbroken cell :=
  fun _ listed cell member => cells cell (Layout.mem_cells_of_mem_grid listed member)

theorem unbroken_numeric (name : String) (cells : ∀ cell ∈ layout.cells, Unbroken cell) :
    Unbroken (body ⟨name, .numeric, some layout⟩).1 ∧
      ∀ line ∈ (body ⟨name, .numeric, some layout⟩).2, Unbroken line := by
  have gap : Unbroken " " := by decide
  have opening : Unbroken "[" := by decide
  have closing : Unbroken "];" := by decide
  unfold body
  dsimp only
  split
  · split
    · rename_i token alone
      have ending : Unbroken ";" := by decide
      exact ⟨(cells token (by simp [alone])).append ending, List.forall_mem_nil _⟩
    · exact ⟨(opening.append (gap.intercalate cells)).append closing, List.forall_mem_nil _⟩
  · refine ⟨opening, List.forall_mem_append.mpr ⟨?_, List.forall_mem_singleton.mpr closing⟩⟩
    intro line member
    obtain ⟨row, listed, rfl⟩ := List.mem_map.mp member
    exact gap.closed (unbroken_row cells row listed)

theorem unbroken_text (name : String) (cells : ∀ cell ∈ layout.cells, Unbroken cell) :
    Unbroken (body ⟨name, .text, some layout⟩).1 ∧
      ∀ line ∈ (body ⟨name, .text, some layout⟩).2, Unbroken line := by
  have quote : Unbroken "'" := by decide
  unfold body
  dsimp only
  split
  · have closing : Unbroken "';" := by decide
    exact ⟨(quote.append (join cells)).append closing, List.forall_mem_nil _⟩
  · have indent : Unbroken "  '" := by decide
    refine ⟨List.not_mem_nil, ?_⟩
    intro line member
    obtain ⟨row, listed, rfl⟩ := List.mem_map.mp member
    exact (indent.append (join (unbroken_row cells row listed))).append quote

theorem unbroken_collection (name : String) (cells : ∀ cell ∈ layout.cells, Unbroken cell) :
    Unbroken (body ⟨name, .collection, some layout⟩).1 ∧
      ∀ line ∈ (body ⟨name, .collection, some layout⟩).2, Unbroken line := by
  unfold body
  dsimp only
  split
  · rename_i token alone
    have opening : Unbroken "\x7b " := by decide
    have closing : Unbroken " \x7d;" := by decide
    exact ⟨(opening.append (cells token (by simp [alone]))).append closing, List.forall_mem_nil _⟩
  · have opening : Unbroken "\x7b" := by decide
    have closing : Unbroken "\x7d;" := by decide
    refine ⟨opening, List.forall_mem_append.mpr ⟨?_, List.forall_mem_singleton.mpr closing⟩⟩
    exact unbroken_entryLines (unbroken_row cells)

end body

/-- What follows the equals sign of a readable assignment, line by line. -/
theorem unbroken_body {assignment : Assignment} (readable : assignment.Readable) :
    Unbroken assignment.body.1 ∧ ∀ line ∈ assignment.body.2, Unbroken line := by
  obtain ⟨name, cls, layout⟩ := assignment
  match layout with
  | none =>
    have closers : Unbroken "[];" ∧ Unbroken "'';" ∧ Unbroken "\x7b\x7d;" := by decide
    cases cls with
    | numeric => exact ⟨closers.1, List.forall_mem_nil _⟩
    | text => exact ⟨closers.2.1, List.forall_mem_nil _⟩
    | collection => exact ⟨closers.2.2, List.forall_mem_nil _⟩
  | some layout =>
    have cells : ∀ cell ∈ layout.cells, Unbroken cell := fun cell member =>
      of_reads ((readable.readable layout rfl).reads cell member)
    cases cls with
    | numeric => exact unbroken_numeric name cells
    | text => exact unbroken_text name cells
    | collection => exact unbroken_collection name cells

theorem unbroken_lines {assignment : Assignment} (readable : assignment.Readable) :
    ∀ line ∈ assignment.lines, Unbroken line := by
  obtain ⟨_, _, name⟩ := readable.legible
  obtain ⟨first, others⟩ := unbroken_body readable
  have equals : Unbroken " = " := by decide
  exact List.forall_mem_cons.mpr ⟨(append name equals).append first, others⟩

end Assignment

namespace Line

/-- The lines of a text, each of which has its end. -/
def ofText (text : String) : List Line := (text.toList.splitOn '\n').dropLast

theorem ofText_join {lines : List String} (unbroken : ∀ line ∈ lines, Unbroken line) :
    ofText (String.join (lines.map (· ++ "\n"))) = lines.map String.toList := by
  have pieces : (String.join (lines.map (· ++ "\n"))).toList.splitOn '\n' =
      lines.map String.toList ++ [[]] := splitOn_closed unbroken
  rw [ofText, pieces, List.dropLast_concat]

/-- The assignments that lines make. -/
def read : List Line → List Assignment
  | [] => []
  | first :: rest =>
    let statement := body ((first.dropWhile (· ≠ ' ')).drop 3) rest
    ⟨String.ofList (first.takeWhile (· ≠ ' ')), statement.1, Layout.ofRows statement.2.1⟩ ::
      read statement.2.2
termination_by lines => lines.length
decreasing_by
  have := length_body ((first.dropWhile (· ≠ ' ')).drop 3) rest
  simp only [List.length_cons]
  omega

open Assignment

/-- The lines of a statement are read up to the next statement, which is not indented. -/
theorem read_lines {assignment : Assignment} (readable : assignment.Readable) {rest : List Line}
    (apart : Stops indented rest) :
    read (assignment.lines.map String.toList ++ rest) = assignment :: read rest := by
  obtain ⟨rows, form, layout⟩ := body_of_readable readable apart
  obtain ⟨_, blankless, _⟩ := readable.legible
  have inside : ∀ char ∈ assignment.name.toList, decide (char ≠ ' ') = true := by
    intro char member
    exact decide_eq_true fun same => blankless (same ▸ member)
  have stop : Stops (fun char => decide (char ≠ ' ')) (' ' :: '=' :: ' ' :: assignment.body.1.toList) :=
    Stops.cons (by decide) _
  have written : assignment.lines.map String.toList ++ rest =
      (assignment.name.toList ++ ' ' :: '=' :: ' ' :: assignment.body.1.toList) ::
        (assignment.body.2.map String.toList ++ rest) := by
    simp [lines]
  have head : (' ' :: '=' :: ' ' :: assignment.body.1.toList).drop 3 = assignment.body.1.toList := rfl
  rw [written, read, takeWhile_delimited inside stop, dropWhile_delimited inside stop, head, form,
    layout, String.ofList_toList]

theorem stops_lines {assignments : List Assignment}
    (readable : ∀ assignment ∈ assignments, assignment.Readable) :
    Stops indented ((assignments.flatMap lines).map String.toList) := by
  cases assignments with
  | nil => exact Stops.nil
  | cons assignment rest =>
    obtain ⟨nonempty, blankless, _⟩ := (readable assignment List.mem_cons_self).legible
    obtain ⟨char, more, split⟩ := List.exists_cons_of_ne_nil
      (mt String.toList_eq_nil_iff.mp nonempty)
    rw [split] at blankless
    have solid : char ≠ ' ' := by
      rintro rfl
      exact blankless List.mem_cons_self
    have written : ((assignment :: rest).flatMap lines).map String.toList =
        (char :: (more ++ ' ' :: '=' :: ' ' :: assignment.body.1.toList)) ::
          (assignment.body.2 ++ rest.flatMap lines).map String.toList := by
      simp [lines, split]
    rw [written]
    exact Stops.cons (by simp [indented, solid]) _

/-- Reading the text of readable assignments gives these assignments. -/
theorem read_statements {assignments : List Assignment}
    (readable : ∀ assignment ∈ assignments, assignment.Readable) :
    read (ofText (String.join (assignments.map statement))) = assignments := by
  have unbroken : ∀ line ∈ assignments.flatMap lines, Unbroken line := by
    intro line member
    obtain ⟨assignment, listed, within⟩ := List.mem_flatMap.mp member
    exact unbroken_lines (readable assignment listed) line within
  have written : String.join (assignments.map statement) =
      String.join ((assignments.flatMap lines).map (· ++ "\n")) := by
    apply String.toList_injective
    simp [statement, String.toList_join, List.flatMap_map, List.flatMap_assoc]
  rw [written, ofText_join unbroken]
  clear unbroken written
  -- Each statement leaves lines that begin with a name, so that rows of text end where they should.
  induction assignments with
  | nil => rw [List.flatMap_nil, List.map_nil, read]
  | cons assignment rest ih =>
    obtain ⟨first, later⟩ := List.forall_mem_cons.mp readable
    rw [List.flatMap_cons, List.map_append, read_lines first (stops_lines later), ih later]

end Line

end ValueScript
