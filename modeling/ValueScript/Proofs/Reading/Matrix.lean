import ValueScript.Proofs.Reading.Script
import ValueScript.Proofs.RowMajor

namespace ValueScript

namespace Token

/-- The characters that stand between number tokens, around them and at the end of a statement. -/
def marks : List Char := [' ', '\n', ';', '[', ']', '(', ')', '\x7b', '\x7d']

theorem Plain.not_mem {token : String} (number : Plain token) {mark : Char} (outside : mark ∈ marks) :
    mark ∉ token.toList := by
  have other : marks.all (!plain ·) = true := by decide
  intro inside
  have kept := List.all_eq_true.mp other mark outside
  simp [number.2 mark inside] at kept

end Token

namespace NumericGrid

/-- A line of a block, which has one blank at its end, and the row that the other blanks cut it
into. -/
def ShowsRow (line : String) (row : List String) : Prop :=
  ∃ cells, line = cells ++ " " ∧ piecesAt ' ' cells = row

/-- A literal with the end of its statement, and the rows of tokens that it shows. -/
inductive Shows : String → List (List String) → Prop
  /-- A token alone. -/
  | single (token : String) : Shows (token ++ ";\n") [[token]]
  /-- Several tokens between brackets, cut at the blanks. -/
  | row {cells : String} {row : List String} (several : 1 < row.length)
      (cut : piecesAt ' ' cells = row) : Shows ("[" ++ cells ++ "];\n") [row]
  /-- Several lines between a line that opens the block and a line that closes it. -/
  | block {text : String} {lines : List String} {rows : List (List String)} (several : 1 < rows.length)
      (cut : piecesAt '\n' text = "[" :: lines ++ ["];", ""])
      (shown : List.Forall₂ ShowsRow lines rows) : Shows text rows

end NumericGrid

end ValueScript
