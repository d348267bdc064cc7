import ValueScript.Value.Basic

/-! Equality of values as users see it: structure, stored shapes and the order of fields count,
and numbers compare as numbers, so that a value that holds a NaN differs from itself. -/

namespace ValueScript

/-- Cell by cell, and never across types. -/
def Elements.beq : Elements → Elements → Bool
  | .float left, .float right => left == right
  | .int left, .int right => left == right
  | .logical left, .logical right => left == right
  | _, _ => false

instance : BEq Elements := ⟨Elements.beq⟩

/-- Same stored shape and same cells. -/
def NumericGrid.beq (left right : NumericGrid) : Bool :=
  left.shape == right.shape && left.elements == right.elements

instance : BEq NumericGrid := ⟨NumericGrid.beq⟩

namespace Value

mutual

def beq : Value → Value → Bool
  | .record left, .record right => fieldsBeq left right
  | .records left, .records right => elementsBeq left right
  | .numeric left, .numeric right => left == right
  | .text left, .text right => left == right
  | .collection rows cols left, .collection rows' cols' right =>
    rows == rows' && cols == cols' && itemsBeq left right
  | .unsupported left, .unsupported right => left == right
  | _, _ => false

/-- Same labels and equal entries in the same order. -/
def fieldsBeq : List (String × Value) → List (String × Value) → Bool
  | [], [] => true
  | (label, entry) :: rest, (label', entry') :: rest' =>
    label == label' && beq entry entry' && fieldsBeq rest rest'
  | _, _ => false

def elementsBeq : List (List (String × Value)) → List (List (String × Value)) → Bool
  | [], [] => true
  | fields :: rest, fields' :: rest' => fieldsBeq fields fields' && elementsBeq rest rest'
  | _, _ => false

def itemsBeq : List Value → List Value → Bool
  | [], [] => true
  | item :: rest, item' :: rest' => beq item item' && itemsBeq rest rest'
  | _, _ => false

end

instance : BEq Value := ⟨beq⟩

end Value

end ValueScript
