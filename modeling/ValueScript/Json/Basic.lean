import ValueScript.Fields

/-! JSON trees. Object members keep their order, and the numbers keep apart whether the text
showed an integer. -/

namespace ValueScript

inductive Json.Number
  | int (value : Int)
  | float (value : Float)

inductive Json
  | null
  | bool (truth : Bool)
  | number (value : Json.Number)
  | string (text : String)
  | array (items : List Json)
  | object (members : List (String × Json))

namespace Json

/-- The number as a signed word, when it is an integer of that range. -/
def Number.toInt64? : Number → Option Int64
  | .int value =>
    if -0x8000000000000000 ≤ value ∧ value < 0x8000000000000000 then
      some (Int64.ofInt value)
    else none
  | .float _ => none

def Number.toFloat : Number → Float
  | .int value => Float.ofInt value
  | .float value => value

def isObject : Json → Bool
  | .object _ => true
  | _ => false

end Json

end ValueScript
