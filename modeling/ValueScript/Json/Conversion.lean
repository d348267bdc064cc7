import ValueScript.Json.Basic
import ValueScript.Value.Build

/-! Values of documents. Objects become records and lists of objects become lists of records.
Rectangular nests of numbers or truth values become number grids, and all other lists become
collections: of several rows when the items are lists of one length, else of one row. -/

namespace ValueScript.Json

mutual

/-- The lengths of the levels of a rectangular nest of numbers and truth values, outermost first.
An empty list is a last level of length zero. -/
def levels? : Json → Option Shape
  | .bool _ => some []
  | .number _ => some []
  | .array [] => some [0]
  | .array (item :: rest) => (commonLevels? (item :: rest)).map ((rest.length + 1) :: ·)
  | .null => none
  | .string _ => none
  | .object _ => none

/-- The level lengths that all the items have. -/
def commonLevels? : List Json → Option Shape
  | [] => none
  | [item] => levels? item
  | item :: rest =>
    match levels? item, commonLevels? rest with
    | some own, some common => if own = common then some own else none
    | _, _ => none

end

mutual

/-- What is left of a document when every list is replaced by its items. -/
def leaves : Json → List Json
  | .array items => leavesOf items
  | leaf => [leaf]

def leavesOf : List Json → List Json
  | [] => []
  | item :: rest => leaves item ++ leavesOf rest

end

def bool? : Json → Option Bool
  | .bool truth => some truth
  | _ => none

def number? : Json → Option Number
  | .number value => some value
  | _ => none

def length? : Json → Option Nat
  | .array items => some items.length
  | _ => none

/-- The cells of a number grid with these leaves: truth values, integers when all are integers of
64 bits, and else doubles. Numbers and truth values do not mix. -/
def elements? : List Json → Option Elements
  | [] => some (.float [])
  | leaves =>
    match leaves.mapM bool?, leaves.mapM number? with
    | some cells, _ => some (.logical cells)
    | none, some numbers =>
      match numbers.mapM Number.toInt64? with
      | some cells => some (.int cells)
      | none => some (.float (numbers.map Number.toFloat))
    | none, none => none

/-- The number grid that a list makes, if it makes one. A flat list is one row. -/
def grid? (items : List Json) : Option NumericGrid := do
  let levels ← levels? (.array items)
  let elements ← elements? (leavesOf items)
  match levels with
  | [length] => return ⟨[1, length], elements⟩
  | shape => return ⟨shape, elements⟩

/-- The length that all items have as lists, unless it is zero. -/
def commonLength? : List Json → Option Nat
  | [] => none
  | item :: rest => do
    let length ← item.length?
    if 0 < length ∧ rest.all (fun other => other.length? == some length) then return length
    else none

mutual

def toValue : Json → Value
  | .null => .unsupported "null"
  | .bool truth => .ofBool truth
  | .number value =>
    match value.toInt64? with
    | some word => .ofInt word
    | none => .ofFloat value.toFloat
  | .string text => .ofString text
  | .object members => .ofMembers (memberValues members)
  | .array items =>
    if items.isEmpty then .numeric .empty
    else if items.all isObject then .records (recordsOf items)
    else
      match grid? items with
      | some grid => .numeric grid
      | none =>
        match commonLength? items with
        | some cols => .collection items.length cols (cellsOf items)
        | none => .ofRow (valuesOf items)

def valuesOf : List Json → List Value
  | [] => []
  | item :: rest => toValue item :: valuesOf rest

/-- The values of members under their keys, in order. -/
def memberValues : List (String × Json) → List (String × Value)
  | [] => []
  | (key, item) :: rest => (key, toValue item) :: memberValues rest

/-- The fields of those items that are objects. -/
def recordsOf : List Json → List (List (String × Value))
  | [] => []
  | .object members :: rest => Fields.ofMembers (memberValues members) :: recordsOf rest
  | _ :: rest => recordsOf rest

/-- The values of the items, where a list counts as its own items. -/
def cellsOf : List Json → List Value
  | [] => []
  | .array row :: rest => valuesOf row ++ cellsOf rest
  | item :: rest => toValue item :: cellsOf rest

end

end ValueScript.Json
