/-! Qualified names of nodes: a step adds to the name of the parent and changes none of it. -/

namespace ValueScript.Name

def field (parent label : String) : String := parent ++ "." ++ label

/-- The name of an element of a list; elements are counted from one. -/
def indexed (parent : String) (index : Nat) : String := parent ++ "(" ++ index.repr ++ ")"

end ValueScript.Name
