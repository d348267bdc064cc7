/-! Paths as text: their segments, and the root name that a file gives its value. -/

namespace ValueScript.Path

/-- The pieces between the separators; there is one more piece than there are separators. -/
def pieces (separator : Char) : List Char → List (List Char)
  | [] => [[]]
  | char :: rest =>
    if char = separator then [] :: pieces separator rest
    else
      match pieces separator rest with
      | [] => [[char]]
      | first :: more => (char :: first) :: more

/-- The names between the slashes of a path, without empty ones. -/
def segments (path : String) : List String :=
  ((pieces '/' path.toList).filter (· ≠ [])).map String.ofList

/-- The last name of a path, unless it leads to a parent or to no name at all. -/
def fileName? (path : String) : Option String := do
  let name ← ((segments path).filter (· ≠ ".")).getLast?
  if name = ".." then none else some name

/-- The root name for the value of a file: its name up to the first point. -/
def rootName (path : String) : String :=
  let stem := ((fileName? path).getD "").toList.takeWhile (· ≠ '.')
  if stem = [] then "value" else String.ofList stem

end ValueScript.Path
