import ValueScript.Emission
import ValueScript.Outline
import ValueScript.Document

/-! What a run tells: as JSON with two spaces of indent a level, or as plain lines. -/

namespace ValueScript

inductive Report
  | null
  | count (number : Nat)
  | text (content : String)
  | list (items : List Report)
  | object (members : List (String × Report))

namespace Report

/-- One character of a JSON text. Quotes, backslashes and control characters are escaped. -/
def escaped (char : Char) : List Char :=
  match char with
  | '"' => ['\\', '"']
  | '\\' => ['\\', '\\']
  | '\x08' => ['\\', 'b']
  | '\x0c' => ['\\', 'f']
  | '\n' => ['\\', 'n']
  | '\r' => ['\\', 'r']
  | '\t' => ['\\', 't']
  | _ =>
    if char.toNat < 0x20 then
      ['\\', 'u', '0', '0', Nat.digitChar (char.toNat / 16), Nat.digitChar (char.toNat % 16)]
    else [char]

def quoted (text : String) : String :=
  "\"" ++ String.ofList (text.toList.flatMap escaped) ++ "\""

/-- A line break and the indent of a level. -/
def newline (level : Nat) : String := "\n" ++ String.ofList (List.replicate (2 * level) ' ')

mutual

/-- The JSON text of a report inside a level. -/
def pretty (level : Nat) : Report → String
  | .null => "null"
  | .count number => number.repr
  | .text content => quoted content
  | .list [] => "[]"
  | .list (item :: rest) =>
    "[" ++ newline (level + 1) ++ pretty (level + 1) item ++ prettyItems (level + 1) rest
      ++ newline level ++ "]"
  | .object [] => "\x7b\x7d"
  | .object ((key, item) :: rest) =>
    "\x7b" ++ newline (level + 1) ++ quoted key ++ ": " ++ pretty (level + 1) item
      ++ prettyMembers (level + 1) rest ++ newline level ++ "\x7d"

def prettyItems (level : Nat) : List Report → String
  | [] => ""
  | item :: rest => "," ++ newline level ++ pretty level item ++ prettyItems level rest

def prettyMembers (level : Nat) : List (String × Report) → String
  | [] => ""
  | (key, item) :: rest =>
    "," ++ newline level ++ quoted key ++ ": " ++ pretty level item ++ prettyMembers level rest

end

/-- The number of lines of a text; one that no line feed ends counts too. -/
def lineCount (text : String) : Nat :=
  let chars := text.toList
  let full := chars.count '\n'
  match chars.getLast? with
  | none => full
  | some last => if last = '\n' then full else full + 1

/-- The report on a script. The script itself is in it only if it was not written to a file. -/
def ofScript (path name : String) (compression : Compression) (out : Option String)
    (script : Script) : Report :=
  let written := match out with
    | some path => .text path
    | none => .null
  let members : List (String × Report) := [
    ("path", .text path),
    ("name", .text name),
    ("compression", .text compression.label),
    ("out", written),
    ("lines", .count (lineCount script.text)),
    ("bytes", .count script.text.utf8ByteSize),
    ("warnings", .list (script.warnings.map fun warning => .text warning.message))]
  .object (if out.isSome then members else members ++ [("text", .text script.text)])

def ofNodes (path : String) (document : Document) (nodes : List Node) : Report :=
  .object [
    ("path", .text path),
    ("compression", .text document.compression.label),
    ("decoded_bytes", .count document.size),
    ("nodes", .list (nodes.map fun node => .object [
      ("name", .text node.name),
      ("kind", .text node.kind.label),
      ("dims", .list (node.dims.map .count))]))]

def dimsText (dims : Shape) : String :=
  if dims = [] then "-" else "x".intercalate (dims.map Nat.repr)

/-- The nodes of a document as lines: a head, and a table with tabs between its columns. -/
def nodeLines (path : String) (document : Document) (nodes : List Node) : String :=
  "path: " ++ path ++ "\n"
    ++ "compression: " ++ document.compression.label ++ "\n"
    ++ "decoded_bytes: " ++ document.size.repr ++ "\n"
    ++ "nodes: " ++ nodes.length.repr ++ "\n\n"
    ++ "name\tkind\tdims\n"
    ++ String.join (nodes.map fun node =>
      node.name ++ "\t" ++ node.kind.label ++ "\t" ++ dimsText node.dims ++ "\n")

end Report

end ValueScript
