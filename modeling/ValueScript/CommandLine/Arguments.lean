/-! Commands as they are given: the name of the command, then one file and options in any order.
Options are written out, take their value as `--option value` or `--option=value`, and come at most
once. After `--` there are only files. -/

namespace ValueScript

inductive Command
  /-- Write the script of a document. -/
  | emit (file : String) (name out : Option String) (limit : Option Nat) (json : Bool)
  /-- List the nodes of a document. -/
  | info (file : String) (name : Option String) (json : Bool)
  deriving DecidableEq, Repr

/-- Why arguments tell nothing to do. -/
inductive UsageError
  | noCommand
  | unknownCommand (text : String)
  | unknownOption (text : String)
  | repeatedOption (option : String)
  | missingValue (option : String)
  | unexpectedValue (option : String)
  | invalidLimit (text : String)
  | emptyPath
  | missingFile
  | extraFile (text : String)
  deriving DecidableEq, Repr

def UsageError.message : UsageError → String
  | .noCommand => "a command is needed: emit or info"
  | .unknownCommand text => "unknown command " ++ text
  | .unknownOption text => "unknown option " ++ text
  | .repeatedOption option => "option --" ++ option ++ " given twice"
  | .missingValue option => "option --" ++ option ++ " needs a value"
  | .unexpectedValue option => "option --" ++ option ++ " takes no value"
  | .invalidLimit text => "invalid depth limit " ++ text
  | .emptyPath => "empty path"
  | .missingFile => "a file is needed"
  | .extraFile text => "unexpected file " ++ text

namespace Arguments

inductive Action
  | emit
  | info

inductive Setting
  | name
  | out
  | limit
  | json

def Setting.label : Setting → String
  | .name => "name"
  | .out => "out"
  | .limit => "max-depth"
  | .json => "json"

def Action.settings : Action → List Setting
  | .emit => [.name, .out, .limit, .json]
  | .info => [.name, .json]

structure Given where
  file : Option String
  name : Option String
  out : Option String
  limit : Option Nat
  json : Bool

def Given.nothing : Given := ⟨none, none, none, none, false⟩

def digits? : List Char → Option Nat
  | [] => none
  | chars =>
    if chars.all Char.isDigit then
      some (chars.foldl (fun number char => 10 * number + (char.toNat - '0'.toNat)) 0)
    else none

/-- A depth limit: a decimal number of 32 bits, which may have a sign and leading zeros. -/
def limit? (text : String) : Option Nat := do
  let limit ← match text.toList with
    | '+' :: chars => digits? chars
    | '-' :: chars => (digits? chars).filter (· = 0)
    | chars => digits? chars
  if limit < 0x100000000 then some limit else none

namespace Given

def withFile (given : Given) (path : String) : Except UsageError Given :=
  match given.file with
  | some _ => .error (.extraFile path)
  | none => if path = "" then .error .emptyPath else .ok { given with file := some path }

def withValue (given : Given) (setting : Setting) (text : String) : Except UsageError Given :=
  match setting with
  | .name =>
    if given.name.isSome then .error (.repeatedOption setting.label)
    else .ok { given with name := some text }
  | .out =>
    if given.out.isSome then .error (.repeatedOption setting.label)
    else if text = "" then .error .emptyPath
    else .ok { given with out := some text }
  | .limit =>
    if given.limit.isSome then .error (.repeatedOption setting.label)
    else
      match limit? text with
      | some limit => .ok { given with limit := some limit }
      | none => .error (.invalidLimit text)
  | .json => .error (.unexpectedValue setting.label)

def withJson (given : Given) : Except UsageError Given :=
  if given.json then .error (.repeatedOption Setting.json.label)
  else .ok { given with json := true }

end Given

inductive Form
  | file
  | option (key : String) (value : Option String)
  | rest
  | short

/-- Looks at an argument. A lone dash is a file. -/
def formOf (text : String) : Form :=
  match text.toList with
  | ['-', '-'] => .rest
  | '-' :: '-' :: chars =>
    let key := String.ofList (chars.takeWhile (· ≠ '='))
    match chars.dropWhile (· ≠ '=') with
    | [] => .option key none
    | _ :: value => .option key (some (String.ofList value))
  | ['-'] => .file
  | '-' :: _ => .short
  | _ => .file

/-- Whether an argument can be the value of the option before it. -/
def isValue (text : String) : Bool :=
  match formOf text with
  | .file => true
  | _ => false

def collect (action : Action) (given : Given) : List String → Except UsageError Given
  | [] => .ok given
  | text :: rest =>
    match formOf text with
    | .rest => rest.foldlM Given.withFile given
    | .short => .error (.unknownOption text)
    | .file => do collect action (← given.withFile text) rest
    | .option key value =>
      match action.settings.find? (fun setting => setting.label = key) with
      | none => .error (.unknownOption text)
      | some .json =>
        if value.isSome then .error (.unexpectedValue key)
        else do collect action (← given.withJson) rest
      | some setting =>
        match value, rest with
        | some value, rest => do collect action (← given.withValue setting value) rest
        | none, value :: rest =>
          if isValue value then do collect action (← given.withValue setting value) rest
          else .error (.missingValue key)
        | none, [] => .error (.missingValue key)

end Arguments

def Command.ofArguments (arguments : List String) : Except UsageError Command := do
  let (action, rest) : Arguments.Action × List String ← match arguments with
    | [] => throw .noCommand
    | "emit" :: rest => pure (.emit, rest)
    | "info" :: rest => pure (.info, rest)
    | text :: _ => throw (.unknownCommand text)
  let given ← Arguments.collect action .nothing rest
  let some file := given.file | throw .missingFile
  match action with
  | .emit => return .emit file given.name given.out given.limit given.json
  | .info => return .info file given.name given.json

end ValueScript
