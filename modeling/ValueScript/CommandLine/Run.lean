import ValueScript.CommandLine.Arguments
import ValueScript.CommandLine.Files
import ValueScript.CommandLine.Path
import ValueScript.CommandLine.Report

/-! Runs of commands. A run reads its document, then makes the script, then writes it to a file if
it is told one, and prints only if all of that succeeds. -/

namespace ValueScript

structure Outcome where
  status : Nat
  stdout : String
  stderr : String
  deriving DecidableEq, Repr

inductive RunError
  | file (cause : FileError)
  | load (cause : LoadError)
  | fault (cause : Fault)

def RunError.message : RunError → String
  | .file cause => "io: " ++ cause.message
  | .load cause => cause.message
  | .fault cause => cause.message

namespace Command

variable {m : Type → Type} [Monad m]

def load (access : FileAccess m) (path : String) : ExceptT RunError m Document := do
  let stored ← ExceptT.adapt .file (ExceptT.mk (access.read path))
  ExceptT.adapt .load (ExceptT.mk (pure (Document.ofBytes stored)))

/-- Does what a command says, and gives what is to be printed. -/
def run (access : FileAccess m) : Command → ExceptT RunError m String
  | .emit file name out limit json => do
    let name := name.getD (Path.rootName file)
    let document ← load access file
    let script ← ExceptT.adapt .fault
      (ExceptT.mk (pure (document.value.script (limit.getD defaultDepthLimit) name)))
    if let some path := out then
      ExceptT.adapt .file (ExceptT.mk (access.write path script.text))
    if json then
      return (Report.ofScript file name document.compression out script).pretty 0 ++ "\n"
    else if out.isSome then return ""
    else return script.text
  | .info file name json => do
    let name := name.getD (Path.rootName file)
    let document ← load access file
    let nodes := document.value.outline name
    if json then return (Report.ofNodes file document nodes).pretty 0 ++ "\n"
    else return Report.nodeLines file document nodes

end Command

section runs

variable {m : Type → Type} [Monad m]

/-- Runs the command that arguments are parsed as. -/
def runParsed (parse : List String → Except UsageError Command) (access : FileAccess m)
    (arguments : List String) : m Outcome := do
  match parse arguments with
  | .error cause => return ⟨2, "", "error: " ++ cause.message ++ "\n"⟩
  | .ok command =>
    match ← (command.run access).run with
    | .ok text => return ⟨0, text, ""⟩
    | .error cause => return ⟨1, "", "error: " ++ cause.message ++ "\n"⟩

def runArguments (access : FileAccess m) (arguments : List String) : m Outcome :=
  runParsed Command.ofArguments access arguments

end runs

end ValueScript
