import ValueScript.CommandLine.Run

/-! The command line program. -/

namespace ValueScript

/-- The cause that an error number of the system stands for. -/
def FileError.ofCode (code : UInt32) (details : String) : FileError :=
  match code with
  | 2 => .notFound
  | 20 => .notDirectory
  | 21 => .isDirectory
  | _ => .other (details ++ " (os error " ++ code.toNat.repr ++ ")")

def FileError.ofError : IO.Error → FileError
  | .alreadyExists _ code details => .ofCode code details
  | .noFileOrDirectory _ code details => .ofCode code details
  | .invalidArgument _ code details => .ofCode code details
  | .permissionDenied _ code details => .ofCode code details
  | .resourceExhausted _ code details => .ofCode code details
  | .inappropriateType _ code details => .ofCode code details
  | .noSuchThing _ code details => .ofCode code details
  | .otherError code details => .ofCode code details
  | .resourceBusy code details => .ofCode code details
  | .hardwareFault code details => .ofCode code details
  | .unsatisfiedConstraints code details => .ofCode code details
  | .illegalOperation code details => .ofCode code details
  | error => .other error.toString

def systemFiles : FileAccess IO where
  read path := do
    try return .ok (← IO.FS.readBinFile path)
    catch error => return .error (.ofError error)
  write path content := do
    try
      IO.FS.writeFile path content
      return .ok ()
    catch error => return .error (.ofError error)

end ValueScript

def main (arguments : List String) : IO UInt32 := do
  let outcome ← ValueScript.runArguments ValueScript.systemFiles arguments
  (← IO.getStdout).putStr outcome.stdout
  (← IO.getStderr).putStr outcome.stderr
  return UInt32.ofNat outcome.status
