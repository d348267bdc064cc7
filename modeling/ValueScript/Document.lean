import ValueScript.Compression
import ValueScript.Json.Reader
import ValueScript.Json.Conversion

/-! Documents and the values they hold. -/

namespace ValueScript

structure Document where
  compression : Compression
  /-- The size of its text in bytes. -/
  size : Nat
  value : Value

inductive LoadError
  | decode (cause : DecodeError)
  | read (cause : Json.ReadError)

def LoadError.message : LoadError → String
  | .decode (.tooLarge limit) => "decompressed output exceeded limit " ++ limit.repr ++ " bytes"
  | .decode (.failed cause) => "io: " ++ cause.message
  | .read cause => "json: " ++ cause.message

namespace Document

def valueOf (text : ByteArray) : Except LoadError Value :=
  match Json.read text with
  | .ok json => .ok json.toValue
  | .error error => .error (.read error)

def ofBytes (stored : ByteArray) : Except LoadError Document := do
  let (compression, text) ← (decode stored).mapError .decode
  return ⟨compression, text.size, ← valueOf text⟩

end Document

end ValueScript
