/-! What can be wrong with the text of a document, and where. Lines count from one, columns count
bytes from the last line feed. -/

namespace ValueScript.Json

inductive Problem
  | endInValue
  | endInList
  | endInObject
  | endInString
  | valueExpected
  /-- A letter that does not go on with the word that was begun. -/
  | wordExpected
  | listSeparatorExpected
  | objectSeparatorExpected
  | colonExpected
  | keyNotString
  /-- A bracket or brace right after a comma. -/
  | trailingComma
  /-- Something other than blanks after the document. -/
  | trailingCharacters
  | nestingTooDeep
  | invalidNumber
  | numberOutOfRange
  | invalidEscape
  | controlCharacter
  /-- A trailing surrogate on its own, or a leading one before something else. -/
  | loneSurrogate
  /-- A leading surrogate that no second escape follows. -/
  | surrogateUnfinished
  | invalidUnicode
  deriving DecidableEq, Repr

def Problem.message : Problem → String
  | .endInValue => "EOF while parsing a value"
  | .endInList => "EOF while parsing a list"
  | .endInObject => "EOF while parsing an object"
  | .endInString => "EOF while parsing a string"
  | .valueExpected => "expected value"
  | .wordExpected => "expected ident"
  | .listSeparatorExpected => "expected `,` or `]`"
  | .objectSeparatorExpected => "expected `,` or `\x7d`"
  | .colonExpected => "expected `:`"
  | .keyNotString => "key must be a string"
  | .trailingComma => "trailing comma"
  | .trailingCharacters => "trailing characters"
  | .nestingTooDeep => "recursion limit exceeded"
  | .invalidNumber => "invalid number"
  | .numberOutOfRange => "number out of range"
  | .invalidEscape => "invalid escape"
  | .controlCharacter => "control character (\\u0000-\\u001F) found while parsing a string"
  | .loneSurrogate => "lone leading surrogate in hex escape"
  | .surrogateUnfinished => "unexpected end of hex escape"
  | .invalidUnicode => "invalid unicode code point"

structure ReadError where
  problem : Problem
  line : Nat
  column : Nat
  deriving DecidableEq, Repr

def ReadError.message (error : ReadError) : String :=
  error.problem.message ++ " at line " ++ error.line.repr ++ " column " ++ error.column.repr

namespace ReadError

/-- Line and column that the first `count` bytes of a text reach, from those that the first
`index` bytes reach. -/
def place (text : ByteArray) (count index line column : Nat) : Nat × Nat :=
  if inside : index < count ∧ index < text.size then
    if text[index] = 0x0a then place text count (index + 1) (line + 1) 0
    else place text count (index + 1) line (column + 1)
  else (line, column)
termination_by count - index

/-- A problem that shows once the first `count` bytes are read. -/
def after (text : ByteArray) (count : Nat) (problem : Problem) : ReadError :=
  let (line, column) := place text count 0 1 0
  ⟨problem, line, column⟩

/-- A problem with the byte at `index`, or with the end of the text when there is none. -/
def here (text : ByteArray) (index : Nat) (problem : Problem) : ReadError :=
  after text (index + 1) problem

end ReadError

end ValueScript.Json
