/-! Why compressed data cannot be decoded. -/

namespace ValueScript.Zstd

inductive Fault
  | corrupted
  | literalsHeader
  | checksumMismatch
  | unknownFormat
  | unsupportedParameter
  | windowTooLarge
  | sourceSize
  | dictionaryMismatch
  | dictionaryCorrupted
  | outputTooSmall
  /-- The data ends inside a frame. -/
  | incomplete
  deriving DecidableEq, Repr

def Fault.message : Fault → String
  | .corrupted => "Data corruption detected"
  | .literalsHeader => "Header of Literals' block doesn't respect format specification"
  | .checksumMismatch => "Restored data doesn't match checksum"
  | .unknownFormat => "Unknown frame descriptor"
  | .unsupportedParameter => "Unsupported frame parameter"
  | .windowTooLarge => "Frame requires too much memory for decoding"
  | .sourceSize => "Src size is incorrect"
  | .dictionaryMismatch => "Dictionary mismatch"
  | .dictionaryCorrupted => "Dictionary is corrupted"
  | .outputTooSmall => "Destination buffer is too small"
  | .incomplete => "incomplete frame"

end ValueScript.Zstd
