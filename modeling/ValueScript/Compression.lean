import ValueScript.Zstd.Decoder

/-! Documents as they are stored: plain, or compressed with a bound on what they decode to. -/

namespace ValueScript

inductive Compression
  | none
  | zstd
  deriving DecidableEq, Repr

def Compression.label : Compression → String
  | .none => "none"
  | .zstd => "zstd"

/-- No document decodes to more bytes than this. -/
def greatestDocument : Nat := 64 * 1024 * 1024

abbrev DecodeError := GatherError Zstd.Fault

/-- Whether bytes start as compressed data does. -/
def isCompressed (bytes : ByteArray) : Bool :=
  (bytes.extract 0 Zstd.magic.length).toList == Zstd.magic

/-- How compressed documents are decoded: the source of a document's bytes, if it can be made, and
what the source delivers when it is asked. -/
structure Decompressor (σ ε : Type) where
  start : ByteArray → Except ε σ
  ask : ByteArray → σ → Delivery σ ε

def Zstd.decompressor : Decompressor Zstd.Decoder Zstd.Fault where
  start _ := .ok .initial
  ask := Zstd.Decoder.ask

/-- The bytes of a stored document, where compressed ones may decode to `limit` bytes. -/
def Decompressor.decode {σ ε : Type} (decompressor : Decompressor σ ε) (limit : Nat)
    (stored : ByteArray) : Except (GatherError ε) (Compression × ByteArray) := do
  if isCompressed stored then
    let source ← (decompressor.start stored).mapError .failed
    return (.zstd, ← gather limit (decompressor.ask stored) source)
  else return (.none, stored)

def decodeWithin (limit : Nat) (stored : ByteArray) :
    Except DecodeError (Compression × ByteArray) :=
  Zstd.decompressor.decode limit stored

def decode (stored : ByteArray) : Except DecodeError (Compression × ByteArray) :=
  decodeWithin greatestDocument stored

end ValueScript
