import PrismTree.Encoding
import PrismTree.LoadError
import PrismTree.Varint

/-!
# The heading

A serialized tree begins with its signature, the version of the format, and a zero byte that
announces nodes without locations for their fields. The encoding of the source and the offsets of
its lines follow.
-/
namespace PrismTree

/-- What is known of the source before anything else is read. -/
structure Heading where
  encoding : Encoding
  startLine : Int32
  lineOffsets : Array UInt32
  deriving DecidableEq

/-- The first bytes of every serialized tree. -/
def signature : List UInt8 :=
  [0x50, 0x52, 0x49, 0x53, 0x4D]

namespace Decoder

/-- Check the signature, the version, and the byte after them. -/
def readSignature : Decoder LoadError Unit := do
  let found ← readExactly signature.length
  if found.data.toList ≠ signature then
    fail .invalidSignature
  else
    let bytes ← readExactly 3
    let found : Version := ⟨bytes.data.getD 0 0, bytes.data.getD 1 0, bytes.data.getD 2 0⟩
    if found ≠ Version.supported then
      fail (.versionMismatch found)
    else if (← readByte) ≠ 0 then
      fail .locationFieldsPresent

/-- Read a text that must be UTF-8, after its length; a failure calls it by its name. -/
def readText (name : String) : Decoder LoadError String := do
  let bytes ← readEmbedded
  match String.fromUTF8? bytes with
  | some text => return text
  | none => fail (.invalidUtf8 name)

/-- Read the encoding of the source. -/
def readEncoding : Decoder LoadError Encoding := do
  let name ← readText "encoding name"
  return .ofName name

/-- Read the number of the first line, then the counted offsets of the line starts. -/
def readLines : Decoder ReadError (Int32 × Array UInt32) := do
  let startLine ← readSignedVarint
  let count ← readCount 1
  let lineOffsets ← readMany count fun _ => readVarint
  return (startLine, lineOffsets.toArray)

/-- Read the heading. -/
def readHeading : Decoder LoadError Heading := do
  within (.ofSection .header) readSignature
  let encoding ← within (.ofSection .encoding) readEncoding
  let (startLine, lineOffsets) ← within (.ofSection .lineOffsets) readLines
  return ⟨encoding, startLine, lineOffsets⟩

end Decoder

end PrismTree
