import PrismTree.Node
import PrismTree.TreeDecoder

/-!
# Reading a tree

A node is its tag, its id, its span, its flags, and the fields of its kind in order. The depth that
is left bounds the recursion: each child is read with one less, and none is left at the limit. A
failure in the head of a node or in a datum is marked with the field; a failure in a child passes
unchanged, for the mark on it already names the innermost node.
-/
namespace PrismTree

/-- The least size of a node in bytes: tag, id, start, length and flags. -/
def Node.minSize : Nat := 5

/-- The size in bytes of the serialized length that a method definition carries before its flags.
That length counts neither the tag nor itself. -/
def Node.defLengthSize : Nat := 4

namespace Decoder

/-- Is the next byte a zero, which stands for something absent? The zero is consumed. -/
def readAbsent : Decoder LoadError Bool := do
  if (← peek) = some 0 then
    skip 1
    return true
  else
    return false

/-- Read a flag word, which has 15 bits. -/
def readFlags : Decoder LoadError NodeFlags := do
  let bits ← readVarint
  match NodeFlags.ofNat? bits.toNat with
  | some flags => return flags
  | none => fail (.flagsOutOfRange bits)

/-- Read a string: one is a span of the source, two is embedded bytes. -/
def readString (source : ByteArray) : Decoder LoadError ByteString := do
  let tag ← readByte
  if tag = 1 then
    let location ← readLocation
    let start := location.start.toNat
    match Bytes.slice? source start (start + location.length.toNat) with
    | some bytes => return ⟨bytes⟩
    | none => fail (.sourceSliceOutOfBounds location.start location.length source.size)
  else if tag = 2 then
    return ⟨← readEmbedded⟩
  else
    fail (.invalidStringTag tag)

/-- The number that words of 32 bits stand for, the lowest word first. -/
def magnitude : List UInt32 → Nat
  | [] => 0
  | low :: high => low.toNat + UInt32.size * magnitude high

/-- Read an integer: its sign, then the counted words of its magnitude, of which there is one at
least. -/
def readInteger : Decoder LoadError Int := do
  let sign ← readByte
  let count ← readVarint
  if count = 0 then
    fail .emptyInteger
  else
    let count ← ensureCount count 1
    let words ← readMany count fun _ => readVarint
    return if sign = 0 then magnitude words else -magnitude words

end Decoder

namespace TreeDecoder

/-- Read a reference to a constant. -/
def readConstant : TreeDecoder ConstantId := do
  let index ← Decoder.readVarint
  resolveConstant index

/-- Read a reference to a constant that may be absent. -/
def readOptConstant : TreeDecoder (Option ConstantId) := do
  if ← Decoder.readAbsent then
    return none
  else
    some <$> readConstant

/-- Read a counted list of references to constants. -/
def readConstants : TreeDecoder (List ConstantId) := do
  let count ← Decoder.readCount 1
  readMany count fun _ => readConstant

/-- Read a datum. -/
def readDatum : (kind : DatumKind) → TreeDecoder (Datum kind)
  | .constant => .constant <$> readConstant
  | .optConstant => .optConstant <$> readOptConstant
  | .constants => .constants <$> readConstants
  | .string => do return .string (← Decoder.readString (← input).source)
  | .integer => do return .integer (← Decoder.readInteger)
  | .double => do return .double (← Decoder.readDouble)
  | .uint32 => do return .uint32 (← Decoder.readVarint)
  | .uint8 => do return .uint8 (← Decoder.readByte)

/-- Read the value of a field of a node of the given kind, given how to read a child. -/
def readValue (readChild : TreeDecoder Node) (kind : Kind) (name : String) :
    (fieldKind : FieldKind) → TreeDecoder (Value fieldKind)
  | .node => .node <$> readChild
  | .optNode => do
    if ← Decoder.readAbsent then
      return .optNode none
    else
      return .optNode (some (← readChild))
  | .nodes => do
    let count ← Decoder.readCount Node.minSize
    return .nodes (← readMany count fun _ => readChild)
  | .datum datumKind => .datum <$> inField kind name (readDatum datumKind)

/-- Read the fields of a layout in order, given how to read a child. -/
def readFields (readChild : TreeDecoder Node) (kind : Kind) :
    (layout : List Field) → TreeDecoder (Fields layout)
  | [] => return .nil
  | field :: layout => do
    let value ← readValue readChild kind field.name field.kind
    let rest ← readFields readChild kind layout
    return .cons value rest

/-- Read the serialized length of a method definition; no other kind has one. -/
def readDefLength (kind : Kind) : TreeDecoder (Option UInt32) := do
  if kind = .defNode then
    some <$> inField kind "serialized_length" Decoder.readUInt32
  else
    return none

/-- Compare the serialized length of a method definition with the bytes that were read since its
tag, if that is asked for. -/
def checkDefLength (declared? : Option UInt32) (afterTag : Nat) : TreeDecoder Unit := do
  match declared? with
  | none => return ()
  | some declared =>
    let actual := (← position) - afterTag - Node.defLengthSize
    if (← input).options.verifyDefLengths && actual != declared.toNat then
      fail (.defLengthMismatch declared actual)

/-- Read a node with at most the given depth. -/
def readNode : (depth : Nat) → TreeDecoder Node
  | 0 => do fail (.nestingTooDeep (← input).options.maxDepth)
  | depth + 1 => do
    let tag ← Decoder.readByte
    match Kind.ofTag? tag with
    | none => fail (.unknownNodeType tag)
    | some kind =>
      let afterTag ← position
      let id ← inField kind "node_id" Decoder.readVarint
      let location ← inField kind "location" Decoder.readLocation
      let declared? ← readDefLength kind
      let flags ← inField kind "flags" Decoder.readFlags
      let fields ← readFields (readNode depth) kind kind.layout
      checkDefLength declared? afterTag
      return ⟨kind, id, location, flags, false, fields⟩

end TreeDecoder

end PrismTree
