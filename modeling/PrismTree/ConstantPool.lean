import PrismTree.Bytes
import PrismTree.Constant
import PrismTree.Encoding
import PrismTree.LoadError
import PrismTree.Varint

/-!
# The constant pool

The pool is a table of descriptors in the serialized buffer, one of eight bytes for each constant:
where its text starts, and how long it is. The text is spelled in the source, or, if the highest
bit of the start is set, in the buffer itself. A constant is resolved when the tree first refers
to it, and its text is kept, so a descriptor is read at most once and one that the tree never
refers to may be malformed.
-/
namespace PrismTree

/-- Where the pool lies: the offset of its table in the buffer, and the number of constants. -/
structure PoolHeader where
  offset : UInt32
  count : UInt32
  deriving DecidableEq

/-- A constant pool with the texts that are resolved so far. -/
structure ConstantPool where
  encoding : Encoding
  tableOffset : Nat
  slots : Array (Option String)
  resolutions : Nat
  deriving DecidableEq

namespace ConstantPool

/-- The size of a descriptor in bytes. -/
def descriptorSize : Nat := 8

/-- The bit in the start of a descriptor that tells texts in the buffer from texts in the source,
as a number. -/
def ownedBit : Nat := 0x80000000

/-- A pool with nothing resolved, whose table must lie inside a buffer of the given size. -/
def ofHeader (encoding : Encoding) (bufferSize : Nat) (header : PoolHeader) :
    Except LoadError ConstantPool :=
  let tableOffset := header.offset.toNat
  let count := header.count.toNat
  if bufferSize < count * descriptorSize + tableOffset then
    .error (.ofCause (.poolOutOfBounds header.offset header.count bufferSize))
  else
    .ok ⟨encoding, tableOffset, Array.replicate count none, 0⟩

/-- Number of constants, resolved or not. -/
def size (pool : ConstantPool) : Nat :=
  pool.slots.size

/-- The reference with an index, if the pool has that many constants. -/
def id? (pool : ConstantPool) (index : UInt32) : Option ConstantId :=
  (ConstantId.ofIndex? index).filter fun id => id.slot < pool.size

/-- Is a constant resolved? -/
def isResolved (pool : ConstantPool) (id : ConstantId) : Bool :=
  (pool.slots[id.slot]?).join.isSome

/-- The pool with one more constant resolved. -/
def keep (pool : ConstantPool) (id : ConstantId) (text : String) : ConstantPool :=
  { pool with
    slots := pool.slots.setIfInBounds id.slot (some text)
    resolutions := pool.resolutions + 1 }

/-- The texts resolved so far, as a table. -/
def constants (pool : ConstantPool) : ConstantTable :=
  ⟨pool.slots⟩

/-- Read the start and the length in the descriptor of a constant. -/
def readDescriptor (pool : ConstantPool) (id : ConstantId) :
    Decoder ReadError (UInt32 × UInt32) :=
  Decoder.withPosition (pool.tableOffset + id.slot * descriptorSize) do
    let start ← Decoder.readUInt32
    let length ← Decoder.readUInt32
    return (start, length)

/-- Read the bytes that a descriptor points to, in the source or in the buffer. -/
def readBytes? (source : ByteArray) (start length : UInt32) :
    Decoder LoadError (Option ByteArray) :=
  if start.toNat < ownedBit then
    return Bytes.slice? source start.toNat (start.toNat + length.toNat)
  else do
    let owned ← Decoder.outcome
      (Decoder.withPosition (start.toNat - ownedBit) (Decoder.readExactly length.toNat))
    return owned.toOption

/-- Read the text of a constant, resolved or not. -/
def readText (pool : ConstantPool) (source : ByteArray) (id : ConstantId) :
    Decoder LoadError String := do
  let (start, length) ← pool.readDescriptor id
  match ← readBytes? source start length with
  | none => Decoder.fail (.constantOutOfBounds id.index start length)
  | some bytes =>
    match pool.encoding with
    | .unsupported name => Decoder.fail (.unsupportedEncoding name)
    | .utf8 =>
      match String.fromUTF8? bytes with
      | none => Decoder.fail (.invalidUtf8 "constant")
      | some text => return text

end ConstantPool

namespace Decoder

/-- Read where the constant pool lies. -/
def readPoolHeader : Decoder ReadError PoolHeader := do
  let offset ← readUInt32
  let count ← readVarint
  return ⟨offset, count⟩

end Decoder

end PrismTree
