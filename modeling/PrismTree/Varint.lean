import PrismTree.Decoder

/-!
# Variable-length numbers

A number of 32 bits is written in groups of seven bits, the lowest group first, with the high bit
set on every byte but the last. Five bytes are enough, and the fifth has room for four bits only.
A longer form than necessary is accepted as long as it keeps to five bytes. Signed numbers are
first mapped to natural numbers in a zig-zag, so that small magnitudes of either sign stay short.
-/
namespace PrismTree

namespace Varint

/-- The most bytes that a number takes. -/
def maxLength : Nat := 5

/-- The groups of a number, with at most `more` bytes after the first. -/
def encodeGroups : (more : Nat) → Nat → List UInt8
  | 0, n => [UInt8.ofNat n]
  | more + 1, n =>
    if n < 128 then [UInt8.ofNat n]
    else UInt8.ofNat (n % 128 + 128) :: encodeGroups more (n / 128)

/-- The shortest form of a number. -/
def encode (n : UInt32) : List UInt8 :=
  encodeGroups 4 n.toNat

/-- Read a number whose form began at `start` and has at most `more` bytes after the next. -/
def readGroups (start : Nat) : (more : Nat) → Decoder ReadError Nat
  | 0 => do
    let byte ← Decoder.readByte
    if byte ≤ 0x0F then return byte.toNat else Decoder.throw (.varintOverflow start)
  | more + 1 => do
    let byte ← Decoder.readByte
    if byte < 0x80 then return byte.toNat
    else
      let rest ← readGroups start more
      return byte.toNat % 128 + 128 * rest

/-- The signed number that a natural number stands for: even ones are the nonnegative numbers, odd
ones the negative numbers. -/
def unzigzag (n : UInt32) : Int32 :=
  if n.toNat % 2 = 0 then Int32.ofInt (n.toNat / 2) else Int32.ofInt (-(n.toNat / 2) - 1)

/-- The natural number that stands for a signed number. -/
def zigzag (n : Int32) : UInt32 :=
  if 0 ≤ n.toInt then UInt32.ofNat (2 * n.toInt).toNat
  else UInt32.ofNat (-2 * n.toInt - 1).toNat

/-- The shortest form of a signed number. -/
def encodeSigned (n : Int32) : List UInt8 :=
  encode (zigzag n)

end Varint

namespace Decoder

/-- Read a number of variable length. -/
def readVarint : Decoder ReadError UInt32 := do
  let value ← Varint.readGroups (← position) 4
  return UInt32.ofNat value

/-- Read a signed number of variable length. -/
def readSignedVarint : Decoder ReadError Int32 :=
  Varint.unzigzag <$> readVarint

/-- Refuse a count of items that the remaining bytes cannot hold, given the size of the smallest
item. A count that is honest always passes. -/
def ensureCount (count : UInt32) (minItemSize : Nat) : Decoder ReadError Nat := do
  let remaining ← remaining
  if remaining < count.toNat * minItemSize then
    Decoder.throw (.countTooLarge (← position) count remaining)
  else
    return count.toNat

/-- Read the count of a list, given the size of its smallest item. -/
def readCount (minItemSize : Nat) : Decoder ReadError Nat := do
  ensureCount (← readVarint) minItemSize

/-- Read a span: its start, then its length. -/
def readLocation : Decoder ReadError Location := do
  let start ← readVarint
  let length ← readVarint
  return ⟨start, length⟩

/-- Read a span that may be absent: a zero byte, or another byte and the span. -/
def readOptionalLocation : Decoder ReadError (Option Location) := do
  let present ← readByte
  if present = 0 then return none else some <$> readLocation

/-- Read bytes that their length precedes. -/
def readEmbedded : Decoder ReadError ByteArray := do
  let length ← readVarint
  readExactly length.toNat

end Decoder

end PrismTree
