import PrismTree.Bytes
import PrismTree.Location

/-!
# The source and its lines

A source is the text that was parsed, as bytes, with the table of the offsets at which its lines
start. The table comes from the parser and is not recomputed. Looking up the line of an offset is
a binary search for the last line start at or before it, after clamping the offset to the last
byte, so an offset past the end belongs to the last line.
-/
namespace PrismTree

/-- Why an offset has no line. -/
inductive LineError where
  | noLineOffsets
  | beforeFirstLine (offset firstLineStart : UInt32)
  | lineOverflow
  deriving DecidableEq

/-- The wording of a failed line lookup. -/
def LineError.message : LineError → String
  | .noLineOffsets => "source has no line offsets"
  | .beforeFirstLine offset firstLineStart =>
    "offset " ++ toString offset.toNat ++ " precedes the first line start "
      ++ toString firstLineStart.toNat
  | .lineOverflow => "line number overflows i32"

/-- A parsed text: its bytes, the number of its first line, and the offsets of its line starts in
ascending order. -/
structure Source where
  bytes : ByteArray
  startLine : Int32 := 1
  lineOffsets : Array UInt32 := #[]
  deriving DecidableEq

namespace Source

/-- Number of recorded lines. -/
def lineCount (source : Source) : Nat :=
  source.lineOffsets.size

/-- The largest number that a line may have. -/
def maxLine : Int := 2147483647

/-- The offset, or that of the last byte if the offset lies past the end. -/
def clamp (source : Source) (offset : UInt32) : UInt32 :=
  let last := source.bytes.size - 1
  if offset.toNat ≤ last then offset else UInt32.ofNat last

/-- Does the line with this index start at or before an offset? -/
def startsBy (lineOffsets : Array UInt32) (offset : UInt32) (index : Nat) : Bool :=
  match lineOffsets[index]? with
  | some start => start ≤ offset
  | none => false

/-- Halve a nonempty range of lines until one is left, keeping the last one that starts at or
before the offset inside the range if there is any. -/
def searchLine (lineOffsets : Array UInt32) (offset : UInt32) (base size : Nat) : Nat :=
  if 1 < size then
    let half := size / 2
    let middle := base + half
    searchLine lineOffsets offset (if startsBy lineOffsets offset middle then middle else base)
      (size - half)
  else base
termination_by size

/-- The number of lines that start at or before an offset. -/
def linesBy (lineOffsets : Array UInt32) (offset : UInt32) : Nat :=
  let found := searchLine lineOffsets offset 0 lineOffsets.size
  if startsBy lineOffsets offset found then found + 1 else found

/-- The index of the line that contains an offset. -/
def findLine (source : Source) (offset : UInt32) : Except LineError Nat :=
  let offset := source.clamp offset
  match linesBy source.lineOffsets offset with
  | index + 1 => .ok index
  | 0 =>
    match source.lineOffsets[0]? with
    | some first => .error (.beforeFirstLine offset first)
    | none => .error .noLineOffsets

/-- The number of the line that contains an offset. -/
def line (source : Source) (offset : UInt32) : Except LineError Int32 := do
  let index ← source.findLine offset
  let number := source.startLine.toInt + index
  if index ≤ maxLine ∧ number ≤ maxLine then
    return Int32.ofInt number
  else
    throw .lineOverflow

/-- The position of the line that contains an offset, counted from one whatever the number of the
first line. -/
def lineSlot (source : Source) (offset : UInt32) : Except LineError Nat := do
  let index ← source.findLine offset
  return index + 1

/-- The offset at which a line starts, if that line is recorded. -/
def lineStart? (source : Source) (line : Int32) : Option UInt32 :=
  let index := line.toInt - source.startLine.toInt
  if 0 ≤ index ∧ index ≤ maxLine then source.lineOffsets[index.toNat]? else none

/-- The bytes of a span, if it lies inside the source. -/
def slice? (source : Source) (location : Location) : Option ByteArray :=
  Bytes.slice? source.bytes location.start.toNat location.stop

end Source

end PrismTree
