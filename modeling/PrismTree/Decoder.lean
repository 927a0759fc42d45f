import PrismTree.Bytes
import PrismTree.Double
import PrismTree.Location

/-!
# Decoders

A decoder reads a fixed buffer from a position that it may move. The position stays within the
buffer: a move past the end stops at the end, so it is the next read that reports the missing
bytes. A failed decoder leaves the position where it stopped, which need not be where it began.
-/
namespace PrismTree

/-- Why bytes could not be read. -/
inductive ReadError where
  /-- Fewer bytes remain than are needed. -/
  | truncated (offset needed available : Nat)
  /-- A variable-length number takes more than 32 bits. -/
  | varintOverflow (offset : Nat)
  /-- A count announces more items than the remaining bytes can hold. -/
  | countTooLarge (offset : Nat) (count : UInt32) (remaining : Nat)
  deriving DecidableEq

/-- The wording of a failed read. -/
def ReadError.message : ReadError → String
  | .truncated offset needed available =>
    "needed " ++ toString needed ++ " bytes at offset " ++ toString offset ++ " but only "
      ++ toString available ++ " remain"
  | .varintOverflow offset =>
    "varint at offset " ++ toString offset ++ " does not fit in 32 bits"
  | .countTooLarge offset count remaining =>
    "count " ++ toString count.toNat ++ " at offset " ++ toString offset
      ++ " cannot fit in the " ++ toString remaining ++ " remaining bytes"

/-- A reader of values from a buffer: given the buffer and a position, a value or an error, and the
position that was reached. -/
def Decoder (ε α : Type) : Type :=
  ByteArray → Nat → EStateM.Result ε Nat α

namespace Decoder

variable {ε ε' α β : Type}

/-- Read nothing. -/
@[always_inline, inline]
protected def pure (value : α) : Decoder ε α := fun _ position =>
  .ok value position

/-- Go on from the position that was reached; stop at the first failure. -/
@[always_inline, inline]
protected def bind (decoder : Decoder ε α) (next : α → Decoder ε β) : Decoder ε β :=
  fun bytes position =>
    match decoder bytes position with
    | .ok value position => next value bytes position
    | .error error position => .error error position

/-- Decoders in sequence. -/
instance : Monad (Decoder ε) where
  pure := Decoder.pure
  bind := Decoder.bind

/-- Fail at the current position. -/
@[always_inline, inline]
protected def throw (error : ε) : Decoder ε α := fun _ position =>
  .error error position

/-- Run a decoder on a buffer from a position. -/
def runFrom (decoder : Decoder ε α) (bytes : ByteArray) (position : Nat) :
    EStateM.Result ε Nat α :=
  decoder bytes position

/-- Change the error of a failing decoder. -/
def mapError (f : ε → ε') (decoder : Decoder ε α) : Decoder ε' α := fun bytes position =>
  match decoder bytes position with
  | .ok value position => .ok value position
  | .error error position => .error (f error) position

/-- Turn the failure of a decoder into a value, at the position where it stopped. -/
def outcome (decoder : Decoder ε α) : Decoder ε' (Except ε α) := fun bytes position =>
  match decoder bytes position with
  | .ok value position => .ok (.ok value) position
  | .error error position => .ok (.error error) position

/-- The buffer that is read. -/
def buffer : Decoder ε ByteArray := fun bytes position =>
  .ok bytes position

/-- The current position. -/
def position : Decoder ε Nat := fun _ position =>
  .ok position position

/-- Number of bytes after the current position. -/
def remaining : Decoder ε Nat := fun bytes position =>
  .ok (bytes.size - position) position

/-- Move to a position, or to the end if the position lies past it. -/
def seek (target : Nat) : Decoder ε Unit := fun bytes _ =>
  .ok () (min target bytes.size)

/-- Move by a signed distance, stopping at either end of the buffer. -/
def skip (distance : Int) : Decoder ε Unit := fun bytes position =>
  .ok () (min (position + distance).toNat bytes.size)

/-- Run a decoder at another position and return to the current one, whether it fails or not. -/
def withPosition (target : Nat) (decoder : Decoder ε α) : Decoder ε α := fun bytes position =>
  match decoder bytes (min target bytes.size) with
  | .ok value _ => .ok value position
  | .error error _ => .error error position

/-- The byte at the current position, without moving. -/
def peek : Decoder ε (Option UInt8) := fun bytes position =>
  .ok bytes[position]? position

/-- Read one byte. -/
def readByte : Decoder ReadError UInt8 := fun bytes position =>
  match bytes[position]? with
  | some byte => .ok byte (position + 1)
  | none => .error (.truncated position 1 0) position

/-- Read a number of bytes, or as many as remain. -/
def readUpTo (count : Nat) : Decoder ε ByteArray := fun bytes position =>
  let stop := min (position + count) bytes.size
  .ok (bytes.extract position stop) stop

/-- Read exactly a number of bytes. -/
def readExactly (count : Nat) : Decoder ReadError ByteArray := do
  let available ← remaining
  if available < count then
    Decoder.throw (.truncated (← position) count available)
  else
    readUpTo count

/-- Read a little-endian number of a fixed width in bytes. -/
def readWord (width : Nat) : Decoder ReadError Nat := do
  let bytes ← readExactly width
  return Bytes.toNat bytes.data.toList

/-- Read four bytes as a number. -/
def readUInt32 : Decoder ReadError UInt32 :=
  UInt32.ofNat <$> readWord 4

/-- Read eight bytes as a binary64 number. -/
def readDouble : Decoder ReadError Double :=
  (fun bits => ⟨UInt64.ofNat bits⟩) <$> readWord 8

end Decoder

section Repetition

variable {m : Type → Type} [Monad m] {α : Type}

/-- Read an item for each index from `index` on, `count` items in all, and put them after the items
already `read`, the latest first. -/
def readManyFrom (item : Nat → m α) (index : Nat) (read : List α) : (count : Nat) → m (List α)
  | 0 => return read.reverse
  | count + 1 => do
    let value ← item index
    readManyFrom item (index + 1) (value :: read) count

/-- Read an item for each index below a count. -/
def readMany (count : Nat) (item : Nat → m α) : m (List α) :=
  readManyFrom item 0 [] count

end Repetition

end PrismTree
