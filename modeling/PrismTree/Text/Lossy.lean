/-!
# Reading bytes that may not be UTF-8

Bytes are read as UTF-8 one at a time. As soon as a byte cannot continue the sequence under way,
the bytes of that sequence are replaced together by one replacement character, and the byte is
read anew. Each replacement thus stands for a longest run that some valid sequence begins with.
-/
namespace PrismTree.Text

/-- A sequence under way: the bits read so far, the bounds of the byte that may come next, and how
many more bytes follow that one. -/
structure OpenSequence where
  bits : Nat
  low : UInt8
  high : UInt8
  more : Nat

namespace OpenSequence

/-- The sequence of two or more bytes that a byte begins. The bounds of the second byte leave out
overlong forms, surrogates, and everything above the last character. -/
def ofLead? (byte : UInt8) : Option OpenSequence :=
  if 0xC2 ≤ byte ∧ byte ≤ 0xDF then some ⟨byte.toNat % 32, 0x80, 0xBF, 0⟩
  else if byte = 0xE0 then some ⟨0, 0xA0, 0xBF, 1⟩
  else if byte = 0xED then some ⟨13, 0x80, 0x9F, 1⟩
  else if 0xE1 ≤ byte ∧ byte ≤ 0xEF then some ⟨byte.toNat % 16, 0x80, 0xBF, 1⟩
  else if byte = 0xF0 then some ⟨0, 0x90, 0xBF, 2⟩
  else if byte = 0xF4 then some ⟨4, 0x80, 0x8F, 2⟩
  else if 0xF1 ≤ byte ∧ byte ≤ 0xF3 then some ⟨byte.toNat % 8, 0x80, 0xBF, 2⟩
  else none

/-- May this byte come next? -/
def accepts (sequence : OpenSequence) (byte : UInt8) : Bool :=
  sequence.low ≤ byte && byte ≤ sequence.high

/-- The bits after one more byte. -/
def extended (sequence : OpenSequence) (byte : UInt8) : Nat :=
  sequence.bits * 64 + byte.toNat % 64

end OpenSequence

/-- The character that replaces what cannot be read. -/
def replacement : Char := '\uFFFD'

/-- A reading: the text so far and the sequence under way, if there is one. -/
structure Reading where
  text : String := ""
  pending : Option OpenSequence := none

namespace Reading

/-- Read a byte that begins a sequence. -/
def start (text : String) (byte : UInt8) : Reading :=
  if byte < 0x80 then ⟨text.push (Char.ofNat byte.toNat), none⟩
  else
    match OpenSequence.ofLead? byte with
    | some sequence => ⟨text, some sequence⟩
    | none => ⟨text.push replacement, none⟩

/-- Read one byte. -/
def feed (reading : Reading) (byte : UInt8) : Reading :=
  match reading.pending with
  | none => start reading.text byte
  | some sequence =>
    if sequence.accepts byte then
      match sequence.more with
      | 0 => ⟨reading.text.push (Char.ofNat (sequence.extended byte)), none⟩
      | more + 1 => ⟨reading.text, some ⟨sequence.extended byte, 0x80, 0xBF, more⟩⟩
    else
      start (reading.text.push replacement) byte

/-- The text of a reading whose bytes have ended. -/
def finish (reading : Reading) : String :=
  match reading.pending with
  | none => reading.text
  | some _ => reading.text.push replacement

end Reading

/-- The text that bytes spell, with replacement characters for what is not UTF-8. -/
def lossy (bytes : ByteArray) : String :=
  (bytes.data.foldl Reading.feed ⟨"", none⟩).finish

end PrismTree.Text
