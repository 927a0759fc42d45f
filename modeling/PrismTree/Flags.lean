/-!
# Node flags

A node carries a word of 15 flag bits. The two lowest bits are common to all kinds, and from bit
two on the meaning of a bit depends on the kind of the node. A family names the bits of some kinds
in order, the first name standing for bit two. Bits that a family does not name are kept.
-/
namespace PrismTree

/-- The flag word of a node: 15 bits. -/
structure NodeFlags where
  bits : UInt16
  bits_le : bits ≤ 0x7FFF
  deriving DecidableEq

/-- The families of flags, one for each group of kinds that share their meaning. -/
inductive FlagFamily where
  | arguments
  | array
  | call
  | encoding
  | integerBase
  | interpolatedString
  | keywordHash
  | loop
  | parameter
  | parentheses
  | range
  | regularExpression
  | shareableConstant
  | string
  | symbol
  deriving DecidableEq

namespace FlagFamily

/-- The names of a family's flags, from bit two upward. -/
def flags : FlagFamily → List String
  | .arguments =>
    ["CONTAINS_FORWARDING", "CONTAINS_KEYWORDS", "CONTAINS_KEYWORD_SPLAT", "CONTAINS_SPLAT",
      "CONTAINS_MULTIPLE_SPLATS"]
  | .array => ["CONTAINS_SPLAT"]
  | .call => ["SAFE_NAVIGATION", "VARIABLE_CALL", "ATTRIBUTE_WRITE", "IGNORE_VISIBILITY"]
  | .encoding => ["FORCED_UTF8_ENCODING", "FORCED_BINARY_ENCODING"]
  | .integerBase => ["BINARY", "DECIMAL", "OCTAL", "HEXADECIMAL"]
  | .interpolatedString => ["FROZEN", "MUTABLE"]
  | .keywordHash => ["SYMBOL_KEYS"]
  | .loop => ["BEGIN_MODIFIER"]
  | .parameter => ["REPEATED_PARAMETER"]
  | .parentheses => ["MULTIPLE_STATEMENTS"]
  | .range => ["EXCLUDE_END"]
  | .regularExpression =>
    ["IGNORE_CASE", "EXTENDED", "MULTI_LINE", "ONCE", "EUC_JP", "ASCII_8BIT", "WINDOWS_31J",
      "UTF_8", "FORCED_UTF8_ENCODING", "FORCED_BINARY_ENCODING", "FORCED_US_ASCII_ENCODING"]
  | .shareableConstant => ["LITERAL", "EXPERIMENTAL_EVERYTHING", "EXPERIMENTAL_COPY"]
  | .string => ["FORCED_UTF8_ENCODING", "FORCED_BINARY_ENCODING", "FROZEN", "MUTABLE"]
  | .symbol => ["FORCED_UTF8_ENCODING", "FORCED_BINARY_ENCODING", "FORCED_US_ASCII_ENCODING"]

end FlagFamily

namespace NodeFlags

/-- The largest flag word. -/
def max : Nat := 0x7FFF

/-- The empty flag word. -/
def empty : NodeFlags := ⟨0, by decide⟩

/-- The flag word with these bits, unless one above the fifteenth is set. -/
def ofNat? (bits : Nat) : Option NodeFlags :=
  if h : bits ≤ max then
    some ⟨UInt16.ofNat bits, by
      rw [UInt16.le_iff_toNat_le, UInt16.toNat_ofNat_of_lt' (Nat.lt_of_le_of_lt h (by decide))]
      exact h⟩
  else none

theorem ofNat?_eq_some_iff {word : UInt32} {flags : NodeFlags} :
    ofNat? word.toNat = some flags ↔ word = flags.bits.toUInt32 := by
  rw [ofNat?, ← UInt32.toNat_inj, UInt16.toNat_toUInt32]
  have bound : flags.bits.toNat ≤ max := flags.bits_le
  constructor
  · intro accepted
    split at accepted
    · next small =>
      cases accepted
      exact (UInt16.toNat_ofNat_of_lt' (Nat.lt_of_le_of_lt small (by decide))).symm
    · cases accepted
  · intro same
    rw [dif_pos (same ▸ bound)]
    cases flags
    simp only [same, UInt16.ofNat_toNat]

/-- Is no bit set? -/
def isEmpty (flags : NodeFlags) : Bool :=
  flags.bits == 0

/-- Is this bit set? -/
def test (flags : NodeFlags) (bit : Nat) : Bool :=
  flags.bits.toNat.testBit bit

/-- Are all bits of a mask set? -/
def contains (flags : NodeFlags) (mask : UInt16) : Bool :=
  flags.bits &&& mask == mask

/-- The names of the flags of a family that are set, in the order of the family. -/
def names (flags : NodeFlags) (family : FlagFamily) : List String :=
  (family.flags.zipIdx 2).filterMap fun (name, bit) => if flags.test bit then some name else none

/-- The radix in which an integer literal is written; decimal if no flag tells. -/
def radix (flags : NodeFlags) : Nat :=
  if flags.test 2 then 2
  else if flags.test 4 then 8
  else if flags.test 5 then 16
  else 10

end NodeFlags

end PrismTree
