/-!
# Binary64 numbers

A number is kept as its bits, so nothing is lost on the way from the wire. Numbers are compared
as IEEE 754 prescribes: a NaN differs from every number and from itself, and the two zeros are
equal.
-/
namespace PrismTree

/-- A binary64 number, as its bits. -/
structure Double where
  bits : UInt64
  deriving DecidableEq

namespace Double

/-- The bits below the sign. -/
def magnitude (d : Double) : UInt64 :=
  d.bits &&& 0x7FFFFFFFFFFFFFFF

/-- All bits of the exponent set, and one of the fraction. -/
def isNaN (d : Double) : Bool :=
  0x7FF0000000000000 < d.magnitude

/-- Is the number zero, of either sign? -/
def isZero (d : Double) : Bool :=
  d.magnitude == 0

/-- Equality of the numbers, not of the bits. -/
instance : BEq Double where
  beq a b := !a.isNaN && !b.isNaN && (a.bits == b.bits || (a.isZero && b.isZero))

theorem beq_self (d : Double) : (d == d) = !d.isNaN := by
  simp [BEq.beq]

end Double

end PrismTree
