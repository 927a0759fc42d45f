/-!
# Locations

Every node, comment and diagnostic carries one span of source bytes, given by its start and its
length as they stand on the wire. A corrupt length may reach past what 32 bits can count, so the
end of a span saturates there and never wraps around.
-/
namespace PrismTree

/-- A span of source bytes. -/
structure Location where
  start : UInt32
  length : UInt32
  deriving DecidableEq, Inhabited

namespace Location

/-- The empty span at the start of the source. -/
def zero : Location := ⟨0, 0⟩

/-- The exclusive end of a span, at most `2 ^ 32 - 1`. -/
def stop (location : Location) : Nat :=
  min (location.start.toNat + location.length.toNat) 0xFFFFFFFF

/-- A span that covers nothing. -/
def isEmpty (location : Location) : Bool :=
  location.length == 0

/-- Does an offset fall inside the span? -/
def contains (location : Location) (offset : UInt32) : Bool :=
  location.start ≤ offset && offset.toNat < location.stop

/-- The text of a span: its two ends with two dots between them. -/
def text (location : Location) : String :=
  toString location.start.toNat ++ ".." ++ toString location.stop

theorem start_le_stop (location : Location) : location.start.toNat ≤ location.stop := by
  have := location.start.toNat_lt
  simp only [stop]
  omega

theorem stop_eq (location : Location)
    (fits : location.start.toNat + location.length.toNat ≤ 0xFFFFFFFF) :
    location.stop = location.start.toNat + location.length.toNat := by
  simp only [stop]
  omega

end Location

end PrismTree
