/-!
# Constants

Names are interned: a node refers to a constant by its position in the constant pool, counted from
one, and the texts are kept once in a table. Only constants that the tree refers to are resolved,
so a slot of the table may be empty, and the numbering stays that of the pool.
-/
namespace PrismTree

/-- The position of a constant in its pool, counted from one. -/
structure ConstantId where
  index : UInt32
  index_ne_zero : index ≠ 0
  deriving DecidableEq

namespace ConstantId

/-- The reference with this index; zero refers to nothing. -/
def ofIndex? (index : UInt32) : Option ConstantId :=
  if h : index ≠ 0 then some ⟨index, h⟩ else none

/-- The slot of a constant in the table, counted from zero. -/
def slot (id : ConstantId) : Nat :=
  id.index.toNat - 1

/-- A reference as a diagnostic text. -/
def text (id : ConstantId) : String :=
  "ConstantId(" ++ toString id.index.toNat ++ ")"

@[simp] theorem ofIndex?_index (id : ConstantId) : ofIndex? id.index = some id := by
  simp [ofIndex?, id.index_ne_zero]

theorem slot_add_one (id : ConstantId) : id.slot + 1 = id.index.toNat := by
  have : id.index.toNat ≠ 0 := fun h => id.index_ne_zero (UInt32.toNat_inj.mp h)
  simp only [slot]
  omega

end ConstantId

/-- The table of constants: slot `i` holds the text of the constant with index `i + 1`. -/
structure ConstantTable where
  slots : Array (Option String) := #[]
  deriving DecidableEq

namespace ConstantTable

/-- The text of a resolved constant. -/
def get? (constants : ConstantTable) (id : ConstantId) : Option String :=
  (constants.slots[id.slot]?).join

/-- Number of slots, empty ones included. -/
def size (constants : ConstantTable) : Nat :=
  constants.slots.size

/-- Does the table have no slots? -/
def isEmpty (constants : ConstantTable) : Bool :=
  constants.slots.isEmpty

/-- The resolved constants with their references, in ascending order. -/
def entries (constants : ConstantTable) : List (ConstantId × String) :=
  (constants.slots.toList.zipIdx 1).filterMap fun (slot, index) => do
    let text ← slot
    let id ← ConstantId.ofIndex? (UInt32.ofNat index)
    return (id, text)

end ConstantTable

end PrismTree
