import PrismTree.Proofs.Constants.Designation
import PrismTree.Proofs.Serialize.Preamble
import PrismTree.Proofs.Serialize.Tree

/-!
# Writing a document

A document is written in order, and the place of its pool is filled in when the bytes in front of
the pool are known. Behind the tree stand the descriptors of the constants, and behind these, in
the same order, the bytes of the constants that are not quoted from the source.
-/
namespace PrismTree

/-- A constant of a document: a part of the source, or bytes that the buffer holds itself. -/
inductive PoolEntry where
  | quoted (start length : UInt32)
  | owned (bytes : ByteArray)

namespace PoolEntry

/-- The bytes that the buffer has to hold for a constant. -/
def ownedBytes : PoolEntry → List UInt8
  | .quoted _ _ => []
  | .owned bytes => bytes.data.toList

/-- The bytes of a constant, if they are there. A descriptor has 31 bits for a place in the
source. -/
def bytes? (source : ByteArray) : PoolEntry → Option ByteArray
  | .quoted start length =>
    if start.toNat < ConstantPool.ownedBit then
      Bytes.slice? source start.toNat (start.toNat + length.toNat)
    else none
  | .owned bytes => some bytes

/-- The text of a constant, if it has one. -/
def text? (source : ByteArray) (entry : PoolEntry) : Option String :=
  (entry.bytes? source).bind String.fromUTF8?

/-- Write the descriptor of a constant; bytes of its own start at the given offset. -/
def descriptor (ownedAt : Nat) : PoolEntry → List UInt8
  | .quoted start length => Bytes.ofNat 4 start.toNat ++ Bytes.ofNat 4 length.toNat
  | .owned bytes => Bytes.ofNat 4 (ConstantPool.ownedBit + ownedAt) ++ Bytes.ofNat 4 bytes.size

theorem length_descriptor (ownedAt : Nat) (entry : PoolEntry) :
    (entry.descriptor ownedAt).length = ConstantPool.descriptorSize := by
  cases entry <;> simp [descriptor, ConstantPool.descriptorSize]

end PoolEntry

namespace Serialize

/-- Write the bytes that the buffer has to hold for constants. -/
def ownedBytes (entries : List PoolEntry) : List UInt8 :=
  entries.flatMap PoolEntry.ownedBytes

/-- Write the descriptors of constants; bytes of their own start at the given offset. -/
def descriptors (ownedAt : Nat) : List PoolEntry → List UInt8
  | [] => []
  | entry :: rest => entry.descriptor ownedAt ++
    descriptors (ownedAt + entry.ownedBytes.length) rest

theorem length_descriptors (ownedAt : Nat) (entries : List PoolEntry) :
    (descriptors ownedAt entries).length = entries.length * ConstantPool.descriptorSize := by
  induction entries generalizing ownedAt with
  | nil => exact (Nat.zero_mul _).symm
  | cons entry rest ih =>
    rw [descriptors, List.length_append, entry.length_descriptor, ih, List.length_cons,
      Nat.add_one_mul, Nat.add_comm]

theorem descriptors_append (ownedAt : Nat) (first second : List PoolEntry) :
    descriptors ownedAt (first ++ second) =
      descriptors ownedAt first ++ descriptors (ownedAt + (ownedBytes first).length) second := by
  induction first generalizing ownedAt with
  | nil => rfl
  | cons entry rest ih =>
    simp only [List.cons_append, descriptors, ih, ownedBytes, List.flatMap_cons,
      List.length_append, List.append_assoc, Nat.add_assoc]

end Serialize

/-- A part of bytes stands in a buffer behind what precedes it. -/
theorem standsAt_of_append (before bytes behind : List UInt8) :
    StandsAt bytes ⟨(before ++ (bytes ++ behind)).toArray⟩ before.length := by
  refine ⟨?_, behind, ?_⟩
  · show before.length ≤ (before ++ (bytes ++ behind)).toArray.size
    rw [List.size_toArray, List.length_append]
    exact Nat.le_add_right _ _
  · show bytes ++ behind = (before ++ (bytes ++ behind)).toArray.toList.drop before.length
    rw [List.toList_toArray, List.drop_left]

/-- What a serialized tree is made from. The tree is left out if there are errors. -/
structure Document where
  encodingName : String
  startLine : Int32
  lineOffsets : List UInt32
  remarks : Remarks
  root : Node
  constants : List PoolEntry

namespace Document

/-- Write what stands in front of the place of the pool. -/
def front (document : Document) : List UInt8 :=
  Serialize.heading document.encodingName document.startLine document.lineOffsets ++
    Serialize.remarks document.remarks

/-- The given bytes of the tree, unless there are errors. -/
def body (document : Document) (tree : List UInt8) : List UInt8 :=
  if document.remarks.errors = [] then tree else []

/-- Where the pool lies. -/
def poolOffset (document : Document) (tree : List UInt8) : Nat :=
  document.front.length + 4 + (Serialize.count document.constants.length).length +
    (document.body tree).length

/-- What is said about the pool in front of the tree. -/
def poolHeader (document : Document) (tree : List UInt8) : PoolHeader :=
  ⟨UInt32.ofNat (document.poolOffset tree), UInt32.ofNat document.constants.length⟩

/-- Where the bytes of constants start that are not quoted from the source. -/
def ownedOffset (document : Document) (tree : List UInt8) : Nat :=
  document.poolOffset tree + document.constants.length * ConstantPool.descriptorSize

/-- Where the bytes of the constant in a slot start, if they are not quoted from the source. -/
def ownedAt (document : Document) (tree : List UInt8) (slot : Nat) : Nat :=
  document.ownedOffset tree + (Serialize.ownedBytes (document.constants.take slot)).length

/-- Write what stands in front of the tree. -/
def opening (document : Document) (tree : List UInt8) : List UInt8 :=
  document.front ++ Serialize.poolHeader (document.poolHeader tree)

/-- Write a document around the given bytes of its tree. -/
def assemble (document : Document) (tree : List UInt8) : ByteArray :=
  ⟨(document.opening tree ++ (document.body tree ++
    (Serialize.descriptors (document.ownedOffset tree) document.constants ++
      Serialize.ownedBytes document.constants))).toArray⟩

/-- Write a document. -/
def serialize (document : Document) : ByteArray :=
  document.assemble document.root.serialize

theorem length_opening (document : Document) (tree : List UInt8) :
    (document.opening tree).length + (document.body tree).length = document.poolOffset tree := by
  rw [opening, List.length_append, Serialize.poolHeader, List.length_append, Bytes.length_ofNat,
    poolOffset, ← Nat.add_assoc]
  rfl

/-- Offsets, counts and lengths have room in their words, and so has the bit of a descriptor that
tells own bytes. -/
structure IsCountable (document : Document) (tree : List UInt8) : Prop where
  offset_lt : document.poolOffset tree < 2 ^ 32
  count_lt : document.constants.length < 2 ^ 32
  owned_lt : ∀ slot bytes, document.constants[slot]? = some (.owned bytes) →
    document.ownedAt tree slot < ConstantPool.ownedBit ∧ bytes.size < 2 ^ 32

section

variable {document : Document} {tree : List UInt8}

theorem opening_stands : StandsAt (document.opening tree) (document.assemble tree) 0 :=
  standsAt_of_append [] _ _

theorem body_stands :
    StandsAt (document.body tree) (document.assemble tree) (document.opening tree).length :=
  standsAt_of_append _ _ _

/-- The pool has room in the buffer. -/
theorem pool_le_size : document.ownedOffset tree ≤ (document.assemble tree).size := by
  show _ ≤ (List.toArray _).size
  rw [List.size_toArray, ownedOffset, ← length_opening]
  simp only [List.length_append, Serialize.length_descriptors]
  omega

variable {slot : Nat}

theorem split_constants {entry : PoolEntry} (found : document.constants[slot]? = some entry) :
    document.constants =
      document.constants.take slot ++ entry :: document.constants.drop (slot + 1) := by
  obtain ⟨inside, rfl⟩ := List.getElem?_eq_some_iff.1 found
  rw [← List.drop_eq_getElem_cons inside, List.take_append_drop]

/-- The descriptor of a constant stands in its slot. -/
theorem descriptor_stands {entry : PoolEntry} (found : document.constants[slot]? = some entry) :
    StandsAt (entry.descriptor (document.ownedAt tree slot)) (document.assemble tree)
      (document.poolOffset tree + slot * ConstantPool.descriptorSize) := by
  have here : (document.constants.take slot).length = slot := by
    obtain ⟨inside, -⟩ := List.getElem?_eq_some_iff.1 found
    exact List.length_take_of_le (Nat.le_of_lt inside)
  have descriptors : Serialize.descriptors (document.ownedOffset tree) document.constants = _ :=
    congrArg _ (split_constants found)
  rw [Serialize.descriptors_append, Serialize.descriptors, ← ownedAt] at descriptors
  have stands := standsAt_of_append
    (document.opening tree ++ (document.body tree ++
      Serialize.descriptors (document.ownedOffset tree) (document.constants.take slot)))
    (entry.descriptor (document.ownedAt tree slot))
    (Serialize.descriptors (document.ownedAt tree slot + entry.ownedBytes.length)
      (document.constants.drop (slot + 1)) ++ Serialize.ownedBytes document.constants)
  rw [List.length_append, List.length_append, ← Nat.add_assoc, length_opening,
    Serialize.length_descriptors, here] at stands
  rw [assemble, descriptors]
  simpa only [List.append_assoc] using stands

/-- The bytes of a constant that is not quoted stand where its descriptor says. -/
theorem owned_stands {bytes : ByteArray}
    (found : document.constants[slot]? = some (.owned bytes)) :
    StandsAt bytes.data.toList (document.assemble tree) (document.ownedAt tree slot) := by
  have owned : Serialize.ownedBytes document.constants =
      Serialize.ownedBytes (document.constants.take slot) ++ (bytes.data.toList ++
        Serialize.ownedBytes (document.constants.drop (slot + 1))) := by
    conv_lhs => rw [split_constants found]
    rw [Serialize.ownedBytes, List.flatMap_append, List.flatMap_cons]
    rfl
  have stands := standsAt_of_append
    (document.opening tree ++ (document.body tree ++
      (Serialize.descriptors (document.ownedOffset tree) document.constants ++
        Serialize.ownedBytes (document.constants.take slot))))
    bytes.data.toList (Serialize.ownedBytes (document.constants.drop (slot + 1)))
  rw [List.length_append, List.length_append, List.length_append, ← Nat.add_assoc,
    ← Nat.add_assoc, length_opening, Serialize.length_descriptors, ← ownedOffset, ← ownedAt]
    at stands
  rw [assemble, owned]
  simpa only [List.append_assoc] using stands

end

end Document

end PrismTree
