import PrismTree.Proofs.Constants.Designation

/-!
# The entries of a constant table

A table that is numbered in 32 bits lists each of its resolved constants once, in ascending order.
-/
namespace PrismTree

namespace ConstantTable

variable {constants : ConstantTable} {id : ConstantId} {text : String}

theorem get?_eq_some_iff :
    constants.get? id = some text ↔ constants.slots[id.slot]? = some (some text) := by
  rw [get?, Option.join_eq_some_iff]

/-- A slot that is numbered in 32 bits has a reference. -/
theorem exists_slot_eq {slot : Nat} (small : slot + 1 < 2 ^ 32) :
    ∃ id : ConstantId, id.slot = slot := by
  have number : (UInt32.ofNat (slot + 1)).toNat = slot + 1 := UInt32.toNat_ofNat_of_lt' small
  refine ⟨⟨UInt32.ofNat (slot + 1), fun zero => ?_⟩, ?_⟩
  · rw [zero] at number
    cases number
  · rw [ConstantId.slot, number, Nat.add_sub_cancel]

/-- Tables that are numbered in 32 bits are the same if they have the same texts. -/
theorem eq_of_get? {constants' : ConstantTable} (size : constants.size = constants'.size)
    (small : constants.size < 2 ^ 32) (same : ∀ id, constants.get? id = constants'.get? id) :
    constants = constants' := by
  obtain ⟨slots⟩ := constants
  obtain ⟨slots'⟩ := constants'
  congr 1
  refine Array.ext size fun slot inside inside' => ?_
  obtain ⟨id, rfl⟩ := exists_slot_eq (Nat.lt_of_le_of_lt inside small)
  simpa [get?, inside, inside'] using same id

/-- What the table lists for a slot with its index, counted from one. -/
def listed? (slot : Option String × Nat) : Option (ConstantId × String) := do
  let text ← slot.1
  let id ← ConstantId.ofIndex? (UInt32.ofNat slot.2)
  return (id, text)

theorem listed?_eq_some_iff {slot? : Option String} {index : Nat} (small : index < 2 ^ 32) :
    listed? (slot?, index) = some (id, text) ↔ slot? = some text ∧ id.index.toNat = index := by
  have whole : (UInt32.ofNat index).toNat = index := UInt32.toNat_ofNat_of_lt' small
  simp only [listed?, Option.bind_eq_bind, Option.bind_eq_some_iff, ConstantId.ofIndex?_eq_some_iff,
    ← UInt32.toNat_inj, whole, Option.pure_def, Option.some_inj, Prod.mk.injEq]
  constructor
  · intro h
    obtain ⟨_, found, _, same, rfl, rfl⟩ := h
    exact ⟨found, same⟩
  · rintro ⟨found, same⟩
    exact ⟨text, found, id, same, rfl, rfl⟩

theorem mem_slots_zipIdx_iff {slot? : Option String} {index : Nat} :
    (slot?, index) ∈ constants.slots.toList.zipIdx 1 ↔
      1 ≤ index ∧ constants.slots[index - 1]? = some slot? := by
  rw [List.mk_mem_zipIdx_iff_le_and_getElem?_sub, Array.getElem?_toList]

theorem index_lt_of_mem (small : constants.size < 2 ^ 32) {slot? : Option String} {index : Nat}
    (listed : (slot?, index) ∈ constants.slots.toList.zipIdx 1) : index < 2 ^ 32 := by
  obtain ⟨first, found⟩ := mem_slots_zipIdx_iff.1 listed
  obtain ⟨inside, -⟩ := Array.getElem?_eq_some_iff.1 found
  rw [size] at small
  omega

/-- The entries are the constants with a text. -/
theorem mem_entries_iff (small : constants.size < 2 ^ 32) :
    (id, text) ∈ constants.entries ↔ constants.get? id = some text := by
  have index := id.slot_add_one
  rw [get?_eq_some_iff]
  constructor
  · intro member
    obtain ⟨⟨slot?, index'⟩, listed, taken⟩ := List.mem_filterMap.1 member
    obtain ⟨rfl, rfl⟩ := (listed?_eq_some_iff (index_lt_of_mem small listed)).1 taken
    rw [← (mem_slots_zipIdx_iff.1 listed).2, ← index, Nat.add_sub_cancel]
  · intro found
    have listed : (some text, id.index.toNat) ∈ constants.slots.toList.zipIdx 1 :=
      mem_slots_zipIdx_iff.2 ⟨by omega, by rwa [← index, Nat.add_sub_cancel]⟩
    exact List.mem_filterMap.2
      ⟨_, listed, (listed?_eq_some_iff id.index.toNat_lt).2 ⟨rfl, rfl⟩⟩

theorem pairwise_entries (small : constants.size < 2 ^ 32) :
    constants.entries.Pairwise fun first second => first.1.index < second.1.index := by
  have ascending : ((constants.slots.toList.zipIdx 1).map Prod.snd).Pairwise (· < ·) := by
    rw [List.zipIdx_map_snd]
    exact List.pairwise_lt_range'
  refine List.pairwise_filterMap.2 ((List.pairwise_map.1 ascending).imp_of_mem ?_)
  rintro ⟨slot?, index⟩ ⟨slot?', index'⟩ listed listed' less ⟨id, text⟩ taken ⟨id', text'⟩ taken'
  obtain ⟨-, rfl⟩ := (listed?_eq_some_iff (index_lt_of_mem small listed)).1 taken
  obtain ⟨-, rfl⟩ := (listed?_eq_some_iff (index_lt_of_mem small listed')).1 taken'
  exact UInt32.lt_iff_toNat_lt.2 less

end ConstantTable

end PrismTree
