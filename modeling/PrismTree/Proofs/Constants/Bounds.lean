import PrismTree.Proofs.Constants.Memoisation

/-!
# Constants outside their backing buffer

A descriptor gives a range of the source or of the serialized buffer. If the range reaches outside,
the constant is refused, with the one exception of an empty range of the serialized buffer: it is
read at the clamped offset, where nothing is missing, so it spells the empty text wherever it lies.
An empty range of the source has no such exception.
-/
namespace PrismTree

namespace ConstantPool

variable {pool : ConstantPool} {serialized source : ByteArray} {encoding : Encoding}
  {id : ConstantId} {start length : UInt32}

/-- The range of a descriptor lies inside the source or, with the highest bit set, inside the
serialized buffer. -/
def IsBacked (serialized source : ByteArray) (start length : UInt32) : Prop :=
  if start.toNat < ownedBit then start.toNat + length.toNat ≤ source.size
  else start.toNat - ownedBit + length.toNat ≤ serialized.size

/-- The range of a descriptor is an empty one of the serialized buffer. -/
def IsOwnedEmpty (start length : UInt32) : Prop :=
  ownedBit ≤ start.toNat ∧ length = 0

theorem slice?_eq_none_iff {bytes : ByteArray} {first count : Nat} :
    Bytes.slice? bytes first (first + count) = none ↔ bytes.size < first + count := by
  have taken := Bytes.slice?_isSome_iff bytes first (first + count)
  rw [← Option.not_isSome_iff_eq_none, taken]
  omega

/-- Nothing is designated just by a range that is not backed, unless it is empty and owned. -/
theorem designated?_eq_none_iff :
    designated? serialized source start length = none ↔
      ¬IsBacked serialized source start length ∧ ¬IsOwnedEmpty start length := by
  unfold designated? IsBacked IsOwnedEmpty
  by_cases quoted : start.toNat < ownedBit
  · rw [if_pos quoted, if_pos quoted, slice?_eq_none_iff]
    omega
  · rw [if_neg quoted, if_neg quoted]
    by_cases empty : length = 0
    · simp [empty, Nat.not_lt.1 quoted]
    · rw [if_neg empty]
      simp [slice?_eq_none_iff, empty]

theorem designated?_of_isOwnedEmpty (empty : IsOwnedEmpty start length) :
    designated? serialized source start length = some "".toUTF8 := by
  obtain ⟨owned, none⟩ := empty
  unfold designated?
  rw [if_neg (Nat.not_lt.2 owned), if_pos none]
  rfl

/-- An empty text needs no place in the serialized buffer. -/
theorem spells_of_isOwnedEmpty (described : pool.HasDescriptor serialized id start length)
    (empty : IsOwnedEmpty start length) : pool.Spells serialized source id "" :=
  ⟨start, length, described, designated?_of_isOwnedEmpty empty⟩

/-- A constant is out of bounds just when its bytes are missing, whatever the encoding. -/
theorem decode_eq_outOfBounds_iff {bytes? : Option ByteArray} :
    decode encoding id start length bytes? =
      .error (.constantOutOfBounds id.index start length) ↔ bytes? = none := by
  constructor
  · intro failed
    cases bytes? with
    | none => rfl
    | some bytes =>
      cases encoding with
      | unsupported name => simp [decode] at failed
      | utf8 =>
        simp only [decode] at failed
        split at failed <;> simp at failed
  · rintro rfl
    rfl

end ConstantPool

/-- A failure keeps its cause when it becomes a load error. -/
theorem LoadError.mapError_eq_ofCause_iff {α β : Type} {f : α → β}
    {found : Except LoadError.Cause α} {cause : LoadError.Cause} :
    (found.map f).mapError LoadError.ofCause = .error (.ofCause cause) ↔ found = .error cause := by
  cases found with
  | ok value => simp [Except.map, Except.mapError]
  | error other => simp [Except.map, Except.mapError, LoadError.ofCause]

/-- The call for a constant fails because of its bounds if and only if the range of its descriptor
reaches outside the backing buffer and is not an empty range of the serialized buffer, which spells
the empty text wherever it lies. -/
theorem outOfBounds_after_calls {encoding : Encoding} {header : PoolHeader}
    {serialized : ByteArray} {fresh : ConstantPool}
    (placed : ConstantPool.ofHeader encoding serialized.size header = .ok fresh)
    (source : ByteArray) (options : LoadOptions) (first : TreeState) (unused : first.pool = fresh)
    (calls : List (Nat × UInt32)) (position : Nat) {index : UInt32} {id : ConstantId}
    (found : fresh.id? index = some id) {start length : UInt32}
    (described : fresh.HasDescriptor serialized id start length) :
    let input : TreeInput := ⟨serialized, source, options⟩
    let before := (first.afterCalls input calls).moveTo position
    let value := (TreeDecoder.resolveConstant index).value input before
    let after := (TreeDecoder.resolveConstant index).after input before
    (value = .error (.ofCause (.constantOutOfBounds index start length)) ↔
      ¬ConstantPool.IsBacked serialized source start length ∧
        ¬ConstantPool.IsOwnedEmpty start length) ∧
    (ConstantPool.IsOwnedEmpty start length → encoding = .utf8 →
      value = .ok id ∧ after.pool.kept? id = some "") := by
  obtain ⟨rfl, room⟩ := ConstantPool.ofHeader_eq_ok_iff.1 placed
  intro input before value after
  have inside : (ConstantPool.fresh encoding header).IsInside serialized := by
    rw [ConstantPool.IsInside, ConstantPool.size_fresh]
    exact room
  have memoFirst : first.pool.Memoises (.fresh encoding header) serialized source := by
    rw [unused]
    exact ConstantPool.memoises_fresh
  have memo : before.pool.Memoises (.fresh encoding header) serialized source :=
    @TreeState.memoises_afterCalls _ input first memoFirst inside calls
  have told : value = ((ConstantPool.decode encoding id start length
      (ConstantPool.designated? serialized source start length)).map
        fun _ => id).mapError .ofCause := memo.value_of_some found described
  obtain ⟨same, -⟩ := ConstantPool.id?_eq_some_iff.1 found
  constructor
  · rw [told, ← same, LoadError.mapError_eq_ofCause_iff, ConstantPool.decode_eq_outOfBounds_iff,
      ConstantPool.designated?_eq_none_iff]
  · rintro empty rfl
    have spells : (ConstantPool.fresh .utf8 header).Spells serialized source id "" :=
      ConstantPool.spells_of_isOwnedEmpty described empty
    have decoded : ConstantPool.decode .utf8 id start length
        (ConstantPool.designated? serialized source start length) = .ok "" :=
      ConstantPool.decode_eq_ok_iff.2 ⟨rfl, ConstantPool.designated?_of_isOwnedEmpty empty⟩
    have succeeds : value = .ok id := by
      rw [told, decoded]
      rfl
    obtain ⟨-, text, kept, -⟩ := memo.kept?_eq memo inside succeeds
    have memo' := @ConstantPool.Memoises.of_call _ input before memo inside index
    have spelled := memo'.same.spells_iff.1 (memo'.faithful id text kept).2
    rw [spelled.unique spells] at kept
    exact ⟨succeeds, kept⟩

/-- The second of three constants points behind the end of the buffer. -/
theorem outOfBounds_after_calls_threeConstants :
    let input : TreeInput := ⟨threeConstants, ⟨#[102, 111, 111]⟩, {}⟩
    let first : TreeState := ⟨0, .fresh .utf8 ⟨0, 3⟩, #[]⟩
    ConstantPool.ofHeader .utf8 threeConstants.size ⟨0, 3⟩ = .ok first.pool ∧
      first.pool.HasDescriptor threeConstants ⟨2, by decide⟩ 0x80000064 1 ∧
      (TreeDecoder.resolveConstant 2).value input
        ((first.afterCalls input [(0, 1), (4, 3)]).moveTo 7) =
        .error (.ofCause (.constantOutOfBounds 2 0x80000064 1)) := by
  intro input first
  have placed : ConstantPool.ofHeader .utf8 threeConstants.size ⟨0, 3⟩ = .ok first.pool := by
    rw [ConstantPool.ofHeader_eq_ok_iff]
    exact ⟨rfl, by decide⟩
  have found : first.pool.id? 2 = some ⟨2, by decide⟩ := by decide +kernel
  have described : first.pool.HasDescriptor threeConstants ⟨2, by decide⟩ 0x80000064 1 :=
    ⟨by decide, ⟨[24, 0, 0, 128, 2, 0, 0, 0, 111, 107], rfl⟩⟩
  have outside : ¬ConstantPool.IsBacked threeConstants input.source 0x80000064 1 := by
    unfold ConstantPool.IsBacked
    decide
  have some : ¬ConstantPool.IsOwnedEmpty 0x80000064 1 := by
    unfold ConstantPool.IsOwnedEmpty
    decide
  have exact_when := outOfBounds_after_calls placed input.source input.options first rfl
    [(0, 1), (4, 3)] 7 found described
  exact ⟨placed, described, exact_when.1.2 ⟨outside, some⟩⟩

/-- A tree with one node, a constant whose descriptor gives an empty range behind the end of the
buffer. -/
def farEmptyConstant : ByteArray :=
  ⟨#[0x50, 0x52, 0x49, 0x53, 0x4D, 1, 3, 0, 0, 5, 85, 84, 70, 45, 56, 2, 1, 0, 0, 0, 0, 0, 0,
    34, 0, 0, 0, 1, 42, 1, 0, 1, 0, 1, 100, 0, 0, 128, 0, 0, 0, 0]⟩

/-- A range outside its backing buffer is not always refused: this one is loaded as an empty
text. -/
theorem exists_loaded_outOfBounds :
    (ConstantPool.fresh .utf8 ⟨34, 1⟩).HasDescriptor farEmptyConstant ⟨1, by decide⟩
      0x80000064 0 ∧
    ¬ConstantPool.IsBacked farEmptyConstant ⟨#[65]⟩ 0x80000064 0 ∧
    ∃ result, load farEmptyConstant ⟨#[65]⟩ = .ok result ∧
      result.constants.slots = #[some ""] := by
  have described : (ConstantPool.fresh .utf8 ⟨34, 1⟩).HasDescriptor farEmptyConstant
      ⟨1, by decide⟩ 0x80000064 0 := ⟨by decide, ⟨[], rfl⟩⟩
  have outside : ¬ConstantPool.IsBacked farEmptyConstant ⟨#[65]⟩ 0x80000064 0 := by
    unfold ConstantPool.IsBacked
    decide
  have slots : (load farEmptyConstant ⟨#[65]⟩).toOption.map (·.constants.slots) =
      some #[some ""] := by
    decide +kernel
  refine ⟨described, outside, ?_⟩
  cases loaded : load farEmptyConstant ⟨#[65]⟩ with
  | error error =>
    rw [loaded] at slots
    cases slots
  | ok result =>
    rw [loaded] at slots
    exact ⟨result, rfl, Option.some.inj slots⟩

end PrismTree
