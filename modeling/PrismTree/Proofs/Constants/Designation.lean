import PrismTree.ConstantPool
import PrismTree.Proofs.Wire.Scalar

/-!
# What a constant designates

The text of a constant is determined by the buffer and the source alone: its descriptor stands in
the table, the descriptor designates bytes, and these spell the text. Reading the text gives just
that, from whatever position, and leaves the position as it was.
-/
namespace PrismTree

namespace ConstantId

theorem slot_injective {id id' : ConstantId} (same : id.slot = id'.slot) : id = id' := by
  have index : id.index.toNat = id'.index.toNat := by
    rw [← id.slot_add_one, ← id'.slot_add_one, same]
  cases id
  cases id'
  simpa using UInt32.toNat_inj.1 index

theorem ofIndex?_eq_some_iff {index : UInt32} {id : ConstantId} :
    ofIndex? index = some id ↔ id.index = index := by
  constructor
  · intro found
    simp only [ofIndex?] at found
    split at found
    · cases found
      rfl
    · cases found
  · rintro rfl
    exact ofIndex?_index id

end ConstantId

namespace ConstantPool

variable {pool : ConstantPool} {serialized source : ByteArray} {id : ConstantId}
  {start length : UInt32} {position stop : Nat} {text : String}

/-- The descriptor of a constant in the table. -/
def HasDescriptor (pool : ConstantPool) (serialized : ByteArray) (id : ConstantId)
    (start length : UInt32) : Prop :=
  StandsAt (Bytes.ofNat 4 start.toNat ++ Bytes.ofNat 4 length.toNat) serialized
    (pool.tableOffset + id.slot * descriptorSize)

/-- The bytes that a descriptor designates, in the source or, with the highest bit set, in the
serialized buffer. Owned bytes that are none need no place. -/
def designated? (serialized source : ByteArray) (start length : UInt32) : Option ByteArray :=
  if start.toNat < ownedBit then
    Bytes.slice? source start.toNat (start.toNat + length.toNat)
  else if length = 0 then
    some ByteArray.empty
  else
    let offset := start.toNat - ownedBit
    Bytes.slice? serialized offset (offset + length.toNat)

/-- A constant spells a text if its descriptor designates the bytes of the text. -/
def Spells (pool : ConstantPool) (serialized source : ByteArray) (id : ConstantId)
    (text : String) : Prop :=
  ∃ start length, pool.HasDescriptor serialized id start length ∧
    designated? serialized source start length = some text.toUTF8

/-- A constant has one descriptor at most. -/
theorem HasDescriptor.unique {start' length' : UInt32}
    (described : pool.HasDescriptor serialized id start length)
    (described' : pool.HasDescriptor serialized id start' length') :
    start = start' ∧ length = length' := by
  have same := described.eq_of_length_eq described' (by simp)
  obtain ⟨starts, lengths⟩ := List.append_inj same (by simp)
  have word : ∀ n n' : UInt32, Bytes.ofNat 4 n.toNat = Bytes.ofNat 4 n'.toNat → n = n' := by
    intro n n' bytes
    have small : ∀ n : UInt32, n.toNat < 256 ^ 4 := fun n => n.toNat_lt
    have numbers := congrArg Bytes.toNat bytes
    rw [Bytes.toNat_ofNat, Bytes.toNat_ofNat, Nat.mod_eq_of_lt (small n),
      Nat.mod_eq_of_lt (small n')] at numbers
    exact UInt32.toNat_inj.1 numbers
  exact ⟨word start start' starts, word length length' lengths⟩

/-- A constant spells one text at most. -/
theorem Spells.unique {text' : String} (spells : pool.Spells serialized source id text)
    (spells' : pool.Spells serialized source id text') : text = text' := by
  obtain ⟨start, length, described, designated⟩ := spells
  obtain ⟨start', length', described', designated'⟩ := spells'
  obtain ⟨rfl, rfl⟩ := described.unique described'
  rw [designated, Option.some_inj] at designated'
  exact Option.some.inj
    ((fromUTF8?_eq_some_iff.2 rfl).symm.trans (fromUTF8?_eq_some_iff.2 designated'))

theorem readDescriptor_eq_ok_iff :
    (pool.readDescriptor id).runFrom serialized position = .ok (start, length) stop ↔
      stop = position ∧ pool.HasDescriptor serialized id start length := by
  have words : (do
      let start ← Decoder.readUInt32
      let length ← Decoder.readUInt32
      return (start, length) : Decoder ReadError (UInt32 × UInt32)).Reads
      fun words => {Bytes.ofNat 4 words.1.toNat ++ Bytes.ofNat 4 words.2.toNat} := by
    refine (Decoder.reads_readUInt32.bind fun start => Decoder.reads_readUInt32.bind fun length =>
      Decoder.reads_pure (start, length)).congr fun words => ?_
    ext bytes
    simp only [Language.mul_iSup, ← mul_assoc, Language.mem_iSup, mem_mul_provided]
    constructor
    · intro h
      obtain ⟨start, length, rfl, form⟩ := h
      obtain ⟨xs, rfl, ys, rfl, rfl⟩ := Language.mem_mul.1 form
      rfl
    · rintro rfl
      exact ⟨words.1, words.2, rfl, Language.append_mem_mul rfl rfl⟩
  rw [readDescriptor, words.withPosition]
  simp only [mem_spelling, exists_eq_left]
  rw [standsAt_min (by simp [Bytes.ofNat])]
  rfl

theorem slice?_eq_some_iff {bytes part : ByteArray} {start length : Nat} :
    Bytes.slice? bytes start (start + length) = some part ↔
      part.size = length ∧ StandsAt part.data.toList bytes start := by
  unfold Bytes.slice?
  constructor
  · intro found
    split at found
    · next inside =>
      cases found
      refine ⟨?_, standsAt_extract inside.2⟩
      rw [ByteArray.size_extract]
      omega
    · cases found
  · rintro ⟨rfl, stands⟩
    have inside := stands.add_length_le
    have length : part.data.toList.length = part.size := rfl
    rw [length] at inside
    rw [if_pos ⟨by omega, inside⟩, Option.some_inj]
    refine ByteArray.ext (Array.toList_inj.1 ?_)
    refine (standsAt_extract inside).eq_of_length_eq stands ?_
    rw [Array.length_toList, ByteArray.size_data, ByteArray.size_extract, length]
    omega

/-- Reading owned bytes at the clamped offset accepts what is inside the buffer, and nothing at all
wherever it lies. -/
theorem readExactly_eq_ok_iff {offset : Nat} {part : ByteArray} :
    (∃ stop, (Decoder.readExactly length.toNat).runFrom serialized (min offset serialized.size) =
      .ok part stop) ↔
      (if length = 0 then some ByteArray.empty
        else Bytes.slice? serialized offset (offset + length.toNat)) = some part := by
  have reads := Decoder.reads_readExactly length.toNat serialized _
    (Nat.min_le_right offset serialized.size) part
  have taken : (∃ stop, (Decoder.readExactly length.toNat).runFrom serialized
      (min offset serialized.size) = .ok part stop) ↔
      part.size = length.toNat ∧
        StandsAt part.data.toList serialized (min offset serialized.size) := by
    constructor
    · rintro ⟨stop, run⟩
      obtain ⟨_, ⟨rfl, size⟩, stands, -⟩ := (reads stop).1 run
      exact ⟨size, stands⟩
    · rintro ⟨size, stands⟩
      exact ⟨_, (reads _).2 ⟨_, ⟨rfl, size⟩, stands, rfl⟩⟩
  rw [taken]
  by_cases empty : length = 0
  · subst empty
    rw [if_pos rfl, Option.some_inj, @eq_comm _ ByteArray.empty, ← ByteArray.size_eq_zero_iff]
    constructor
    · intro none
      exact none.1
    · intro none
      have nil : part.data.toList = [] := List.length_eq_zero_iff.1 none
      exact ⟨none, by rw [nil]; exact standsAt_nil.2 (Nat.min_le_right _ _)⟩
  · have positive : 0 < length.toNat :=
      Nat.pos_of_ne_zero fun zero => empty (UInt32.toNat_inj.1 zero)
    rw [if_neg empty, slice?_eq_some_iff]
    refine and_congr_right fun size => standsAt_min ?_
    intro nil
    have none : part.size = 0 := List.length_eq_zero_iff.2 nil
    omega

/-- Owned bytes that are missing are no failure yet, and the position is restored either way. -/
theorem outcome_withPosition {offset : Nat} :
    (Except.toOption <$> (Decoder.outcome (Decoder.withPosition offset
      (Decoder.readExactly length.toNat)) : Decoder LoadError _)).runFrom serialized position =
      .ok (if length = 0 then some ByteArray.empty
        else Bytes.slice? serialized offset (offset + length.toNat)) position := by
  have unfolded : (Except.toOption <$> (Decoder.outcome (Decoder.withPosition offset
      (Decoder.readExactly length.toNat)) : Decoder LoadError _)).runFrom serialized position =
      match (Decoder.readExactly length.toNat).runFrom serialized (min offset serialized.size) with
      | .ok part _ => .ok (some part) position
      | .error _ _ => .ok none position := by
    simp only [Decoder.runFrom, Functor.map, Decoder.bind, Decoder.outcome, Decoder.withPosition]
    cases Decoder.readExactly length.toNat serialized (min offset serialized.size) <;> rfl
  rw [unfolded]
  cases run : (Decoder.readExactly length.toNat).runFrom serialized
      (min offset serialized.size) with
  | ok part stop =>
    simp only
    rw [readExactly_eq_ok_iff.1 ⟨stop, run⟩]
  | error error stop =>
    simp only
    congr 1
    refine (Option.eq_none_iff_forall_ne_some.2 fun part found => ?_).symm
    obtain ⟨stop', run'⟩ := readExactly_eq_ok_iff.2 found
    rw [run] at run'
    cases run'

/-- Bytes are read where they are designated, and from whatever position. -/
theorem readBytes?_eq :
    (readBytes? source start length).runFrom serialized position =
      .ok (designated? serialized source start length) position := by
  rw [readBytes?, designated?]
  split
  · rfl
  · exact outcome_withPosition

/-- The text of a constant is read exactly if the encoding is known and the constant spells it. -/
theorem readText_eq_ok_iff :
    (pool.readText source id).runFrom serialized position = .ok text stop ↔
      stop = position ∧ pool.encoding = .utf8 ∧ pool.Spells serialized source id text := by
  rw [readText, Decoder.bind_eq_ok_iff]
  constructor
  · intro h
    obtain ⟨⟨start, length⟩, middle, read, run⟩ := h
    obtain ⟨rfl, described⟩ := readDescriptor_eq_ok_iff.1 ((Decoder.mapError_eq_ok_iff _).1 read)
    obtain ⟨bytes?, middle, taken, run⟩ := Decoder.bind_eq_ok_iff.1 run
    rw [readBytes?_eq] at taken
    cases taken
    cases designated : designated? serialized source start length with
    | none =>
      rw [designated] at run
      cases run
    | some bytes =>
      rw [designated] at run
      cases known : pool.encoding with
      | unsupported name =>
        rw [known] at run
        cases run
      | utf8 =>
        rw [known] at run
        cases decoded : String.fromUTF8? bytes with
        | none =>
          simp only [decoded] at run
          cases run
        | some found =>
          simp only [decoded] at run
          cases run
          obtain rfl := fromUTF8?_eq_some_iff.1 decoded
          exact ⟨rfl, rfl, start, length, described, designated⟩
  · intro h
    obtain ⟨rfl, known, start, length, described, designated⟩ := h
    refine ⟨(start, length), stop, (Decoder.mapError_eq_ok_iff _).2
      (readDescriptor_eq_ok_iff.2 ⟨rfl, described⟩), ?_⟩
    refine Decoder.bind_eq_ok_iff.2 ⟨_, stop, readBytes?_eq, ?_⟩
    rw [designated, known]
    simp only
    rw [fromUTF8?_eq_some_iff.2 rfl]
    rfl

end ConstantPool

end PrismTree
