import PrismTree.Proofs.Constants.Bounds

/-!
# Slices of the source

Three things are ranges of the source: a location, a quoted string, and a constant that the source
spells. The end of a location saturates in 32 bits, the ends of the others are exact sums. A source
that is shorter than the saturated end has nothing there, so a range that saturates is refused like
any other that reaches outside, and all three take the same bytes of the same ranges. In a longer
source a range that saturates is cut short.
-/
namespace PrismTree

theorem Bytes.slice?_eq_some_iff {bytes part : ByteArray} {start stop : Nat} :
    slice? bytes start stop = some part ↔
      start ≤ stop ∧ stop ≤ bytes.size ∧ part = bytes.extract start stop := by
  unfold slice?
  split
  case isTrue inside => simp [inside.1, inside.2, eq_comm]
  case isFalse outside =>
    refine ⟨fun found => (by cases found), fun parts => ?_⟩
    exact absurd ⟨parts.1, parts.2.1⟩ outside

theorem Location.stop_eq_of_saturated {location : Location}
    (saturated : 0xFFFFFFFF < location.start.toNat + location.length.toNat) :
    location.stop = 0xFFFFFFFF := by
  rw [stop]
  omega

namespace Source

variable {source : Source} {location : Location} {bytes : ByteArray}

/-- The bytes of a range that lies inside the source. The end of the range is the exact sum. -/
def HasRange (source : Source) (location : Location) (bytes : ByteArray) : Prop :=
  location.start.toNat + location.length.toNat ≤ source.bytes.size ∧
    bytes = source.bytes.extract location.start.toNat
      (location.start.toNat + location.length.toNat)

theorem hasRange_iff :
    source.HasRange location bytes ↔
      Bytes.slice? source.bytes location.start.toNat
        (location.start.toNat + location.length.toNat) = some bytes := by
  rw [HasRange, Bytes.slice?_eq_some_iff]
  simp

theorem HasRange.size (range : source.HasRange location bytes) :
    bytes.size = location.length.toNat := by
  have size := Bytes.size_of_slice? (hasRange_iff.1 range)
  omega

/-- Saturation does not matter where the source ends before the saturated end. -/
theorem slice?_eq_of_short (short : source.bytes.size < 2 ^ 32 - 1) :
    source.slice? location = Bytes.slice? source.bytes location.start.toNat
      (location.start.toNat + location.length.toNat) := by
  by_cases fits : location.start.toNat + location.length.toNat ≤ 0xFFFFFFFF
  · rw [slice?, location.stop_eq fits]
  · -- Both ends lie behind the end of the source.
    rw [slice?, Location.stop_eq_of_saturated (Nat.not_le.1 fits), Bytes.slice?, Bytes.slice?,
      if_neg (by omega), if_neg (by omega)]

/-- In a source that reaches the saturated end, a range that saturates is not refused but cut short
there. -/
theorem exists_slice?_of_saturated (long : 2 ^ 32 - 1 ≤ source.bytes.size)
    (saturated : 2 ^ 32 - 1 < location.start.toNat + location.length.toNat) :
    ∃ bytes, source.slice? location = some bytes ∧ bytes.size < location.length.toNat := by
  have ordered := location.start_le_stop
  rw [Location.stop_eq_of_saturated saturated] at ordered
  have taken : source.slice? location =
      some (source.bytes.extract location.start.toNat (2 ^ 32 - 1)) := by
    rw [slice?, Location.stop_eq_of_saturated saturated, Bytes.slice?_eq_some_iff]
    exact ⟨ordered, long, rfl⟩
  refine ⟨_, taken, ?_⟩
  have size := Bytes.size_of_slice? taken
  rw [Location.stop_eq_of_saturated saturated] at size
  omega

end Source

namespace Decoder

variable {source serialized : ByteArray} {location : Location} {position : Nat}
  {form : List UInt8}

/-- What a quoted string comes to, in whatever form its range is written. -/
theorem readString_of_quoted (written : form ∈ Wire.location Varint.forms location)
    (stands : StandsAt (1 :: form) serialized position) :
    (readString source).runFrom serialized position =
      match Bytes.slice? source location.start.toNat
        (location.start.toNat + location.length.toNat) with
      | some bytes => .ok ⟨bytes⟩ (position + 1 + form.length)
      | none => .error
          (.ofCause (.sourceSliceOutOfBounds location.start location.length source.size))
          (position + 1 + form.length) := by
  obtain ⟨tag, range⟩ := standsAt_cons.1 stands
  have tagged : (liftM readByte : Decoder LoadError UInt8).runFrom serialized position =
      .ok 1 (position + 1) :=
    (reads_readByte.lift serialized position tag.1 1 (position + 1)).2 ⟨[1], rfl, tag, rfl⟩
  have located : (liftM readLocation : Decoder LoadError Location).runFrom serialized
      (position + 1) = .ok location (position + 1 + form.length) :=
    (reads_readLocation.lift serialized (position + 1) range.1 _ _).2 ⟨form, written, range, rfl⟩
  rw [readString, runFrom_bind, tagged]
  simp only [if_true]
  rw [runFrom_bind, located]
  simp only
  cases Bytes.slice? source location.start.toNat
    (location.start.toNat + location.length.toNat) <;> rfl

end Decoder

namespace ConstantPool

variable {serialized source : ByteArray} {start length : UInt32}

theorem designated?_of_quoted (quoted : start.toNat < ownedBit) :
    designated? serialized source start length =
      Bytes.slice? source start.toNat (start.toNat + length.toNat) :=
  if_pos quoted

theorem decode_eq_invalidUtf8_iff {id : ConstantId} {bytes? : Option ByteArray} :
    decode .utf8 id start length bytes? = .error (.invalidUtf8 "constant") ↔
      ∃ bytes, bytes? = some bytes ∧ ∀ text : String, bytes ≠ text.toUTF8 := by
  cases bytes? with
  | none => simp [decode]
  | some bytes =>
    simp only [decode, Option.some_inj, exists_eq_left', ← fromUTF8?_eq_some_iff, Ne]
    cases String.fromUTF8? bytes <;> simp

end ConstantPool

/-- Locations, quoted strings and constants agree on the ranges of a source that is shorter than the
saturated end: each gives the bytes of the exact range, and is refused if this range does not lie
inside the source. -/
theorem slices_agree {source : Source} (short : source.bytes.size < 2 ^ 32 - 1)
    (location : Location) :
    (∀ bytes, source.slice? location = some bytes ↔ source.HasRange location bytes) ∧
    (∀ bytes, source.slice? location = some bytes → bytes.size = location.length.toNat) ∧
    (∀ (serialized : ByteArray) (position : Nat),
      ∀ form ∈ Wire.location Varint.forms location, StandsAt (1 :: form) serialized position →
        let stop := position + 1 + form.length
        let read := (Decoder.readString source.bytes).runFrom serialized position
        (∀ bytes, read = .ok ⟨bytes⟩ stop ↔ source.HasRange location bytes) ∧
        (read = .error (.ofCause (.sourceSliceOutOfBounds location.start location.length
            source.bytes.size)) stop ↔ source.slice? location = none)) ∧
    (location.start.toNat < 2 ^ 31 →
      (∀ (serialized : ByteArray) (position : Nat),
        let read := (ConstantPool.readBytes? source.bytes location.start
          location.length).runFrom serialized position
        (∀ bytes, read = .ok (some bytes) position ↔ source.HasRange location bytes) ∧
        (read = .ok none position ↔ source.slice? location = none)) ∧
      ∀ (encoding : Encoding) (header : PoolHeader) (serialized : ByteArray)
        (fresh : ConstantPool),
        ConstantPool.ofHeader encoding serialized.size header = .ok fresh →
        ∀ (options : LoadOptions) (first : TreeState), first.pool = fresh →
        ∀ (calls : List (Nat × UInt32)) (position : Nat) (index : UInt32) (id : ConstantId),
        fresh.id? index = some id →
        fresh.HasDescriptor serialized id location.start location.length →
          let input : TreeInput := ⟨serialized, source.bytes, options⟩
          let before := (first.afterCalls input calls).moveTo position
          let value := (TreeDecoder.resolveConstant index).value input before
          let after := (TreeDecoder.resolveConstant index).after input before
          (value = .error (.ofCause (.constantOutOfBounds index location.start
            location.length)) ↔ source.slice? location = none) ∧
          (encoding = .utf8 →
            (∀ text : String, value = .ok id ∧ after.pool.kept? id = some text ↔
              source.HasRange location text.toUTF8) ∧
            (value = .error (.ofCause (.invalidUtf8 "constant")) ↔
              ∃ bytes, source.HasRange location bytes ∧
                ∀ text : String, bytes ≠ text.toUTF8))) := by
  have sliced : ∀ bytes, source.slice? location = some bytes ↔ source.HasRange location bytes := by
    intro bytes
    rw [Source.slice?_eq_of_short short, Source.hasRange_iff]
  refine ⟨sliced, fun bytes found => ((sliced bytes).1 found).size, ?_, fun quoted => ?_⟩
  · intro serialized position form written stands stop read
    have reads : read = _ := Decoder.readString_of_quoted written stands
    simp only [Source.hasRange_iff, Source.slice?_eq_of_short short, reads]
    cases Bytes.slice? source.bytes location.start.toNat
      (location.start.toNat + location.length.toNat) <;> simp [stop]
  have designated : ∀ serialized,
      ConstantPool.designated? serialized source.bytes location.start location.length =
        Bytes.slice? source.bytes location.start.toNat
          (location.start.toNat + location.length.toNat) :=
    fun _ => ConstantPool.designated?_of_quoted quoted
  constructor
  · intro serialized position read
    have reads : read = _ := ConstantPool.readBytes?_eq
    simp only [Source.hasRange_iff, Source.slice?_eq_of_short short, reads, designated]
    simp
  · intro encoding header serialized fresh placed options first unused calls position index id
      found described input before value after
    obtain ⟨rfl, inside, memo⟩ :=
      TreeState.memoises_of_placed input placed unused calls position
    have told : value = _ := memo.value_of_some found described
    have keeps : ∀ text, value = .ok id ∧ after.pool.kept? id = some text ↔ _ :=
      fun text => memo.keeps_iff inside found described text
    obtain ⟨same, -⟩ := ConstantPool.id?_eq_some_iff.1 found
    refine ⟨?_, fun known => ⟨fun text => ?_, ?_⟩⟩
    · rw [told, ← same, LoadError.mapError_eq_ofCause_iff, ConstantPool.decode_eq_outOfBounds_iff,
        Source.slice?_eq_of_short short, designated]
    · rw [keeps text, ConstantPool.decode_eq_ok_iff, designated, Source.hasRange_iff]
      exact and_iff_right known
    · rw [told, known, LoadError.mapError_eq_ofCause_iff, ConstantPool.decode_eq_invalidUtf8_iff,
        designated]
      simp only [Source.hasRange_iff]

/-- The whole text as a location, as a string whose start is padded, and as the first of three
constants, after a call for another one; a range that saturates is refused. -/
theorem slices_agree_threeConstants :
    let source : Source := { bytes := ⟨#[102, 111, 111]⟩ }
    let input : TreeInput := ⟨threeConstants, source.bytes, {}⟩
    let first : TreeState := ⟨0, .fresh .utf8 ⟨0, 3⟩, #[]⟩
    let before := (first.afterCalls input [(4, 3)]).moveTo 7
    source.bytes.size < 2 ^ 32 - 1 ∧
      source.slice? ⟨0, 3⟩ = some source.bytes ∧
      (Decoder.readString source.bytes).runFrom ⟨#[1, 0x80, 0, 3]⟩ 0 = .ok ⟨source.bytes⟩ 4 ∧
      (TreeDecoder.resolveConstant 1).value input before = .ok ⟨1, by decide⟩ ∧
      ((TreeDecoder.resolveConstant 1).after input before).pool.kept? ⟨1, by decide⟩ =
        some "foo" ∧
      source.slice? ⟨0xFFFFFFFF, 5⟩ = none := by
  intro source input first before
  have short : source.bytes.size < 2 ^ 32 - 1 := by decide
  have whole : source.HasRange ⟨0, 3⟩ source.bytes := by
    unfold Source.HasRange
    decide
  have text : source.bytes = "foo".toUTF8 := by decide +kernel
  have padded : [0x80, 0] ∈ Varint.forms 0 :=
    ⟨⟨by decide, show (0 : UInt8) < 0x80 by decide⟩, by decide, by decide⟩
  have three : [3] ∈ Varint.forms 3 := ⟨show (3 : UInt8) < 0x80 by decide, by decide, by decide⟩
  have written : [0x80, 0, 3] ∈ Wire.location Varint.forms ⟨0, 3⟩ :=
    Language.append_mem_mul padded three
  have stands : StandsAt [1, 0x80, 0, 3] ⟨#[1, 0x80, 0, 3]⟩ 0 := ⟨by decide, ⟨[], rfl⟩⟩
  have placed : ConstantPool.ofHeader .utf8 threeConstants.size ⟨0, 3⟩ = .ok first.pool := by
    rw [ConstantPool.ofHeader_eq_ok_iff]
    exact ⟨rfl, by decide⟩
  have found : first.pool.id? 1 = some ⟨1, by decide⟩ := by decide +kernel
  have described : first.pool.HasDescriptor threeConstants ⟨1, by decide⟩ 0 3 :=
    ⟨by decide, ⟨_, rfl⟩⟩
  obtain ⟨sliced, -, string, constant⟩ := slices_agree short ⟨0, 3⟩
  obtain ⟨-, kept⟩ := (constant (by decide)).2 .utf8 ⟨0, 3⟩ threeConstants first.pool placed {}
    first rfl [(4, 3)] 7 1 ⟨1, by decide⟩ found described
  have resolved := (kept rfl).1 "foo"
  exact ⟨short, (sliced _).2 whole, ((string _ 0 _ written stands).1 _).2 whole,
    (resolved.2 (text ▸ whole)).1, (resolved.2 (text ▸ whole)).2, by decide⟩

end PrismTree
