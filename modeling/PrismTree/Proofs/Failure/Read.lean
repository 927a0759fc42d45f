import PrismTree.Proofs.Wire.Scalar

/-!
# What a failed read tells

A failed read names an offset, and what it says about that offset is true of the buffer: fewer bytes
remain there than were needed, a number that stands there takes more than 32 bits, or the items that
were announced in front of it do not fit behind it. The offset is never in front of the position
where the reading began, and this carries over to readers in sequence, since these only advance.
-/
namespace PrismTree

namespace ReadError

/-- The offset that a failed read names. -/
def offset : ReadError → Nat
  | .truncated offset _ _ => offset
  | .varintOverflow offset => offset
  | .countTooLarge offset _ _ => offset

/-- What a failed read says about a buffer. Five bytes are the size of the largest of the smallest
items. -/
def IsTrueOf (buffer : ByteArray) : ReadError → Prop
  | .truncated offset needed available =>
    offset + available = buffer.size ∧ available < needed
  | .varintOverflow offset =>
    offset + 5 ≤ buffer.size ∧ ∃ front last, StandsAt (front ++ [last]) buffer offset ∧
      front.length = 4 ∧ (∀ byte ∈ front, 0x80 ≤ byte) ∧ 0x0F < last
  | .countTooLarge offset count remaining =>
    offset + remaining = buffer.size ∧ remaining < 5 * count.toNat

theorem IsTrueOf.offset_le {buffer : ByteArray} {error : ReadError}
    (holds : error.IsTrueOf buffer) : error.offset ≤ buffer.size := by
  cases error with
  | truncated offset needed available => exact Nat.le.intro holds.1
  | varintOverflow offset => exact Nat.le_of_add_right_le holds.1
  | countTooLarge offset count remaining => exact Nat.le.intro holds.1

/-- A read that began at a position failed there or later, and tells the truth. -/
def IsMetFrom (buffer : ByteArray) (position : Nat) (error : ReadError) : Prop :=
  position ≤ error.offset ∧ error.IsTrueOf buffer

theorem antitone_isMetFrom (buffer : ByteArray) : Antitone (IsMetFrom buffer) :=
  fun _ _ le _ met => ⟨Nat.le_trans le met.1, met.2⟩

end ReadError

/-- Read a value and forget it. -/
def forget {m : Type → Type} [Functor m] {α : Type} (decoder : m α) : m Unit :=
  (fun _ => ()) <$> decoder

section Repetition

variable {ε σ α : Type}

/-- Items in sequence fail with one of them, behind all earlier ones. -/
theorem readManyFrom_eq_error {item : Nat → EStateM ε σ α} {first count : Nat}
    {state reached : σ} {error : ε}
    (run : readManyFrom item first [] count state = .error error reached) :
    ∃ index values middle, index < count ∧ values.length = index ∧
      readManyFrom item first [] index state = .ok values middle ∧
      item (first + index) middle = .error error reached := by
  induction count generalizing first state with
  | zero => cases run
  | succ count ih =>
    rw [readManyFrom_succ] at run
    cases start : item first state with
    | error error' reached' =>
      simp only [bind, EStateM.bind, start] at run
      cases run
      exact ⟨0, [], state, Nat.succ_pos count, rfl, rfl, start⟩
    | ok value middle =>
      simp only [bind, EStateM.bind, start] at run
      have rest : readManyFrom item (first + 1) [] count middle = .error error reached := by
        simp only [Functor.map, EStateM.map] at run
        split at run
        · cases run
        · next failed =>
          cases run
          exact failed
      obtain ⟨index, values, last, less, rfl, before, failed⟩ := ih rest
      refine ⟨values.length + 1, value :: values, last, Nat.succ_lt_succ less, rfl, ?_, ?_⟩
      · rw [readManyFrom_succ]
        simp only [bind, EStateM.bind, start, Functor.map, EStateM.map, before]
      · rw [← failed, Nat.add_right_comm]
        rfl

end Repetition

namespace Decoder

variable {ε ε' α β : Type} {buffer : ByteArray}

section Errors

variable {decoder : Decoder ε α} {position stop : Nat}

theorem bind_eq_error_iff {next : α → Decoder ε β} {error : ε} :
    (decoder >>= next).runFrom buffer position = .error error stop ↔
      decoder.runFrom buffer position = .error error stop ∨
        ∃ value middle, decoder.runFrom buffer position = .ok value middle ∧
          (next value).runFrom buffer middle = .error error stop := by
  rw [runFrom_bind]
  cases decoder.runFrom buffer position <;> simp

theorem map_eq_error_iff {f : α → β} {error : ε} :
    (f <$> decoder).runFrom buffer position = .error error stop ↔
      decoder.runFrom buffer position = .error error stop := by
  rw [map_eq_pure_bind, bind_eq_error_iff]
  refine or_iff_left ?_
  rintro ⟨value, middle, -, run⟩
  cases run

theorem mapError_eq_error_iff {f : ε → ε'} {error : ε'} :
    (decoder.mapError f).runFrom buffer position = .error error stop ↔
      ∃ error', decoder.runFrom buffer position = .error error' stop ∧ error = f error' := by
  rw [runFrom_mapError]
  cases decoder.runFrom buffer position with
  | ok value middle => simp
  | error error' stop' =>
    simp only [EStateM.Result.error.injEq]
    constructor
    · rintro ⟨rfl, rfl⟩
      exact ⟨error', ⟨rfl, rfl⟩, rfl⟩
    · intro h
      obtain ⟨_, ⟨rfl, rfl⟩, rfl⟩ := h
      exact ⟨rfl, rfl⟩

theorem readManyFrom_apply (item : Nat → Decoder ε α) (first : Nat) (read : List α) (count : Nat)
    (buffer : ByteArray) :
    readManyFrom item first read count buffer =
      readManyFrom (m := EStateM ε Nat) (fun index => item index buffer) first read count := by
  induction count generalizing first read with
  | zero => rfl
  | succ count ih =>
    funext position
    simp only [readManyFrom, bind, Decoder.bind, EStateM.bind, ih]
    cases item first buffer position <;> rfl

theorem readMany_eq_error {item : Nat → Decoder ε α} {count : Nat} {buffer : ByteArray}
    {position stop : Nat} {error : ε}
    (run : (readMany count item).runFrom buffer position = .error error stop) :
    ∃ index values middle, index < count ∧ values.length = index ∧
      (readMany index item).runFrom buffer position = .ok values middle ∧
      (item index).runFrom buffer middle = .error error stop := by
  simp only [runFrom, readMany, readManyFrom_apply] at run ⊢
  obtain ⟨index, values, middle, less, length, before, failed⟩ := readManyFrom_eq_error run
  rw [Nat.zero_add] at failed
  exact ⟨index, values, middle, less, length, before, failed⟩

end Errors

/-- A decoder that succeeds ends inside the buffer, and not in front of where it began. -/
def Advances (buffer : ByteArray) (decoder : Decoder ε α) : Prop :=
  ∀ position value stop, position ≤ buffer.size →
    decoder.runFrom buffer position = .ok value stop → position ≤ stop ∧ stop ≤ buffer.size

theorem Reads.advances {decoder : Decoder ε α} {forms : α → Language UInt8}
    (reads : decoder.Reads forms) : decoder.Advances buffer := by
  intro position value stop inside run
  obtain ⟨bytes, -, stands, rfl⟩ := (reads buffer position inside value stop).1 run
  exact ⟨Nat.le_add_right _ _, stands.add_length_le⟩

theorem Announces.advances {decoder : Decoder ε Nat} {least minSize : Nat}
    (announces : decoder.Announces least minSize) : decoder.Advances buffer := by
  intro position value stop inside run
  obtain ⟨-, -, bytes, -, stands, rfl⟩ := (announces buffer position inside value stop).1 run
  exact ⟨Nat.le_add_right _ _, stands.add_length_le⟩

section Advancing

variable {decoder : Decoder ε α}

theorem advances_pure (value : α) : (pure value : Decoder ε α).Advances buffer := by
  intro position value' stop inside run
  cases run
  exact ⟨Nat.le_refl _, inside⟩

theorem Advances.bind {next : α → Decoder ε β} (first : decoder.Advances buffer)
    (second : ∀ value, (next value).Advances buffer) : (decoder >>= next).Advances buffer := by
  intro position result stop inside run
  obtain ⟨value, middle, start, run⟩ := bind_eq_ok_iff.1 run
  obtain ⟨le, inside'⟩ := first position value middle inside start
  obtain ⟨le', inside''⟩ := second value middle result stop inside' run
  exact ⟨Nat.le_trans le le', inside''⟩

theorem Advances.map (f : α → β) (advances : decoder.Advances buffer) :
    (f <$> decoder).Advances buffer := by
  rw [map_eq_pure_bind]
  exact advances.bind fun value => advances_pure (f value)

theorem Advances.mapError (f : ε → ε') (advances : decoder.Advances buffer) :
    (decoder.mapError f).Advances buffer := fun position value stop inside run =>
  advances position value stop inside ((mapError_eq_ok_iff f).1 run)

theorem Advances.readMany {item : Nat → Decoder ε α}
    (advances : ∀ index, (item index).Advances buffer) (count : Nat) :
    (PrismTree.readMany count item).Advances buffer :=
  @readMany_related (Decoder ε) _ α item item (fun decoder _ => decoder.Advances buffer)
    (fun values => advances_pure values) (fun index _ _ rest => (advances index).bind rest) count

end Advancing

/-- Wherever a decoder begins in a buffer, if it fails, then in this way. -/
def FailsOnly (buffer : ByteArray) (failure : Nat → ε → Prop) (decoder : Decoder ε α) : Prop :=
  ∀ position error stop, position ≤ buffer.size →
    decoder.runFrom buffer position = .error error stop → failure position error

section Rules

variable {failure : Nat → ε → Prop} {decoder : Decoder ε α}

theorem failsOnly_pure (value : α) : (pure value : Decoder ε α).FailsOnly buffer failure := by
  intro position error stop _ run
  cases run

theorem failsOnly_throw {error : ε} (holds : ∀ position ≤ buffer.size, failure position error) :
    (Decoder.throw error : Decoder ε α).FailsOnly buffer failure := by
  intro position error' stop inside run
  cases run
  exact holds position inside

/-- What fails later may fail earlier, so decoders in sequence fail like each of them. -/
theorem FailsOnly.bind {next : α → Decoder ε β} (earlier : Antitone failure)
    (first : decoder.FailsOnly buffer failure) (advances : decoder.Advances buffer)
    (second : ∀ value, (next value).FailsOnly buffer failure) :
    (decoder >>= next).FailsOnly buffer failure := by
  intro position error stop inside run
  obtain failed | ⟨value, middle, start, run⟩ := bind_eq_error_iff.1 run
  · exact first position error stop inside failed
  · obtain ⟨le, inside'⟩ := advances position value middle inside start
    exact earlier le error (second value middle error stop inside' run)

theorem FailsOnly.map (f : α → β) (first : decoder.FailsOnly buffer failure) :
    (f <$> decoder).FailsOnly buffer failure := fun position error stop inside run =>
  first position error stop inside (map_eq_error_iff.1 run)

theorem FailsOnly.ite {decoder' : Decoder ε α} {p : Prop} [Decidable p]
    (whenTrue : p → decoder.FailsOnly buffer failure)
    (whenFalse : ¬p → decoder'.FailsOnly buffer failure) :
    (if p then decoder else decoder').FailsOnly buffer failure := by
  by_cases holds : p
  · rw [if_pos holds]
    exact whenTrue holds
  · rw [if_neg holds]
    exact whenFalse holds

/-- How each item fails tells how many of them fail. -/
theorem FailsOnly.readMany {item : Nat → Decoder ε α} (earlier : Antitone failure)
    (each : ∀ index, (item index).FailsOnly buffer failure)
    (advances : ∀ index, (item index).Advances buffer) (count : Nat) :
    (PrismTree.readMany count item).FailsOnly buffer failure :=
  @readMany_related (Decoder ε) _ α item item (fun decoder _ => decoder.FailsOnly buffer failure)
    (fun values => failsOnly_pure values)
    (fun index _ _ rest => (each index).bind earlier (advances index) rest) count

theorem FailsOnly.mapError {failure' : Nat → ε' → Prop} {f : ε → ε'}
    (first : decoder.FailsOnly buffer failure)
    (worded : ∀ position error, failure position error → failure' position (f error)) :
    (decoder.mapError f).FailsOnly buffer failure' := by
  intro position error stop inside run
  obtain ⟨error', failed, rfl⟩ := mapError_eq_error_iff.1 run
  exact worded position error' (first position error' stop inside failed)

end Rules

/-- Every failure is true and not in front of where the reading began. -/
def FailsTruly (buffer : ByteArray) (decoder : Decoder ReadError α) : Prop :=
  decoder.FailsOnly buffer (ReadError.IsMetFrom buffer)

theorem FailsTruly.bind {decoder : Decoder ReadError α} {next : α → Decoder ReadError β}
    (first : decoder.FailsTruly buffer) (advances : decoder.Advances buffer)
    (second : ∀ value, (next value).FailsTruly buffer) : (decoder >>= next).FailsTruly buffer :=
  FailsOnly.bind (ReadError.antitone_isMetFrom buffer) first advances second

theorem readByte_eq_error_iff {position stop : Nat} {error : ReadError} :
    readByte.runFrom buffer position = .error error stop ↔
      buffer.size ≤ position ∧ error = .truncated position 1 0 ∧ stop = position := by
  have missing : buffer[position]? = none ↔ buffer.size ≤ position := by
    rw [getElem?_eq_none_iff]
    exact Nat.not_lt
  rw [runFrom_readByte, ← missing]
  cases buffer[position]? with
  | some byte => simp
  | none => simp [eq_comm]

theorem failsTruly_readByte : readByte.FailsTruly buffer := by
  intro position error stop inside run
  obtain ⟨outside, rfl, -⟩ := readByte_eq_error_iff.1 run
  exact ⟨Nat.le_refl _, Nat.le_antisymm inside outside, by decide⟩

theorem failsTruly_readExactly (count : Nat) : (readExactly count).FailsTruly buffer := by
  intro position error stop inside run
  rw [runFrom_readExactly] at run
  split at run
  · next short =>
    cases run
    exact ⟨Nat.le_refl _, by omega, short⟩
  · cases run

theorem failsTruly_readWord (width : Nat) : (readWord width).FailsTruly buffer :=
  (failsTruly_readExactly width).map _

theorem failsTruly_readUInt32 : readUInt32.FailsTruly buffer :=
  (failsTruly_readWord 4).map _

theorem failsTruly_readDouble : readDouble.FailsTruly buffer :=
  (failsTruly_readWord 8).map _

/-- The groups of a number fail at the end of the buffer, or behind as many bytes with the high bit
set as there may be. -/
theorem readGroups_eq_error {start more position stop : Nat} {error : ReadError}
    (inside : position ≤ buffer.size)
    (run : (Varint.readGroups start more).runFrom buffer position = .error error stop) :
    ReadError.IsMetFrom buffer position error ∨
      error = .varintOverflow start ∧ ∃ front last, StandsAt (front ++ [last]) buffer position ∧
        front.length = more ∧ (∀ byte ∈ front, 0x80 ≤ byte) ∧ 0x0F < last := by
  induction more generalizing position with
  | zero =>
    obtain failed | ⟨byte, middle, read, run⟩ := bind_eq_error_iff.1 run
    · exact Or.inl (failsTruly_readByte position error stop inside failed)
    · obtain ⟨stands, rfl⟩ := readByte_eq_ok_iff.1 read
      split at run
      · cases run
      · next large =>
        cases run
        exact Or.inr ⟨rfl, [], byte, stands, rfl, by simp, UInt8.not_le.1 large⟩
  | succ more ih =>
    obtain failed | ⟨byte, middle, read, run⟩ := bind_eq_error_iff.1 run
    · exact Or.inl (failsTruly_readByte position error stop inside failed)
    · obtain ⟨stands, rfl⟩ := readByte_eq_ok_iff.1 read
      split at run
      · cases run
      · next continues =>
        have groups := (map_eq_error_iff (f := fun rest => byte.toNat % 128 + 128 * rest)).1 run
        obtain met | ⟨rfl, front, last, behind, length, high, large⟩ :=
          ih stands.add_length_le groups
        · exact Or.inl (ReadError.antitone_isMetFrom buffer (Nat.le_succ _) error met)
        · refine Or.inr ⟨rfl, byte :: front, last, standsAt_cons.2 ⟨stands, behind⟩, ?_, ?_,
            large⟩
          · rw [List.length_cons, length]
          · exact List.forall_mem_cons.2 ⟨UInt8.not_lt.1 continues, high⟩

theorem failsTruly_readVarint : readVarint.FailsTruly buffer := by
  intro position error stop inside run
  have groups : (Varint.readGroups position 4).runFrom buffer position = .error error stop :=
    (map_eq_error_iff (f := UInt32.ofNat)).1 run
  obtain met | ⟨rfl, front, last, stands, length, overflows⟩ := readGroups_eq_error inside groups
  · exact met
  · have fits := stands.add_length_le
    rw [List.length_append, length] at fits
    exact ⟨Nat.le_refl _, fits, front, last, stands, length, overflows⟩

theorem failsTruly_readSignedVarint : readSignedVarint.FailsTruly buffer :=
  failsTruly_readVarint.map _

theorem failsTruly_readLocation : readLocation.FailsTruly buffer :=
  failsTruly_readVarint.bind reads_readVarint.advances fun _ =>
    failsTruly_readVarint.bind reads_readVarint.advances fun _ =>
      failsOnly_pure _

theorem failsTruly_readOptionalLocation : readOptionalLocation.FailsTruly buffer :=
  failsTruly_readByte.bind reads_readByte.advances fun _ =>
    .ite (fun _ => failsOnly_pure _) fun _ => failsTruly_readLocation.map _

theorem failsTruly_readEmbedded : readEmbedded.FailsTruly buffer :=
  failsTruly_readVarint.bind reads_readVarint.advances fun length =>
    failsTruly_readExactly length.toNat

theorem failsTruly_ensureCount (count : UInt32) {minSize : Nat} (small : minSize ≤ 5) :
    (ensureCount count minSize).FailsTruly buffer := by
  intro position error stop inside run
  rw [runFrom_ensureCount] at run
  split at run
  · next short =>
    cases run
    have most := Nat.mul_le_mul_left count.toNat small
    exact ⟨Nat.le_refl _, by omega, by omega⟩
  · cases run

theorem failsTruly_readCount {minSize : Nat} (small : minSize ≤ 5) :
    (readCount minSize).FailsTruly buffer :=
  failsTruly_readVarint.bind reads_readVarint.advances fun count =>
    failsTruly_ensureCount count small

end Decoder

end PrismTree
