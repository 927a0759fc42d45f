import PrismTree.Proofs.Failure.Cause

/-!
# Failures in a datum

A datum fails because its bytes cannot be read or because a constant cannot be resolved. The second
happens away from the position, but whatever the pool has kept so far, it has the size, the encoding
and the table that the preamble declares, so what the failure tells is true all the same.
-/
namespace PrismTree

/-- The pool that the preamble of an input declares, with nothing resolved. -/
structure TreeInput.Declares (input : TreeInput) (pool : ConstantPool) : Prop where
  preamble : ∃ preamble stop, Decoder.readPreamble.runFrom input.serialized 0 = .ok preamble stop ∧
    pool = .fresh preamble.heading.encoding preamble.pool
  inside : pool.IsInside input.serialized

namespace TreeDecoder

open TreeState

variable {α β : Type} {input : TreeInput} {pool : ConstantPool} {state reached : TreeState}

section Errors

variable {decoder : TreeDecoder α} {error : LoadError}

theorem bind_eq_error_iff {next : α → TreeDecoder β} :
    (decoder >>= next) input state = .error error reached ↔
      decoder input state = .error error reached ∨
        ∃ value middle, decoder input state = .ok value middle ∧
          next value input middle = .error error reached := by
  rw [bind_apply]
  cases decoder input state <;> simp

theorem map_eq_error_iff {f : α → β} :
    (f <$> decoder) input state = .error error reached ↔
      decoder input state = .error error reached := by
  rw [map_eq_pure_bind, bind_eq_error_iff]
  refine or_iff_left ?_
  rintro ⟨value, middle, -, run⟩
  cases run

theorem liftM_eq_error_iff {decoder : Decoder LoadError α} :
    (liftM decoder : TreeDecoder α) input state = .error error reached ↔
      ∃ stop, decoder.runFrom input.serialized state.position = .error error stop ∧
        reached = state.moveTo stop := by
  rw [liftM_apply]
  cases decoder.runFrom input.serialized state.position with
  | ok value stop => simp
  | error error' stop =>
    simp only [EStateM.Result.error.injEq]
    constructor
    · rintro ⟨rfl, rfl⟩
      exact ⟨stop, ⟨rfl, rfl⟩, rfl⟩
    · intro h
      obtain ⟨stop, ⟨rfl, rfl⟩, rfl⟩ := h
      exact ⟨rfl, rfl⟩

theorem inField_eq_error_iff {kind : Kind} {field : String} :
    inField kind field decoder input state = .error error reached ↔
      ∃ inner, decoder input state = .error inner reached ∧
        error = inner.within (.inField kind field state.position) := by
  rw [inField_apply]
  cases decoder input state with
  | ok value reached => simp
  | error inner reached =>
    simp only [EStateM.Result.error.injEq]
    constructor
    · rintro ⟨rfl, rfl⟩
      exact ⟨inner, ⟨rfl, rfl⟩, rfl⟩
    · intro h
      obtain ⟨_, ⟨rfl, rfl⟩, rfl⟩ := h
      exact ⟨rfl, rfl⟩

theorem readManyFrom_apply (item : Nat → TreeDecoder α) (first : Nat) (read : List α) (count : Nat)
    (input : TreeInput) :
    readManyFrom item first read count input =
      readManyFrom (m := EStateM LoadError TreeState) (fun index => item index input) first read
        count := by
  induction count generalizing first read with
  | zero => rfl
  | succ count ih =>
    funext state
    simp only [readManyFrom, bind, TreeDecoder.bind, EStateM.bind, ih]
    cases item first input state <;> rfl

theorem readMany_eq_error {item : Nat → TreeDecoder α} {count : Nat} {input : TreeInput}
    {state reached : TreeState} {error : LoadError}
    (run : readMany count item input state = .error error reached) :
    ∃ index values middle, index < count ∧ values.length = index ∧
      readMany index item input state = .ok values middle ∧
      item index input middle = .error error reached := by
  simp only [readMany, readManyFrom_apply] at run ⊢
  obtain ⟨index, values, middle, less, length, before, failed⟩ := readManyFrom_eq_error run
  rw [Nat.zero_add] at failed
  exact ⟨index, values, middle, less, length, before, failed⟩

end Errors

/-- A tree decoder that succeeds ends inside the buffer, not in front of where it began, and leaves
all of the pool but the texts that it keeps. -/
def Advances (input : TreeInput) (decoder : TreeDecoder α) : Prop :=
  ∀ state value reached, state.position ≤ input.serialized.size →
    decoder input state = .ok value reached → state.position ≤ reached.position ∧
      reached.position ≤ input.serialized.size ∧ SamePool state.pool reached.pool

theorem Reads.advances {decoder : TreeDecoder α} {forms : α → Language UInt8}
    {references : α → List ConstantId} (reads : decoder.Reads input forms references) :
    decoder.Advances input := by
  intro state value reached inside run
  obtain ⟨bytes, -, stands, after, follows, rfl⟩ := (reads state inside value reached).1 run
  have same : SamePool state.pool after.pool := samePool_of_referAll? follows
  exact ⟨Nat.le_add_right _ _, stands.add_length_le, same⟩

/-- Wherever a tree decoder begins, with a pool that has resolved constants of the given one, each
failure is true, not in front of where it began, and not marked yet. -/
def FailsPlainly (input : TreeInput) (pool : ConstantPool) (decoder : TreeDecoder α) : Prop :=
  ∀ state error reached, state.position ≤ input.serialized.size → SamePool pool state.pool →
    decoder input state = .error error reached → error.IsPlainFrom input state.position

section Rules

variable {decoder : TreeDecoder α}

theorem failsPlainly_pure (value : α) : (pure value : TreeDecoder α).FailsPlainly input pool := by
  intro state error reached _ _ run
  cases run

theorem FailsPlainly.bind {next : α → TreeDecoder β} (first : decoder.FailsPlainly input pool)
    (advances : decoder.Advances input)
    (second : ∀ value, (next value).FailsPlainly input pool) :
    (decoder >>= next).FailsPlainly input pool := by
  intro state error reached inside same run
  obtain failed | ⟨value, middle, start, run⟩ := bind_eq_error_iff.1 run
  · exact first state error reached inside same failed
  · obtain ⟨le, inside', same'⟩ := advances state value middle inside start
    exact LoadError.antitone_isPlainFrom input le error
      (second value middle error reached inside' (same.trans same') run)

theorem FailsPlainly.map (f : α → β) (first : decoder.FailsPlainly input pool) :
    (f <$> decoder).FailsPlainly input pool := fun state error reached inside same run =>
  first state error reached inside same (map_eq_error_iff.1 run)

theorem FailsPlainly.readMany {item : Nat → TreeDecoder α}
    (each : ∀ index, (item index).FailsPlainly input pool)
    (advances : ∀ index, (item index).Advances input) (count : Nat) :
    (PrismTree.readMany count item).FailsPlainly input pool :=
  @readMany_related TreeDecoder _ α item item (fun decoder _ => decoder.FailsPlainly input pool)
    (fun values => failsPlainly_pure values)
    (fun index _ _ rest => (each index).bind (advances index) rest) count

theorem failsPlainly_liftM {decoder : Decoder LoadError α} (plainly : decoder.FailsPlainly input) :
    (liftM decoder : TreeDecoder α).FailsPlainly input pool := by
  intro state error reached inside _ run
  obtain ⟨stop, failed, rfl⟩ := liftM_eq_error_iff.1 run
  exact plainly state.position error stop inside failed

theorem advances_liftM {decoder : Decoder LoadError α}
    (advances : decoder.Advances input.serialized) :
    (liftM decoder : TreeDecoder α).Advances input := by
  intro state value reached inside run
  obtain ⟨stop, read, rfl⟩ := liftM_eq_ok_iff.1 run
  obtain ⟨le, inside'⟩ := advances state.position value stop inside read
  exact ⟨le, inside', .refl _⟩

end Rules

/-- A reference fails because there is no constant with its index, or because its text cannot be
had. -/
theorem failsPlainly_resolveConstant (declared : input.Declares pool)
    (index : UInt32) : (resolveConstant index).FailsPlainly input pool := by
  intro state error reached inside same run
  obtain ⟨preamble, stop, read, rfl⟩ := declared.preamble
  have room : state.pool.IsInside input.serialized := by
    rw [ConstantPool.IsInside, same.size, same.tableOffset]
    exact declared.inside
  cases found : state.pool.id? index with
  | none =>
    rw [resolveConstant_of_none found] at run
    cases run
    refine ⟨rfl, ConstantPool.id?_eq_none_iff.1 found, preamble, stop, read, ?_⟩
    rw [same.size, ConstantPool.size_fresh]
  | some id =>
    obtain ⟨known, listed⟩ := ConstantPool.id?_eq_some_iff.1 found
    obtain ⟨start, length, described⟩ := room.exists_descriptor listed
    cases kept : state.pool.kept? id with
    | some text =>
      rw [resolveConstant_of_kept found kept] at run
      cases run
    | none =>
      rw [resolveConstant_of_missing found described kept] at run
      cases decoded : ConstantPool.decode state.pool.encoding id start length
          (ConstantPool.designated? input.serialized input.source start length) with
      | ok text =>
        rw [decoded] at run
        cases run
      | error cause =>
        rw [decoded] at run
        cases run
        refine ⟨rfl, ?_⟩
        obtain rfl | ⟨name, encoding, rfl⟩ | ⟨-, rfl⟩ := ConstantPool.decode_eq_error decoded
        · have missing := ConstantPool.decode_eq_outOfBounds_iff.1 decoded
          refine ⟨(ConstantPool.designated?_eq_none_iff.1 missing).1, preamble, stop, id, read, rfl,
            ?_⟩
          rw [ConstantPool.HasDescriptor, ← same.tableOffset]
          exact described
        · exact ⟨preamble, stop, read, same.encoding.symm.trans encoding⟩
        · show "constant" ∈ LoadError.textNames
          decide

/-- To look for a zero byte never fails. -/
theorem runFrom_readAbsent_ne_error {buffer : ByteArray} {position stop : Nat}
    {error : LoadError} : Decoder.readAbsent.runFrom buffer position ≠ .error error stop := by
  rw [runFrom_readAbsent]
  split <;> nofun

theorem advances_readAbsent : Decoder.readAbsent.Advances input.serialized := by
  intro position absent stop inside run
  have looked := readAbsent_eq_ok_iff.1 run
  cases absent with
  | true =>
    obtain ⟨stands, rfl⟩ := looked
    exact ⟨Nat.le_succ _, stands.add_length_le⟩
  | false =>
    obtain ⟨-, rfl⟩ := looked
    exact ⟨Nat.le_refl _, inside⟩

section Data

variable (declared : input.Declares pool)

include declared

theorem failsPlainly_readConstant : readConstant.FailsPlainly input pool :=
  (failsPlainly_liftM Decoder.failsTruly_readVarint.lift).bind
    (advances_liftM Decoder.reads_readVarint.lift.advances) fun index =>
      failsPlainly_resolveConstant declared index

theorem failsPlainly_readOptConstant : readOptConstant.FailsPlainly input pool := by
  have absent : Decoder.readAbsent.FailsPlainly input :=
    fun _ _ _ _ run => absurd run runFrom_readAbsent_ne_error
  refine (failsPlainly_liftM absent).bind (advances_liftM advances_readAbsent) fun absent => ?_
  cases absent with
  | true => exact failsPlainly_pure none
  | false => exact (failsPlainly_readConstant declared).map some

theorem failsPlainly_readConstants : readConstants.FailsPlainly input pool := by
  have count : (liftM (liftM (Decoder.readCount 1) : Decoder LoadError Nat) :
      TreeDecoder Nat).FailsPlainly input pool :=
    failsPlainly_liftM (Decoder.failsTruly_readCount (by decide)).lift
  exact count.bind (advances_liftM (Decoder.announces_readCount 1).lift.advances) fun count =>
    .readMany (fun _ => failsPlainly_readConstant declared) (fun _ => reads_readConstant.advances)
      count

theorem failsPlainly_readDatum (kind : DatumKind) : (readDatum kind).FailsPlainly input pool := by
  cases kind with
  | constant => exact (failsPlainly_readConstant declared).map _
  | optConstant => exact (failsPlainly_readOptConstant declared).map _
  | constants => exact (failsPlainly_readConstants declared).map _
  | string => exact (failsPlainly_liftM Decoder.failsPlainly_readString).map _
  | integer => exact (failsPlainly_liftM Decoder.failsPlainly_readInteger).map _
  | double => exact (failsPlainly_liftM Decoder.failsTruly_readDouble.lift).map _
  | uint32 => exact (failsPlainly_liftM Decoder.failsTruly_readVarint.lift).map _
  | uint8 => exact (failsPlainly_liftM Decoder.failsTruly_readByte.lift).map _

end Data

end TreeDecoder

end PrismTree
