import PrismTree.Proofs.Count.Outcome
import PrismTree.Proofs.Wire.Preamble
import PrismTree.Proofs.Wire.Tree

/-!
# The check of counts refuses nothing valid

Two readers succeed alike if they accept the same bytes, give the same value and stop at the same
place; how they fail does not matter. The relation goes through a sequence, so it has to be shown
for counted lists only. There it rests on the least size of an item: where as many items stand as
were announced, there was room for them.
-/
namespace PrismTree

variable {ε ε' σ α β : Type}

/-- Either both of two results are the same success, or both are failures. -/
theorem alike {result result' : EStateM.Result ε σ α}
    (same : ∀ value reached, result = .ok value reached ↔ result' = .ok value reached) :
    (∃ value reached, result = .ok value reached ∧ result' = .ok value reached) ∨
      (∃ error reached, result = .error error reached) ∧
        ∃ error reached, result' = .error error reached := by
  cases run : result with
  | ok value reached => exact Or.inl ⟨value, reached, rfl, (same value reached).1 run⟩
  | error error reached =>
    refine Or.inr ⟨⟨error, reached, rfl⟩, ?_⟩
    cases run' : result' with
    | ok value reached =>
      rw [(same value reached).2 run'] at run
      cases run
    | error error' reached' => exact ⟨error', reached', rfl⟩

namespace Decoder

variable {decoder decoder' : Decoder ε α} {next next' : α → Decoder ε β}

/-- Two decoders accept the same bytes, give the same value and stop at the same place. -/
def SucceedsLike (decoder decoder' : Decoder ε α) : Prop :=
  ∀ buffer position value stop, decoder.runFrom buffer position = .ok value stop ↔
    decoder'.runFrom buffer position = .ok value stop

namespace SucceedsLike

theorem refl (decoder : Decoder ε α) : decoder.SucceedsLike decoder :=
  fun _ _ _ _ => Iff.rfl

theorem bind (first : decoder.SucceedsLike decoder')
    (second : ∀ value, (next value).SucceedsLike (next' value)) :
    (decoder >>= next).SucceedsLike (decoder' >>= next') := by
  intro buffer position result stop
  rw [bind_eq_ok_iff, bind_eq_ok_iff]
  exact exists_congr fun value => exists_congr fun middle =>
    and_congr (first buffer position value middle) (second value buffer middle result stop)

/-- What precedes may be left as it is. -/
theorem after (decoder : Decoder ε α) (second : ∀ value, (next value).SucceedsLike (next' value)) :
    (decoder >>= next).SucceedsLike (decoder >>= next') :=
  (refl decoder).bind second

/-- What follows may be left as it is. -/
theorem before (first : decoder.SucceedsLike decoder') (next : α → Decoder ε β) :
    (decoder >>= next).SucceedsLike (decoder' >>= next) :=
  first.bind fun value => refl (next value)

theorem mapError (f : ε → ε') (same : decoder.SucceedsLike decoder') :
    (decoder.mapError f).SucceedsLike (decoder'.mapError f) := by
  intro buffer position value stop
  rw [mapError_eq_ok_iff, mapError_eq_ok_iff]
  exact same buffer position value stop

theorem lift {decoder decoder' : Decoder ReadError α} (same : decoder.SucceedsLike decoder') :
    (liftM decoder : Decoder LoadError α).SucceedsLike (liftM decoder') :=
  same.mapError _

theorem within {decoder decoder' : Decoder LoadError α} (context : LoadError.Context)
    (same : decoder.SucceedsLike decoder') :
    (Decoder.within context decoder).SucceedsLike (Decoder.within context decoder') :=
  same.mapError _

end SucceedsLike

/-- A decoder succeeds at no position outside the buffer. -/
def StaysInside (decoder : Decoder ε α) : Prop :=
  ∀ buffer position value stop, decoder.runFrom buffer position = .ok value stop →
    position ≤ buffer.size

theorem StaysInside.bind (first : decoder.StaysInside) (next : α → Decoder ε β) :
    (decoder >>= next).StaysInside := by
  intro buffer position result stop run
  obtain ⟨value, middle, read, -⟩ := bind_eq_ok_iff.1 run
  exact first buffer position value middle read

theorem StaysInside.mapError (f : ε → ε') (inside : decoder.StaysInside) :
    (decoder.mapError f).StaysInside := by
  intro buffer position value stop run
  exact inside buffer position value stop ((mapError_eq_ok_iff f).1 run)

theorem StaysInside.lift {decoder : Decoder ReadError α} (inside : decoder.StaysInside) :
    (liftM decoder : Decoder LoadError α).StaysInside :=
  inside.mapError _

theorem staysInside_readByte : readByte.StaysInside := by
  intro buffer position byte stop run
  exact (readByte_eq_ok_iff.1 run).1.1

theorem staysInside_readVarint : readVarint.StaysInside := by
  intro buffer position n stop run
  obtain ⟨start, _, here, run⟩ := bind_eq_ok_iff.1 run
  cases here
  obtain ⟨value, middle, groups, -⟩ := bind_eq_ok_iff.1 run
  exact staysInside_readByte.bind _ buffer position value middle groups

/-- Two counters read the same counts, of which there is a least one. The first makes sure that
there is room for as many of the smallest items, the second believes the count. -/
structure Checks (counter counter' : Decoder ε Nat) (least minSize : Nat) : Prop where
  checked : counter.Announces least minSize
  believed : counter'.Announces least 0
  inside : counter.StaysInside
  inside' : counter'.StaysInside

section Counters

variable {counter counter' : Decoder ε Nat} {least minSize : Nat} {item : Nat → Decoder ε α}
  {forms : α → Language UInt8}

theorem Checks.mapError (f : ε → ε') (checks : counter.Checks counter' least minSize) :
    (counter.mapError f).Checks (counter'.mapError f) least minSize :=
  ⟨checks.checked.mapError f, checks.believed.mapError f, checks.inside.mapError f,
    checks.inside'.mapError f⟩

theorem Checks.lift {counter counter' : Decoder ReadError Nat}
    (checks : counter.Checks counter' least minSize) :
    (liftM counter : Decoder LoadError Nat).Checks (liftM counter') least minSize :=
  checks.mapError _

/-- A counted list is read alike with the check and without it. -/
theorem Checks.succeedsLike (checks : counter.Checks counter' least minSize)
    (items : ∀ index, (item index).Reads forms)
    (smallest : ∀ value, ∀ bytes ∈ forms value, minSize ≤ bytes.length) :
    (counter >>= fun count => readMany count item).SucceedsLike
      (counter' >>= fun count => readMany count item) := by
  intro buffer position values stop
  -- inside the buffer both are described by the same forms, and outside neither reads a count
  by_cases inside : position ≤ buffer.size
  · have checked := checks.checked.reads items smallest buffer position inside values stop
    have believed := checks.believed.reads items (fun _ _ _ => Nat.zero_le _) buffer position inside
      values stop
    exact checked.trans believed.symm
  · constructor
    · intro run
      exact absurd (checks.inside.bind _ buffer position values stop run) inside
    · intro run
      exact absurd (checks.inside'.bind _ buffer position values stop run) inside

end Counters

end Decoder

namespace CountCheck

open Decoder

theorem checks_readCount (minSize : Nat) :
    (room.readCount minSize).Checks (trust.readCount minSize) 0 minSize :=
  ⟨(demands_room minSize).announces_readCount, (demands_trust minSize).announces_readCount,
    staysInside_readVarint.bind _, staysInside_readVarint.bind _⟩

theorem checks_readWordCount : room.readWordCount.Checks trust.readWordCount 1 1 :=
  ⟨(demands_room 1).announces_readWordCount, (demands_trust 1).announces_readWordCount,
    staysInside_readVarint.lift.bind _, staysInside_readVarint.lift.bind _⟩

theorem succeedsLike_readLines : Decoder.readLines.SucceedsLike trust.readLines := by
  have lines := (checks_readCount 1).succeedsLike (fun _ => reads_readVarint)
    fun _ _ => Varint.length_pos_of_mem_forms
  refine SucceedsLike.after readSignedVarint fun startLine => ?_
  have whole := lines.before fun lineOffsets => pure (startLine, lineOffsets.toArray)
  rw [bind_assoc, bind_assoc] at whole
  exact whole

theorem succeedsLike_readHeading : Decoder.readHeading.SucceedsLike trust.readHeading :=
  .after _ fun _ => .after _ fun _ => (succeedsLike_readLines.lift.within _).before _

theorem succeedsLike_readRecords {record : Decoder LoadError α} {forms : α → Language UInt8}
    (kind : RecordKind) {minSize : Nat} (reads : record.Reads forms)
    (smallest : ∀ value, ∀ bytes ∈ forms value, minSize ≤ bytes.length) :
    (Decoder.readRecords kind minSize record).SucceedsLike
      (trust.readRecords kind minSize record) :=
  (checks_readCount minSize).lift.succeedsLike
    (fun index => reads.within (.ofRecord kind index)) smallest

theorem succeedsLike_readRemarks : Decoder.readRemarks.SucceedsLike trust.readRemarks := by
  have comments := succeedsLike_readRecords .comment reads_readComment three_le_length_of_comment
  have magicComments := succeedsLike_readRecords .magicComment reads_readMagicComment
    four_le_length_of_magicComment
  have errors := succeedsLike_readRecords .error reads_readError fun error =>
    five_le_length_of_diagnostic _ _ _ _
  have warnings := succeedsLike_readRecords .warning reads_readWarning fun warning =>
    five_le_length_of_diagnostic _ _ _ _
  exact (comments.within _).bind fun _ => (magicComments.within _).bind fun _ => .after _ fun _ =>
    (errors.within _).bind fun _ => (warnings.within _).before _

theorem succeedsLike_readPreamble : Decoder.readPreamble.SucceedsLike trust.readPreamble :=
  succeedsLike_readHeading.bind fun _ => succeedsLike_readRemarks.before _

end CountCheck

end PrismTree
