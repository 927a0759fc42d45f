import PrismTree.Proofs.Count.Agreement
import PrismTree.Proofs.Failure.Cause
import PrismTree.Proofs.Load.Success

/-!
# Failures in front of the tree

What stands in front of the tree is a sequence of sections, and the room for the pool belongs to the
last of them. A failure there is that of the first section that fails; all of them read the same
buffer, each from where the one in front of it ended. Inside a counted section it is the first
record that fails, and the failure is marked with the number of records in front of it.
-/
namespace PrismTree

namespace RecordKind

/-- What a record of a kind is read as. -/
def Record : RecordKind → Type
  | .comment => Comment
  | .magicComment => MagicComment
  | .error => SyntaxError
  | .warning => SyntaxWarning

/-- The size of the smallest record of a kind. -/
def minSize : RecordKind → Nat
  | .comment => 3
  | .magicComment => 4
  | .error => 5
  | .warning => 5

/-- Read a record of a kind. -/
def read : (kind : RecordKind) → Decoder LoadError kind.Record
  | .comment => Decoder.readComment
  | .magicComment => Decoder.readMagicComment
  | .error => Decoder.readError
  | .warning => Decoder.readWarning

/-- The section that holds the records of a kind. -/
def stage : RecordKind → Section
  | .comment => .comments
  | .magicComment => .magicComments
  | .error => .errors
  | .warning => .warnings

/-- Of the records that are announced at `start`, the one with an index fails, and exactly as many
in front of it are read. -/
def FailsAt (kind : RecordKind) (buffer : ByteArray) (start index : Nat) (error : LoadError) :
    Prop :=
  ∃ count first records middle stop,
    (Decoder.readCount kind.minSize).runFrom buffer start = .ok count first ∧ index < count ∧
    records.length = index ∧
    (readMany index fun _ => kind.read).runFrom buffer first = .ok records middle ∧
    kind.read.runFrom buffer middle = .error error stop

end RecordKind

/-- The sections in front of the tree, in order. -/
def Section.front : List Section :=
  [.header, .encoding, .lineOffsets, .comments, .magicComments, .dataLocation, .errors, .warnings,
    .constantPool]

namespace Decoder

/-- Check that a buffer has room for a pool. -/
def checkPool (header : PoolHeader) : Decoder LoadError Unit := do
  let buffer ← buffer
  if buffer.size < header.count.toNat * ConstantPool.descriptorSize + header.offset.toNat then
    fail (.poolOutOfBounds header.offset header.count buffer.size)

/-- Read everything in front of the tree, and check the room for the pool. -/
def readFront : Decoder LoadError Preamble := do
  let preamble ← readPreamble
  within (.ofSection .constantPool) (checkPool preamble.pool)
  return preamble

/-- Read a counted section. -/
def readSection (kind : RecordKind) : Decoder LoadError (List kind.Record) :=
  readRecords kind kind.minSize kind.read

end Decoder

/-- Read a section in front of the tree. -/
def Section.read : Section → Decoder LoadError Unit
  | .header => Decoder.readSignature
  | .encoding => forget Decoder.readEncoding
  | .lineOffsets => forget (liftM Decoder.readLines : Decoder LoadError _)
  | .comments => forget (Decoder.readSection .comment)
  | .magicComments => forget (Decoder.readSection .magicComment)
  | .dataLocation => forget (liftM Decoder.readOptionalLocation : Decoder LoadError _)
  | .errors => forget (Decoder.readSection .error)
  | .warnings => forget (Decoder.readSection .warning)
  | .constantPool => do Decoder.checkPool (← Decoder.readPoolHeader)
  | .nodeTree => pure ()
  | .newlineMarking => pure ()

namespace Decoder

variable {α β : Type} {buffer : ByteArray} {position stop : Nat} {error : LoadError}

/-- Read sections in order, each marked with its name. -/
def readSections : List Section → Decoder LoadError Unit
  | [] => pure ()
  | stage :: rest => do
    within (.ofSection stage) stage.read
    readSections rest

/-- Of sections in sequence one fails, and those in front of it are read. -/
theorem readSections_eq_error {stages : List Section}
    (run : (readSections stages).runFrom buffer position = .error error stop) :
    ∃ before stage after middle inner, stages = before ++ stage :: after ∧
      (readSections before).runFrom buffer position = .ok () middle ∧
      stage.read.runFrom buffer middle = .error inner stop ∧
      error = inner.within (.ofSection stage) := by
  induction stages generalizing position with
  | nil => cases run
  | cons stage rest ih =>
    obtain failed | ⟨⟨⟩, middle, first, run⟩ := bind_eq_error_iff.1 run
    · obtain ⟨inner, cause, rfl⟩ := mapError_eq_error_iff.1 failed
      exact ⟨[], stage, rest, position, inner, rfl, rfl, cause, rfl⟩
    · obtain ⟨before, stage', after, last, inner, rfl, read, failed, rfl⟩ := ih run
      exact ⟨stage :: before, stage', after, last, inner, rfl,
        bind_eq_ok_iff.2 ⟨(), middle, first, read⟩, failed, rfl⟩

theorem within_bind (context : LoadError.Context) (decoder : Decoder LoadError α)
    (next : α → Decoder LoadError β) :
    within context (decoder >>= next) =
      within context decoder >>= fun value => within context (next value) := by
  funext buffer position
  simp only [within, mapError, bind, Decoder.bind]
  cases decoder buffer position <;> rfl

theorem within_forget (context : LoadError.Context) (decoder : Decoder LoadError α) :
    within context (forget decoder) = forget (within context decoder) := by
  rw [forget, map_eq_pure_bind, within_bind, forget, map_eq_pure_bind]
  rfl

theorem forget_bind (decoder : Decoder LoadError α) (next : Unit → Decoder LoadError β) :
    forget decoder >>= next = decoder >>= fun _ => next () :=
  bind_map_left _ _ _

/-- The header of the pool and the room for it are one section, whose mark both of them bear. -/
theorem forget_readFront : forget readFront = readSections Section.front := by
  simp only [Section.front, readSections, Section.read, within_forget, forget_bind, within_bind]
  simp only [forget, readFront, readPreamble, readHeading, readRemarks, map_bind, bind_assoc,
    pure_bind, map_pure]
  rfl

theorem runFrom_checkPool (header : PoolHeader) :
    (checkPool header).runFrom buffer position =
      if buffer.size < header.count.toNat * ConstantPool.descriptorSize + header.offset.toNat then
        .error (.ofCause (.poolOutOfBounds header.offset header.count buffer.size)) position
      else .ok () position := by
  show (if _ then _ else _ : Decoder LoadError Unit).runFrom buffer position = _
  split <;> rfl

/-- Everything in front of the tree is read, if the preamble is read and there is room for the
pool. -/
theorem readFront_eq_ok_iff {preamble : Preamble} :
    readFront.runFrom buffer position = .ok preamble stop ↔
      readPreamble.runFrom buffer position = .ok preamble stop ∧
        preamble.pool.count.toNat * ConstantPool.descriptorSize + preamble.pool.offset.toNat ≤
          buffer.size := by
  constructor
  · intro run
    obtain ⟨preamble', middle, read, run⟩ := bind_eq_ok_iff.1 run
    obtain ⟨⟨⟩, last, checked, finish⟩ := bind_eq_ok_iff.1 run
    cases finish
    have checked := (mapError_eq_ok_iff _).1 checked
    rw [runFrom_checkPool] at checked
    split at checked
    · cases checked
    · next room =>
      cases checked
      exact ⟨read, Nat.le_of_not_lt room⟩
  · intro h
    obtain ⟨read, room⟩ := h
    refine bind_eq_ok_iff.2 ⟨preamble, stop, read, bind_eq_ok_iff.2 ⟨(), stop, ?_, rfl⟩⟩
    refine (mapError_eq_ok_iff _).2 ?_
    rw [runFrom_checkPool, if_neg (Nat.not_lt.2 room)]

end Decoder

/-- Behind everything in front of the tree there is only the tree. -/
theorem load_eq_of_readFront (serialized source : ByteArray) (options : LoadOptions) :
    load serialized source options =
      match Decoder.readFront.runFrom serialized 0 with
      | .error error _ => .error error
      | .ok preamble position => preamble.outcome ⟨serialized, source, options⟩ position
          (.fresh preamble.heading.encoding preamble.pool) := by
  rw [load_eq, Decoder.readFront, Decoder.runFrom_bind]
  cases Decoder.readPreamble.runFrom serialized 0 with
  | error error stop => rfl
  | ok preamble stop =>
    dsimp only
    rw [Decoder.runFrom_bind, Decoder.within, Decoder.runFrom_mapError, Decoder.runFrom_checkPool,
      ConstantPool.ofHeader]
    by_cases short : serialized.size <
      preamble.pool.count.toNat * ConstantPool.descriptorSize + preamble.pool.offset.toNat
    · rw [if_pos short, if_pos short]
    · rw [if_neg short, if_neg short]
      rfl

/-- A section that begins at `start` fails with an error: as it is, or with a record that the error
is marked with. -/
inductive Section.FailsFrom (input : TreeInput) (start : Nat) : Section → LoadError → Prop
  | plain {stage : Section} {error : LoadError} (plain : error.IsPlainFrom input start) :
    FailsFrom input start stage error
  | record {kind : RecordKind} {index : Nat} {error : LoadError}
    (fails : kind.FailsAt input.serialized start index error)
    (plain : error.IsPlainFrom input start) :
    FailsFrom input start kind.stage (error.within (.ofRecord kind index))

namespace RecordKind

theorem minSize_le (kind : RecordKind) : kind.minSize ≤ 5 := by
  cases kind <;> decide

theorem advances_read (kind : RecordKind) {buffer : ByteArray} :
    kind.read.Advances buffer := by
  cases kind with
  | comment => exact Decoder.reads_readComment.advances
  | magicComment => exact Decoder.reads_readMagicComment.advances
  | error => exact Decoder.reads_readError.advances
  | warning => exact Decoder.reads_readWarning.advances

theorem failsPlainly_read (kind : RecordKind) {input : TreeInput} :
    kind.read.FailsPlainly input := by
  cases kind with
  | comment => exact Decoder.failsPlainly_readComment
  | magicComment => exact Decoder.failsPlainly_readMagicComment
  | error => exact Decoder.failsPlainly_readError
  | warning => exact Decoder.failsPlainly_readWarning

end RecordKind

namespace Decoder

variable {input : TreeInput} {start stop : Nat} {error : LoadError}

theorem failsPlainly_checkPool (header : PoolHeader) : (checkPool header).FailsPlainly input := by
  intro position error stop inside run
  rw [runFrom_checkPool] at run
  split at run
  · next short =>
    cases run
    refine ⟨rfl, rfl, ?_⟩
    rw [ConstantPool.descriptorSize] at short
    omega
  · cases run

theorem advances_checkPool (header : PoolHeader) {buffer : ByteArray} :
    (checkPool header).Advances buffer := by
  intro position value stop inside run
  rw [runFrom_checkPool] at run
  split at run
  · cases run
  · cases run
    exact ⟨Nat.le_refl _, inside⟩

theorem failsTruly_readPoolHeader {buffer : ByteArray} : readPoolHeader.FailsTruly buffer :=
  failsTruly_readUInt32.bind reads_readUInt32.advances fun _ =>
    failsTruly_readVarint.bind reads_readVarint.advances fun _ => failsOnly_pure _

theorem advances_readSection (kind : RecordKind) {buffer : ByteArray} :
    (readSection kind).Advances buffer :=
  (announces_readCount kind.minSize).lift.advances.bind fun count =>
    .readMany (fun _ => kind.advances_read.mapError _) count

/-- The marks on records make no difference as long as the records are read. -/
theorem readMany_within_eq_ok_iff {α : Type} {decoder : Decoder LoadError α}
    {context : Nat → LoadError.Context} {count position stop : Nat} {values : List α}
    {buffer : ByteArray} :
    (readMany count fun index => within (context index) decoder).runFrom buffer position =
        .ok values stop ↔
      (readMany count fun _ => decoder).runFrom buffer position = .ok values stop := by
  have unmarked : ∀ index, (within (context index) decoder).SucceedsLike decoder :=
    fun index _ _ _ _ => mapError_eq_ok_iff _
  have same := @readMany_related (Decoder LoadError) _ α _ _ SucceedsLike
    (fun values => .refl (pure values)) (fun index _ _ rest => (unmarked index).bind rest) count
  exact same buffer position values stop

/-- A counted section fails with its count, or with a record. -/
theorem failsFrom_of_readSection (kind : RecordKind) (inside : start ≤ input.serialized.size)
    (run : (readSection kind).runFrom input.serialized start = .error error stop) :
    kind.stage.FailsFrom input start error := by
  obtain failed | ⟨count, first, counted, run⟩ := bind_eq_error_iff.1 run
  · exact .plain ((failsTruly_readCount kind.minSize_le).lift start error stop inside failed)
  · obtain ⟨index, records, middle, less, length, before, failed⟩ := readMany_eq_error run
    obtain ⟨inner, cause, rfl⟩ := mapError_eq_error_iff.1 failed
    have before := readMany_within_eq_ok_iff.1 before
    have records_advance : (readMany index fun _ => kind.read).Advances input.serialized :=
      .readMany (fun _ => kind.advances_read) index
    obtain ⟨le, inside'⟩ :=
      (announces_readCount kind.minSize).lift.advances start count first inside counted
    obtain ⟨le', inside''⟩ := records_advance first records middle inside' before
    have plain := kind.failsPlainly_read middle inner stop inside'' cause
    have counted := (mapError_eq_ok_iff _).1 counted
    exact .record ⟨count, first, records, middle, stop, counted, less, length, before, cause⟩
      (LoadError.antitone_isPlainFrom input (Nat.le_trans le le') inner plain)

end Decoder

theorem Section.failsFrom_of_read {input : TreeInput} {stage : Section} {start stop : Nat}
    {error : LoadError} (inside : start ≤ input.serialized.size)
    (run : stage.read.runFrom input.serialized start = .error error stop) :
    stage.FailsFrom input start error := by
  cases stage with
  | header => exact .plain (Decoder.failsPlainly_readSignature start error stop inside run)
  | encoding =>
    exact .plain (Decoder.failsPlainly_readEncoding.map _ start error stop inside run)
  | lineOffsets =>
    exact .plain (Decoder.failsTruly_readLines.lift.map _ start error stop inside run)
  | comments =>
    exact Decoder.failsFrom_of_readSection .comment inside (Decoder.map_eq_error_iff.1 run)
  | magicComments =>
    exact Decoder.failsFrom_of_readSection .magicComment inside (Decoder.map_eq_error_iff.1 run)
  | dataLocation =>
    exact .plain (Decoder.failsTruly_readOptionalLocation.lift.map _ start error stop inside run)
  | errors =>
    exact Decoder.failsFrom_of_readSection .error inside (Decoder.map_eq_error_iff.1 run)
  | warnings =>
    exact Decoder.failsFrom_of_readSection .warning inside (Decoder.map_eq_error_iff.1 run)
  | constantPool =>
    have pool : (Section.read .constantPool).FailsPlainly input :=
      Decoder.failsTruly_readPoolHeader.lift.bind Decoder.reads_readPoolHeader.lift.advances
        Decoder.failsPlainly_checkPool
    exact .plain (pool start error stop inside run)
  | nodeTree => cases run
  | newlineMarking => cases run

namespace Section

variable {input : TreeInput} {stage : Section} {start : Nat} {error : LoadError}

theorem advances_read (stage : Section) {buffer : ByteArray} : stage.read.Advances buffer := by
  cases stage with
  | header => exact Decoder.reads_readSignature.advances
  | encoding => exact Decoder.reads_readEncoding.advances.map _
  | lineOffsets => exact Decoder.reads_readLines.lift.advances.map _
  | comments => exact (Decoder.advances_readSection .comment).map _
  | magicComments => exact (Decoder.advances_readSection .magicComment).map _
  | dataLocation => exact Decoder.reads_readOptionalLocation.lift.advances.map _
  | errors => exact (Decoder.advances_readSection .error).map _
  | warnings => exact (Decoder.advances_readSection .warning).map _
  | constantPool =>
    exact Decoder.reads_readPoolHeader.lift.advances.bind fun header =>
      Decoder.advances_checkPool header
  | nodeTree => exact Decoder.advances_pure ()
  | newlineMarking => exact Decoder.advances_pure ()

theorem advances_readSections (stages : List Section) {buffer : ByteArray} :
    (Decoder.readSections stages).Advances buffer := by
  induction stages with
  | nil => exact Decoder.advances_pure ()
  | cons stage rest ih => exact (stage.advances_read.mapError _).bind fun _ => ih

theorem FailsFrom.met (fails : stage.FailsFrom input start error) :
    error.cause.IsMetFrom input start := by
  cases fails with
  | plain plain => exact plain.cause
  | record fails plain => exact plain.cause

theorem FailsFrom.contexts (fails : stage.FailsFrom input start error) :
    error.contexts = [] ∨ ∃ kind index, error.contexts = [.ofRecord kind index] := by
  cases fails with
  | plain plain => exact Or.inl plain.contexts
  | @record kind index inner fails plain =>
    refine Or.inr ⟨kind, index, ?_⟩
    rw [LoadError.contexts_within, plain.contexts]

end Section

end PrismTree
