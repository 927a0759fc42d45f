import PrismTree.Proofs.Constants.Bounds
import PrismTree.Proofs.Failure.Read
import PrismTree.Proofs.Wire.Preamble

/-!
# What the cause of a failure tells

The cause of a failed load carries numbers and names, and what it says with them is true of the
input. As long as no stage has marked the failure, there is nothing else to an error; a failed read
is besides never in front of the position where the reading began.
-/
namespace PrismTree

namespace LoadError

/-- The texts that have to be UTF-8. -/
def textNames : List String :=
  ["encoding name", "diagnostic message", "constant"]

/-- What a cause says about an input. -/
def Cause.IsTrueOf (input : TreeInput) : Cause → Prop
  | .read error => error.IsTrueOf input.serialized
  | .invalidSignature => True
  | .versionMismatch found =>
    found ≠ Version.supported ∧
      ∃ position, StandsAt [found.major, found.minor, found.patch] input.serialized position
  | .locationFieldsPresent => True
  | .unsupportedEncoding name =>
    ∃ preamble stop, Decoder.readPreamble.runFrom input.serialized 0 = .ok preamble stop ∧
      preamble.heading.encoding = .unsupported name
  | .invalidUtf8 text => text ∈ textNames
  | .unknownCommentType byte => byte ≠ 0 ∧ byte ≠ 1
  | .unknownErrorType code => 288 < code.toNat
  | .unknownWarningType code => code.toNat < 289 ∨ 318 < code.toNat
  | .unknownLevel record byte =>
    record = RecordKind.error.name ∧ byte ≠ 0 ∧ byte ≠ 1 ∧ byte ≠ 2 ∨
      record = RecordKind.warning.name ∧ byte ≠ 0 ∧ byte ≠ 1
  | .poolOutOfBounds offset count available =>
    available = input.serialized.size ∧ available < offset.toNat + 8 * count.toNat
  | .constantIndexOutOfRange index size =>
    (index = 0 ∨ size < index.toNat) ∧
      ∃ preamble stop, Decoder.readPreamble.runFrom input.serialized 0 = .ok preamble stop ∧
        size = preamble.pool.count.toNat
  | .constantOutOfBounds index start length =>
    ¬ConstantPool.IsBacked input.serialized input.source start length ∧
      ∃ preamble stop id, Decoder.readPreamble.runFrom input.serialized 0 = .ok preamble stop ∧
        id.index = index ∧
        (ConstantPool.fresh preamble.heading.encoding preamble.pool).HasDescriptor
          input.serialized id start length
  | .unknownNodeType byte => Kind.ofTag? byte = none
  | .flagsOutOfRange flags => 0x7FFF < flags.toNat
  | .invalidStringTag byte => byte ≠ 1 ∧ byte ≠ 2
  | .sourceSliceOutOfBounds start length available =>
    available = input.source.size ∧ available < start.toNat + length.toNat
  | .emptyInteger => True
  | .defLengthMismatch declared actual => declared.toNat ≠ actual
  | .nestingTooDeep maxDepth => maxDepth = input.options.maxDepth
  | .trailingBytes expected actual =>
    expected ≠ actual ∧ expected ≤ input.serialized.size ∧ actual ≤ input.serialized.size
  | .line error =>
    ∃ preamble stop root, Decoder.readPreamble.runFrom input.serialized 0 = .ok preamble stop ∧
      Node.marked (preamble.source input.source) root = .error error

/-- The causes that only a node as a whole has. -/
def Cause.IsOfNode : Cause → Prop
  | .unknownNodeType _ => True
  | .defLengthMismatch _ _ => True
  | .nestingTooDeep _ => True
  | _ => False

/-- A cause that was met in a section in front of the tree or in a datum, where the reading began at
a position. Neither of them is a node or comes behind the tree. -/
def Cause.IsMetFrom (input : TreeInput) (position : Nat) : Cause → Prop
  | .read error => error.IsMetFrom input.serialized position
  | .unknownNodeType _ => False
  | .defLengthMismatch _ _ => False
  | .nestingTooDeep _ => False
  | .trailingBytes _ _ => False
  | .line _ => False
  | cause => cause.IsTrueOf input

section

variable {input : TreeInput} {position : Nat} {cause : Cause}

theorem Cause.IsMetFrom.isTrueOf (met : cause.IsMetFrom input position) :
    cause.IsTrueOf input := by
  cases cause with
  | read error => exact met.2
  | unknownNodeType | defLengthMismatch | nestingTooDeep | trailingBytes | line => exact met.elim
  | _ => exact met

theorem Cause.IsMetFrom.not_isOfNode (met : cause.IsMetFrom input position) :
    ¬cause.IsOfNode := by
  cases cause with
  | unknownNodeType | defLengthMismatch | nestingTooDeep => exact met.elim
  | _ => exact id

theorem Cause.IsMetFrom.ne_trailingBytes (met : cause.IsMetFrom input position)
    (expected actual : Nat) : cause ≠ .trailingBytes expected actual := by
  rintro rfl
  exact met

end

/-- An error that no stage has marked yet. -/
structure IsPlainFrom (input : TreeInput) (position : Nat) (error : LoadError) : Prop where
  contexts : error.contexts = []
  cause : error.cause.IsMetFrom input position

theorem antitone_isPlainFrom (input : TreeInput) : Antitone (IsPlainFrom input) := by
  intro position position' le error plain
  refine ⟨plain.contexts, ?_⟩
  obtain ⟨-, met⟩ := plain
  cases cause : error.cause with
  | read read =>
    rw [cause] at met
    exact ReadError.antitone_isMetFrom _ le read met
  | _ =>
    rw [cause] at met
    exact met

end LoadError

namespace Decoder

variable {α β : Type} {input : TreeInput}

/-- Every failure is true, not in front of where the reading began, and not marked yet. -/
def FailsPlainly (input : TreeInput) (decoder : Decoder LoadError α) : Prop :=
  decoder.FailsOnly input.serialized (LoadError.IsPlainFrom input)

theorem FailsTruly.lift {decoder : Decoder ReadError α}
    (truly : decoder.FailsTruly input.serialized) :
    (liftM decoder : Decoder LoadError α).FailsPlainly input :=
  truly.mapError fun _ _ met => ⟨rfl, met⟩

theorem failsPlainly_fail {cause : LoadError.Cause}
    (holds : ∀ position, cause.IsMetFrom input position) :
    (Decoder.fail cause : Decoder LoadError α).FailsPlainly input :=
  failsOnly_throw fun position _ => ⟨rfl, holds position⟩

section Rules

variable {decoder : Decoder LoadError α}

theorem FailsPlainly.bind {next : α → Decoder LoadError β} (first : decoder.FailsPlainly input)
    (advances : decoder.Advances input.serialized)
    (second : ∀ value, (next value).FailsPlainly input) : (decoder >>= next).FailsPlainly input :=
  FailsOnly.bind (LoadError.antitone_isPlainFrom input) first advances second

/-- What is named by a number fails besides where no value has that number. -/
theorem FailsPlainly.named {ofNumber? : α → Option β} {unknown : α → LoadError.Cause}
    (first : decoder.FailsPlainly input) (advances : decoder.Advances input.serialized)
    (holds : ∀ number, ofNumber? number = none → ∀ position,
      (unknown number).IsMetFrom input position) :
    (readNamed decoder ofNumber? unknown).FailsPlainly input := by
  refine first.bind advances fun number => ?_
  cases missing : ofNumber? number with
  | none => exact failsPlainly_fail (holds number missing)
  | some value => exact failsOnly_pure value

end Rules

theorem failsPlainly_readSignature : readSignature.FailsPlainly input := by
  refine (failsTruly_readExactly _).lift.bind (reads_readExactly _).lift.advances fun found =>
    .ite (fun _ => failsPlainly_fail fun _ => trivial) fun _ => ?_
  intro position error stop inside run
  obtain failed | ⟨bytes, middle, version, run⟩ := bind_eq_error_iff.1 run
  · exact (failsTruly_readExactly 3).lift position error stop inside failed
  · obtain ⟨_, ⟨rfl, size⟩, stands, rfl⟩ :=
      ((reads_readExactly 3).lift input.serialized position inside bytes middle).1 version
    have three : [bytes.data.getD 0 0, bytes.data.getD 1 0, bytes.data.getD 2 0] =
        bytes.data.toList := by
      obtain ⟨⟨bytes⟩⟩ := bytes
      obtain ⟨major, minor, patch, rfl⟩ := List.length_eq_three.1 size
      rfl
    have later := LoadError.antitone_isPlainFrom input
      (Nat.le_add_right position bytes.data.toList.length) error
    refine later (FailsOnly.ite (fun wrong => ?_) (fun _ => ?_) _ error stop
      stands.add_length_le run)
    · exact failsPlainly_fail fun _ => ⟨wrong, position, three ▸ stands⟩
    · exact failsTruly_readByte.lift.bind reads_readByte.lift.advances fun _ =>
        .ite (fun _ => failsPlainly_fail fun _ => trivial) fun _ => failsOnly_pure _

theorem failsPlainly_readText {name : String} (listed : name ∈ LoadError.textNames) :
    (readText name).FailsPlainly input := by
  refine failsTruly_readEmbedded.lift.bind reads_readEmbedded.lift.advances fun bytes => ?_
  cases String.fromUTF8? bytes with
  | none => exact failsPlainly_fail fun _ => listed
  | some text => exact failsOnly_pure text

theorem failsPlainly_readEncoding : readEncoding.FailsPlainly input :=
  (failsPlainly_readText (by decide)).map _

theorem failsTruly_readLines {buffer : ByteArray} : readLines.FailsTruly buffer := by
  have offsets : ∀ count, (readMany count fun _ => readVarint).FailsTruly buffer :=
    .readMany (ReadError.antitone_isMetFrom buffer) (fun _ => failsTruly_readVarint)
      fun _ => reads_readVarint.advances
  exact failsTruly_readSignedVarint.bind reads_readSignedVarint.advances fun startLine =>
    (failsTruly_readCount (by decide)).bind (announces_readCount 1).advances fun count =>
      (offsets count).map _

theorem failsPlainly_readComment : readComment.FailsPlainly input := by
  refine failsTruly_readByte.lift.bind reads_readByte.lift.advances fun byte => ?_
  cases unknown : CommentKind.ofByte? byte with
  | none =>
    refine failsPlainly_fail fun _ => ⟨?_, ?_⟩ <;> rintro rfl <;> cases unknown
  | some kind =>
    exact failsTruly_readLocation.lift.map _

theorem failsPlainly_readMagicComment : readMagicComment.FailsPlainly input :=
  failsTruly_readLocation.lift.bind reads_readLocation.lift.advances fun _ =>
    failsTruly_readLocation.lift.map _

section Diagnostics

variable {τ ℓ δ : Type} {ofCode? : UInt32 → Option τ} {ofByte? : UInt8 → Option ℓ}
  {unknownType : UInt32 → LoadError.Cause} {unknownLevel : UInt8 → LoadError.Cause}
  {make : τ → String → Location → ℓ → δ}

theorem failsPlainly_readDiagnostic {code : τ → UInt32}
    (codes : ∀ number value, ofCode? number = some value ↔ number = code value)
    (types : ∀ number, ofCode? number = none → ∀ position,
      (unknownType number).IsMetFrom input position)
    (levels : ∀ number, ofByte? number = none → ∀ position,
      (unknownLevel number).IsMetFrom input position) :
    (readDiagnostic ofCode? ofByte? unknownType unknownLevel make).FailsPlainly input := by
  have type := failsTruly_readVarint.lift.named reads_readVarint.lift.advances types
  have level := failsTruly_readByte.lift.named reads_readByte.lift.advances levels
  have message : (readText "diagnostic message").FailsPlainly input :=
    failsPlainly_readText (by decide)
  exact type.bind (reads_readVarint.lift.named unknownType code codes).advances fun type =>
    message.bind (reads_readText _).advances fun message =>
    failsTruly_readLocation.lift.bind reads_readLocation.lift.advances fun location =>
      level.map (make type message location)

end Diagnostics

theorem failsPlainly_readError : readError.FailsPlainly input := by
  rw [readError_eq]
  refine failsPlainly_readDiagnostic (fun _ _ => ErrorType.ofCode?_eq_some_iff)
    (fun code unknown _ => ?_) fun byte unknown _ => Or.inl ⟨rfl, ?_, ?_, ?_⟩
  · have known := ErrorType.ofCode?_isSome_iff code
    rw [unknown, ErrorType.count] at known
    have outside : ¬code.toNat < 289 := fun small => Bool.noConfusion (known.2 small)
    exact Nat.lt_of_not_le fun small => outside (Nat.lt_succ_of_le small)
  all_goals
    rintro rfl
    cases unknown

theorem failsPlainly_readWarning : readWarning.FailsPlainly input := by
  rw [readWarning_eq]
  refine failsPlainly_readDiagnostic (fun _ _ => WarningType.ofCode?_eq_some_iff)
    (fun code unknown _ => ?_) fun byte unknown _ => Or.inr ⟨rfl, ?_, ?_⟩
  · have known := WarningType.ofCode?_isSome_iff code
    rw [unknown, WarningType.firstCode, WarningType.count, ErrorType.count] at known
    have outside : ¬(289 ≤ code.toNat ∧ code.toNat < 319) :=
      fun inside => Bool.noConfusion (known.2 inside)
    show code.toNat < 289 ∨ 318 < code.toNat
    omega
  all_goals
    rintro rfl
    cases unknown

theorem failsPlainly_readFlags : readFlags.FailsPlainly input := by
  refine failsTruly_readVarint.lift.bind reads_readVarint.lift.advances fun bits => ?_
  cases unknown : NodeFlags.ofNat? bits.toNat with
  | some flags =>
    dsimp only
    exact failsOnly_pure flags
  | none =>
    dsimp only
    refine failsPlainly_fail fun _ => ?_
    unfold NodeFlags.ofNat? at unknown
    split at unknown
    · cases unknown
    · next large => exact Nat.lt_of_not_le large

theorem failsPlainly_readString : (readString input.source).FailsPlainly input := by
  refine failsTruly_readByte.lift.bind reads_readByte.lift.advances fun tag =>
    .ite (fun _ => ?_) fun other => .ite (fun _ => failsTruly_readEmbedded.lift.map _) fun other' =>
      failsPlainly_fail fun _ => ⟨other, other'⟩
  refine failsTruly_readLocation.lift.bind reads_readLocation.lift.advances fun span => ?_
  cases inside : Bytes.slice? input.source span.start.toNat
    (span.start.toNat + span.length.toNat) with
  | some bytes =>
    simp only [inside]
    exact failsOnly_pure _
  | none =>
    simp only [inside]
    exact failsPlainly_fail fun _ => ⟨rfl, ConstantPool.slice?_eq_none_iff.1 inside⟩

theorem failsPlainly_readInteger : readInteger.FailsPlainly input := by
  have words : ∀ count, (readMany count fun _ => (liftM readVarint :
      Decoder LoadError UInt32)).FailsPlainly input :=
    .readMany (LoadError.antitone_isPlainFrom input) (fun _ => failsTruly_readVarint.lift)
      fun _ => reads_readVarint.lift.advances
  have count : CountCheck.room.readWordCount.FailsPlainly input :=
    failsTruly_readVarint.lift.bind reads_readVarint.lift.advances fun count =>
      .ite (fun _ => failsPlainly_fail fun _ => trivial) fun _ =>
        (failsTruly_ensureCount count (by decide)).lift
  rw [readInteger_eq]
  exact failsTruly_readByte.lift.bind reads_readByte.lift.advances fun sign =>
    FailsOnly.map _ (count.bind announces_readWordCount.advances words)

end Decoder

end PrismTree
