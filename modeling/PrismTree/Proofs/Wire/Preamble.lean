import PrismTree.Proofs.Load.Outcome
import PrismTree.Proofs.Wire.Scalar

/-!
# The forms of a preamble

The heading, the remarks and the place of the pool in sequence. Kinds, types and levels are read as
the numbers that stand for them.
-/
namespace PrismTree

theorem CommentKind.ofByte?_eq_some_iff {byte : UInt8} {kind : CommentKind} :
    ofByte? byte = some kind ↔ byte = kind.toByte := by
  constructor
  · intro found
    simp only [ofByte?] at found
    split at found
    · cases found
      assumption
    · split at found
      · cases found
        assumption
      · cases found
  · rintro rfl
    exact ofByte?_toByte kind

theorem ErrorLevel.ofByte?_eq_some_iff {byte : UInt8} {level : ErrorLevel} :
    ofByte? byte = some level ↔ byte = level.toByte := by
  constructor
  · intro found
    simp only [ofByte?] at found
    split at found
    · cases found
      assumption
    · split at found
      · cases found
        assumption
      · split at found
        · cases found
          assumption
        · cases found
  · rintro rfl
    exact ofByte?_toByte level

theorem WarningLevel.ofByte?_eq_some_iff {byte : UInt8} {level : WarningLevel} :
    ofByte? byte = some level ↔ byte = level.toByte := by
  constructor
  · intro found
    simp only [ofByte?] at found
    split at found
    · cases found
      assumption
    · split at found
      · cases found
        assumption
      · cases found
  · rintro rfl
    exact ofByte?_toByte level

theorem ErrorType.ofCode?_eq_some_iff {code : UInt32} {type : ErrorType} :
    ofCode? code = some type ↔ code = type.code := by
  constructor
  · intro found
    unfold ofCode? at found
    split at found
    · cases found
      apply UInt32.toNat_inj.1
      rw [toNat_code]
    · cases found
  · rintro rfl
    exact ofCode?_code type

theorem WarningType.ofCode?_eq_some_iff {code : UInt32} {type : WarningType} :
    ofCode? code = some type ↔ code = type.code := by
  constructor
  · intro found
    unfold ofCode? at found
    split at found
    · next inside =>
      have index := congrArg (fun type => type.index.val) (Option.some.inj found)
      have whole := toNat_code type
      apply UInt32.toNat_inj.1
      simp only at index
      omega
    · cases found
  · rintro rfl
    exact ofCode?_code type

namespace Wire

variable (varint : UInt32 → Language UInt8)

/-- The signature, the version, and a zero byte. -/
def opening : Language UInt8 :=
  {signature ++ [1, 3, 0] ++ [0]}

/-- An encoding under one of its names. -/
def encoding (encoding : Encoding) : Language UInt8 :=
  ⨆ name, provided (encoding = .ofName name) * text varint name

/-- A signed number. -/
def signed (n : Int32) : Language UInt8 :=
  ⨆ code, provided (n = Varint.unzigzag code) * varint code

/-- A heading. -/
def heading (heading : Heading) : Language UInt8 :=
  opening * (encoding varint heading.encoding * (signed varint heading.startLine *
    list varint varint heading.lineOffsets.toList))

/-- A comment: its kind, then its span. -/
def comment (comment : Comment) : Language UInt8 :=
  {[comment.kind.toByte]} * location varint comment.location

/-- A magic comment: the span of its key, then that of its value. -/
def magicComment (comment : MagicComment) : Language UInt8 :=
  location varint comment.key * location varint comment.value

/-- A diagnostic: type, message, span and level. -/
def diagnostic (code : UInt32) (message : String) (span : Location) (level : UInt8) :
    Language UInt8 :=
  varint code * text varint message * location varint span * {[level]}

/-- An error. -/
def error (error : SyntaxError) : Language UInt8 :=
  diagnostic varint error.type.code error.message error.location error.level.toByte

/-- A warning. -/
def warning (warning : SyntaxWarning) : Language UInt8 :=
  diagnostic varint warning.type.code warning.message warning.location warning.level.toByte

/-- The remarks, section by section. -/
def remarks (remarks : Remarks) : Language UInt8 :=
  list varint (comment varint) remarks.comments *
    list varint (magicComment varint) remarks.magicComments *
    optionalLocation varint remarks.dataLocation *
    list varint (error varint) remarks.errors *
    list varint (warning varint) remarks.warnings

/-- The place of the pool: the offset of its table, then the number of constants. -/
def poolHeader (header : PoolHeader) : Language UInt8 :=
  {Bytes.ofNat 4 header.offset.toNat} * varint header.count

/-- All that stands in front of the tree. -/
def preamble (preamble : Preamble) : Language UInt8 :=
  heading varint preamble.heading * remarks varint preamble.remarks *
    poolHeader varint preamble.pool

end Wire

namespace Decoder

variable {α β : Type}

theorem reads_readComment : readComment.Reads (Wire.comment Varint.forms) := by
  have same : readComment = readNamed (liftM readByte) CommentKind.ofByte? .unknownCommentType >>=
      fun kind => (liftM readLocation : Decoder LoadError Location) >>= fun location =>
        pure ⟨kind, location⟩ := by
    rw [readNamed_bind]
    refine bind_congr fun byte => ?_
    cases CommentKind.ofByte? byte <;> rfl
  rw [same]
  have kinds := reads_readByte.lift.named .unknownCommentType _
    fun _ _ => CommentKind.ofByte?_eq_some_iff
  refine Reads.whole (kinds.field Comment.kind fun kind =>
    reads_readLocation.lift.lastField Comment.location fun span =>
      reads_record (Comment.mk kind span) ?_)
  rintro ⟨⟩
  simp

theorem reads_readMagicComment : readMagicComment.Reads (Wire.magicComment Varint.forms) := by
  refine Reads.whole (reads_readLocation.lift.field MagicComment.key fun key =>
    reads_readLocation.lift.lastField MagicComment.value fun value =>
      reads_record (MagicComment.mk key value) ?_)
  rintro ⟨⟩
  simp

section Diagnostics

variable {τ ℓ δ : Type} (ofCode? : UInt32 → Option τ) (ofByte? : UInt8 → Option ℓ)
  (unknownType : UInt32 → LoadError.Cause) (unknownLevel : UInt8 → LoadError.Cause)
  (make : τ → String → Location → ℓ → δ)

/-- Read a diagnostic whose type and level are named by numbers. -/
def readDiagnostic : Decoder LoadError δ := do
  let type ← readNamed (liftM readVarint) ofCode? unknownType
  let message ← readText "diagnostic message"
  let location ← (liftM readLocation : Decoder LoadError Location)
  let level ← readNamed (liftM readByte) ofByte? unknownLevel
  return make type message location level

/-- A diagnostic is read field by field if its fields determine it. -/
theorem reads_readDiagnostic {code : τ → UInt32} {byte : ℓ → UInt8} {type : δ → τ}
    {message : δ → String} {location : δ → Location} {level : δ → ℓ}
    (codes : ∀ number value, ofCode? number = some value ↔ number = code value)
    (bytes : ∀ number value, ofByte? number = some value ↔ number = byte value)
    (fields : ∀ other type' message' location' level',
      other = make type' message' location' level' ↔ type other = type' ∧
        message other = message' ∧ location other = location' ∧ level other = level') :
    (readDiagnostic ofCode? ofByte? unknownType unknownLevel make).Reads fun value =>
      Wire.diagnostic Varint.forms (code (type value)) (message value) (location value)
        (byte (level value)) := by
  have types := reads_readVarint.lift.named unknownType code codes
  have levels := reads_readByte.lift.named unknownLevel byte bytes
  have whole := Reads.whole (types.field type fun type' =>
    (reads_readText "diagnostic message").field message fun message' =>
    reads_readLocation.lift.field location fun location' =>
    levels.lastField level fun level' =>
      reads_record (make type' message' location' level') fun other => by
        rw [fields, true_and, and_assoc, and_assoc])
  exact whole.congr fun value => by simp only [Wire.diagnostic, mul_assoc]

end Diagnostics

theorem readError_eq :
    readError = readDiagnostic ErrorType.ofCode? ErrorLevel.ofByte? .unknownErrorType
      (.unknownLevel RecordKind.error.name) SyntaxError.mk := by
  simp only [readDiagnostic, readNamed_bind]
  refine bind_congr fun code => ?_
  cases ErrorType.ofCode? code with
  | none => rfl
  | some type =>
    refine bind_congr fun message => bind_congr fun location => bind_congr fun byte => ?_
    cases ErrorLevel.ofByte? byte <;> rfl

theorem reads_readError : readError.Reads (Wire.error Varint.forms) := by
  rw [readError_eq]
  refine reads_readDiagnostic _ _ _ _ _ (fun _ _ => ErrorType.ofCode?_eq_some_iff)
    (fun _ _ => ErrorLevel.ofByte?_eq_some_iff) ?_
  rintro ⟨⟩
  simp

theorem readWarning_eq :
    readWarning = readDiagnostic WarningType.ofCode? WarningLevel.ofByte? .unknownWarningType
      (.unknownLevel RecordKind.warning.name) SyntaxWarning.mk := by
  simp only [readDiagnostic, readNamed_bind]
  refine bind_congr fun code => ?_
  cases WarningType.ofCode? code with
  | none => rfl
  | some type =>
    refine bind_congr fun message => bind_congr fun location => bind_congr fun byte => ?_
    cases WarningLevel.ofByte? byte <;> rfl

theorem reads_readWarning : readWarning.Reads (Wire.warning Varint.forms) := by
  rw [readWarning_eq]
  refine reads_readDiagnostic _ _ _ _ _ (fun _ _ => WarningType.ofCode?_eq_some_iff)
    (fun _ _ => WarningLevel.ofByte?_eq_some_iff) ?_
  rintro ⟨⟩
  simp

theorem reads_readRecords {record : Decoder LoadError α} {forms : α → Language UInt8}
    (kind : RecordKind) {minSize : Nat} (reads : record.Reads forms)
    (smallest : ∀ value, ∀ bytes ∈ forms value, minSize ≤ bytes.length) :
    (readRecords kind minSize record).Reads (Wire.list Varint.forms forms) := by
  have records := (announces_readCount minSize).lift.reads
    (fun index => reads.within (.ofRecord kind index)) smallest
  exact records.congr fun values => provided_mul_of (Nat.zero_le _)

section Lengths

variable {bytes : List UInt8}

theorem three_le_length_of_comment (comment : Comment) :
    ∀ bytes ∈ Wire.comment Varint.forms comment, 3 ≤ bytes.length :=
  add_le_length_of_mem_mul Wire.one_le_length_of_byte
    (Wire.two_le_length_of_location comment.location)

theorem four_le_length_of_magicComment (comment : MagicComment) :
    ∀ bytes ∈ Wire.magicComment Varint.forms comment, 4 ≤ bytes.length :=
  add_le_length_of_mem_mul (Wire.two_le_length_of_location comment.key)
    (Wire.two_le_length_of_location comment.value)

theorem one_le_length_of_text (text : String) :
    ∀ bytes ∈ Wire.text Varint.forms text, 1 ≤ bytes.length := by
  refine add_le_length_of_mem_mul (fun bytes counts => ?_) fun _ _ => Nat.zero_le _
  obtain ⟨word, -, counts⟩ := Wire.mem_count.1 counts
  exact Varint.length_pos_of_mem_forms counts

theorem five_le_length_of_diagnostic (code : UInt32) (message : String) (span : Location)
    (level : UInt8) :
    ∀ bytes ∈ Wire.diagnostic Varint.forms code message span level, 5 ≤ bytes.length :=
  add_le_length_of_mem_mul (add_le_length_of_mem_mul (add_le_length_of_mem_mul
    (fun _ => Varint.length_pos_of_mem_forms) (one_le_length_of_text message))
    (Wire.two_le_length_of_location span)) Wire.one_le_length_of_byte

end Lengths

theorem reads_readRemarks : readRemarks.Reads (Wire.remarks Varint.forms) := by
  have comments := (reads_readRecords .comment reads_readComment
    three_le_length_of_comment).within (.ofSection .comments)
  have magicComments := (reads_readRecords .magicComment reads_readMagicComment
    four_le_length_of_magicComment).within (.ofSection .magicComments)
  have errors := (reads_readRecords .error reads_readError fun error =>
    five_le_length_of_diagnostic _ _ _ _).within (.ofSection .errors)
  have warnings := (reads_readRecords .warning reads_readWarning fun warning =>
    five_le_length_of_diagnostic _ _ _ _).within (.ofSection .warnings)
  refine (Reads.whole (comments.field Remarks.comments fun comments =>
    magicComments.field Remarks.magicComments fun magicComments =>
    (reads_readOptionalLocation.lift.within _).field Remarks.dataLocation fun dataLocation =>
    errors.field Remarks.errors fun errors =>
    warnings.lastField Remarks.warnings fun warnings =>
      reads_record (Remarks.mk comments magicComments dataLocation errors warnings) ?_)).congr
      fun remarks => ?_
  · rintro ⟨⟩
    simp [and_assoc]
  · simp only [Wire.remarks, mul_assoc]

theorem version_eq_supported_iff {bytes : ByteArray} (size : bytes.size = 3) :
    Version.mk (bytes.data.getD 0 0) (bytes.data.getD 1 0) (bytes.data.getD 2 0) =
      Version.supported ↔ bytes.data.toList = [1, 3, 0] := by
  obtain ⟨⟨bytes⟩⟩ := bytes
  obtain ⟨major, minor, patch, rfl⟩ := List.length_eq_three.1 size
  simp [Version.supported]

theorem reads_readSignature : readSignature.Reads fun _ => Wire.opening := by
  refine ((reads_readExactly signature.length).lift.bind fun found => (reads_fail _).ite
    ((reads_readExactly 3).lift.bind fun bytes => (reads_fail _).ite
      (reads_readByte.lift.bind fun byte => (reads_fail _).ite (reads_pure ())))).congr
    fun _ => ?_
  ext bytes
  simp only [Language.mem_iSup, Wire.opening, mem_spelling]
  constructor
  · rintro ⟨found, form⟩
    obtain ⟨_, ⟨rfl, -⟩, _, behind, rfl⟩ := Language.mem_mul.1 form
    split at behind
    · exact absurd behind (Language.notMem_zero _)
    · next signed =>
      obtain ⟨version, behind⟩ := Language.mem_iSup.1 behind
      obtain ⟨_, ⟨rfl, size⟩, _, last, rfl⟩ := Language.mem_mul.1 behind
      split at last
      · exact absurd last (Language.notMem_zero _)
      · next supported =>
        obtain ⟨byte, last⟩ := Language.mem_iSup.1 last
        obtain ⟨_, rfl, _, zero, rfl⟩ := Language.mem_mul.1 last
        split at zero
        · exact absurd zero (Language.notMem_zero _)
        · next absent =>
          obtain ⟨-, rfl⟩ := zero
          rw [not_not.1 signed, (version_eq_supported_iff size).1 (not_not.1 supported),
            not_not.1 absent, List.append_nil, List.append_assoc]
  · rintro rfl
    rw [List.append_assoc]
    refine ⟨⟨signature.toArray⟩, Language.append_mem_mul ⟨rfl, rfl⟩ ?_⟩
    rw [if_neg (not_not.2 rfl)]
    refine Language.mem_iSup.2 ⟨⟨#[1, 3, 0]⟩, Language.append_mem_mul ⟨rfl, rfl⟩ ?_⟩
    rw [if_neg (not_not.2 ((version_eq_supported_iff rfl).2 rfl))]
    refine Language.mem_iSup.2 ⟨0, Language.mem_mul.2 ⟨[0], rfl, [], ?_, rfl⟩⟩
    rw [if_neg (not_not.2 rfl)]
    exact ⟨trivial, rfl⟩

theorem reads_readEncoding : readEncoding.Reads (Wire.encoding Varint.forms) :=
  (reads_readText _).map _

theorem reads_readLines :
    readLines.Reads fun lines => Wire.signed Varint.forms lines.1 *
      Wire.list Varint.forms Varint.forms lines.2.toList := by
  have same : readLines = readSignedVarint >>= fun startLine =>
      (readCount 1 >>= fun count => readMany count fun _ => readVarint) >>= fun lineOffsets =>
        pure (startLine, lineOffsets.toArray) := by
    simp only [bind_assoc]
    rfl
  rw [same]
  have lines : (readCount 1 >>= fun count => readMany count fun _ => readVarint).Reads
      (Wire.list Varint.forms Varint.forms) :=
    ((announces_readCount 1).reads (fun _ => reads_readVarint)
      fun _ _ => Varint.length_pos_of_mem_forms).congr fun _ => provided_mul_of (Nat.zero_le _)
  refine (Reads.whole (reads_readSignedVarint.field (fun record : Int32 × Array UInt32 => record.1)
    fun startLine => lines.lastField (fun record : Int32 × Array UInt32 => record.2.toList)
    fun lineOffsets => reads_record (startLine, lineOffsets.toArray) ?_)).congr fun _ => rfl
  rintro ⟨startLine', lineOffsets'⟩
  simp [← Array.toList_inj]

theorem reads_readHeading : readHeading.Reads (Wire.heading Varint.forms) := by
  refine (Reads.whole ((reads_readSignature.within _).field (fun _ : Heading => ()) fun _ =>
    (reads_readEncoding.within _).field Heading.encoding fun encoding =>
    (reads_readLines.lift.within _).lastField
      (fun heading : Heading => (heading.startLine, heading.lineOffsets))
      fun lines => reads_record (Heading.mk encoding lines.1 lines.2) ?_)).congr fun _ => rfl
  rintro ⟨⟩
  simp [Prod.ext_iff]

theorem reads_readPoolHeader : readPoolHeader.Reads (Wire.poolHeader Varint.forms) := by
  refine Reads.whole (reads_readUInt32.field PoolHeader.offset fun offset =>
    reads_readVarint.lastField PoolHeader.count fun count =>
      reads_record (PoolHeader.mk offset count) ?_)
  rintro ⟨⟩
  simp

theorem reads_readPreamble : readPreamble.Reads (Wire.preamble Varint.forms) := by
  refine (Reads.whole (reads_readHeading.field Preamble.heading fun heading =>
    reads_readRemarks.field Preamble.remarks fun remarks =>
    (reads_readPoolHeader.lift.within _).lastField Preamble.pool fun pool =>
      reads_record (Preamble.mk heading remarks pool) ?_)).congr fun preamble => ?_
  · rintro ⟨⟩
    simp [and_assoc]
  · simp only [Wire.preamble, mul_assoc]

/-- A preamble is read part by part. -/
theorem readPreamble_eq_ok_iff {buffer : ByteArray} {position stop : Nat} {preamble : Preamble} :
    readPreamble.runFrom buffer position = .ok preamble stop ↔
      ∃ middle place, readHeading.runFrom buffer position = .ok preamble.heading middle ∧
        readRemarks.runFrom buffer middle = .ok preamble.remarks place ∧
        readPoolHeader.runFrom buffer place = .ok preamble.pool stop := by
  have marked : ∀ place header stop,
      (within (.ofSection .constantPool) (liftM readPoolHeader)).runFrom buffer place =
          .ok header stop ↔ readPoolHeader.runFrom buffer place = .ok header stop :=
    fun _ _ _ => (mapError_eq_ok_iff _).trans (mapError_eq_ok_iff _)
  constructor
  · intro run
    obtain ⟨heading, middle, first, run⟩ := bind_eq_ok_iff.1 run
    obtain ⟨remarks, place, second, run⟩ := bind_eq_ok_iff.1 run
    obtain ⟨header, stop, third, finish⟩ := bind_eq_ok_iff.1 run
    cases finish
    exact ⟨middle, place, first, second, (marked place header _).1 third⟩
  · intro h
    obtain ⟨middle, place, first, second, third⟩ := h
    apply bind_eq_ok_iff.2 ⟨_, middle, first, ?_⟩
    apply bind_eq_ok_iff.2 ⟨_, place, second, ?_⟩
    exact bind_eq_ok_iff.2 ⟨_, stop, (marked place _ stop).2 third, rfl⟩

/-- Behind the nine bytes of the opening stands the name of the encoding. -/
theorem encoding_of_readPreamble {serialized : ByteArray} {preamble : Preamble} {position : Nat}
    (run : readPreamble.runFrom serialized 0 = .ok preamble position) :
    ∃ name, preamble.heading.encoding = .ofName name ∧
      ∃ bytes ∈ Wire.text Varint.forms name, StandsAt bytes serialized 9 := by
  obtain ⟨_, form, stands, -⟩ :=
    (reads_readPreamble serialized 0 (Nat.zero_le _) preamble position).1 run
  simp only [Wire.preamble, Wire.heading, mul_assoc] at form
  obtain ⟨_, rfl, _, behind, rfl⟩ := Language.mem_mul.1 form
  obtain ⟨bytes, named, _, -, rfl⟩ := Language.mem_mul.1 behind
  obtain ⟨name, same, text⟩ := mem_iSup_provided_mul.1 named
  exact ⟨name, same, bytes, text, (standsAt_append.1 (standsAt_append.1 stands).2).1⟩

/-- The encoding is the one whose name stands there. -/
theorem encoding_eq_ofName {serialized : ByteArray} {preamble : Preamble} {position : Nat}
    (run : readPreamble.runFrom serialized 0 = .ok preamble position) {name : String}
    {bytes : List UInt8} (form : bytes ∈ Wire.text Varint.forms name)
    (stands : StandsAt bytes serialized 9) : preamble.heading.encoding = .ofName name := by
  obtain ⟨declared, encoding, text, form', stands'⟩ := encoding_of_readPreamble run
  have same := (reads_readText "encoding name").unambiguous form stands form' stands'
  rw [encoding, same.1]

end Decoder

end PrismTree
