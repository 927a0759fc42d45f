import PrismTree.Proofs.Load.Success
import PrismTree.Proofs.Wire.Placement
import PrismTree.Proofs.Wire.Preamble

/-!
# Records as they are written

The sections in front of the tree, with every number as it stands on the wire: kinds, types and
levels are not interpreted yet, and neither is the name of the encoding. Any such sections can be
written down; they are read exactly if each kind, type and level is one of those that have a
meaning, and what is read is then one record for each that was written, in the same order.
-/
namespace PrismTree

/-- A comment with the byte that tells its kind. -/
structure WrittenComment where
  kind : UInt8
  location : Location

/-- An error or a warning with the number of its type and the byte of its level. -/
structure WrittenDiagnostic where
  code : UInt32
  message : String
  location : Location
  level : UInt8

/-- The sections in front of the tree. The number of the first line is in its zig-zag form. -/
structure WrittenPreamble where
  encodingName : String
  startLine : UInt32
  lineOffsets : List UInt32
  comments : List WrittenComment
  magicComments : List MagicComment
  dataLocation : Option Location
  errors : List WrittenDiagnostic
  warnings : List WrittenDiagnostic
  pool : PoolHeader

namespace WrittenComment

/-- There are two kinds of comments. -/
def IsValid (written : WrittenComment) : Prop :=
  written.kind = 0 ∨ written.kind = 1

/-- The forms of a comment. -/
def forms (written : WrittenComment) : Language UInt8 :=
  {[written.kind]} * Wire.location Varint.forms written.location

end WrittenComment

namespace WrittenDiagnostic

/-- The forms of a diagnostic. -/
def forms (written : WrittenDiagnostic) : Language UInt8 :=
  Wire.diagnostic Varint.forms written.code written.message written.location written.level

/-- There are 289 types of errors, and three levels. -/
def IsValidError (written : WrittenDiagnostic) : Prop :=
  written.code.toNat ≤ 288 ∧ (written.level = 0 ∨ written.level = 1 ∨ written.level = 2)

/-- There are 30 types of warnings, which are numbered after the errors, and two levels. -/
def IsValidWarning (written : WrittenDiagnostic) : Prop :=
  (289 ≤ written.code.toNat ∧ written.code.toNat ≤ 318) ∧ (written.level = 0 ∨ written.level = 1)

end WrittenDiagnostic

/-- The record that stands for a comment. -/
def Comment.written (comment : Comment) : WrittenComment :=
  ⟨comment.kind.toByte, comment.location⟩

/-- The record that stands for an error. -/
def SyntaxError.written (error : SyntaxError) : WrittenDiagnostic :=
  ⟨.ofNat error.type.index, error.message, error.location, error.level.toByte⟩

/-- The record that stands for a warning. -/
def SyntaxWarning.written (warning : SyntaxWarning) : WrittenDiagnostic :=
  ⟨.ofNat (289 + warning.type.index), warning.message, warning.location, warning.level.toByte⟩

theorem CommentKind.exists_toByte_iff {byte : UInt8} :
    (∃ kind : CommentKind, kind.toByte = byte) ↔ byte = 0 ∨ byte = 1 := by
  constructor
  · rintro ⟨kind, rfl⟩
    cases kind <;> decide
  · rintro (rfl | rfl)
    · exact ⟨.inline, rfl⟩
    · exact ⟨.embDoc, rfl⟩

theorem ErrorLevel.exists_toByte_iff {byte : UInt8} :
    (∃ level : ErrorLevel, level.toByte = byte) ↔ byte = 0 ∨ byte = 1 ∨ byte = 2 := by
  constructor
  · rintro ⟨level, rfl⟩
    cases level <;> decide
  · rintro (rfl | rfl | rfl)
    · exact ⟨.ordinary, rfl⟩
    · exact ⟨.argument, rfl⟩
    · exact ⟨.load, rfl⟩

theorem WarningLevel.exists_toByte_iff {byte : UInt8} :
    (∃ level : WarningLevel, level.toByte = byte) ↔ byte = 0 ∨ byte = 1 := by
  constructor
  · rintro ⟨level, rfl⟩
    cases level <;> decide
  · rintro (rfl | rfl)
    · exact ⟨.always, rfl⟩
    · exact ⟨.verbose, rfl⟩

theorem ErrorType.exists_code_iff {code : UInt32} :
    (∃ type : ErrorType, type.code = code) ↔ code.toNat ≤ 288 := by
  have known := ofCode?_isSome_iff code
  simp only [Option.isSome_iff_exists, ErrorType.ofCode?_eq_some_iff, count] at known
  simp only [eq_comm, known]
  omega

theorem WarningType.exists_code_iff {code : UInt32} :
    (∃ type : WarningType, type.code = code) ↔ 289 ≤ code.toNat ∧ code.toNat ≤ 318 := by
  have known := ofCode?_isSome_iff code
  simp only [Option.isSome_iff_exists, ofCode?_eq_some_iff, firstCode, ErrorType.count,
    count] at known
  simp only [eq_comm, known]
  omega

theorem Comment.exists_written_iff {written : WrittenComment} :
    (∃ comment : Comment, comment.written = written) ↔ written.IsValid := by
  rw [WrittenComment.IsValid, ← CommentKind.exists_toByte_iff]
  constructor
  · rintro ⟨comment, rfl⟩
    exact ⟨comment.kind, rfl⟩
  · rintro ⟨kind, same⟩
    refine ⟨⟨kind, written.location⟩, ?_⟩
    rw [Comment.written, same]

theorem SyntaxError.exists_written_iff {written : WrittenDiagnostic} :
    (∃ error : SyntaxError, error.written = written) ↔ written.IsValidError := by
  rw [WrittenDiagnostic.IsValidError, ← ErrorType.exists_code_iff, ← ErrorLevel.exists_toByte_iff]
  constructor
  · rintro ⟨error, rfl⟩
    exact ⟨⟨error.type, rfl⟩, error.level, rfl⟩
  · rintro ⟨⟨type, code⟩, level, byte⟩
    refine ⟨⟨type, written.message, written.location, level⟩, ?_⟩
    obtain ⟨code', message, location, level'⟩ := written
    subst code byte
    rfl

theorem SyntaxWarning.exists_written_iff {written : WrittenDiagnostic} :
    (∃ warning : SyntaxWarning, warning.written = written) ↔ written.IsValidWarning := by
  rw [WrittenDiagnostic.IsValidWarning, ← WarningType.exists_code_iff,
    ← WarningLevel.exists_toByte_iff]
  constructor
  · rintro ⟨warning, rfl⟩
    exact ⟨⟨warning.type, rfl⟩, warning.level, rfl⟩
  · rintro ⟨⟨type, code⟩, level, byte⟩
    refine ⟨⟨type, written.message, written.location, level⟩, ?_⟩
    obtain ⟨code', message, location, level'⟩ := written
    subst code byte
    rfl

/-- A list can be read if each of its records can. -/
theorem exists_map_eq_iff {α β : Type} {f : α → β} {valid : β → Prop}
    (each : ∀ item, (∃ value, f value = item) ↔ valid item) (items : List β) :
    (∃ values : List α, values.map f = items) ↔ ∀ item ∈ items, valid item := by
  have range := Set.ext_iff.1 (Set.range_list_map f) items
  simpa only [Set.mem_range, Set.mem_ofPred_eq, each] using range

namespace WrittenPreamble

/-- Kinds, types and levels have a meaning. -/
structure IsValid (written : WrittenPreamble) : Prop where
  comments : ∀ comment ∈ written.comments, comment.IsValid
  errors : ∀ error ∈ written.errors, error.IsValidError
  warnings : ∀ warning ∈ written.warnings, warning.IsValidWarning

/-- The forms of the sections in sequence. -/
def forms (written : WrittenPreamble) : Language UInt8 :=
  {[0x50, 0x52, 0x49, 0x53, 0x4D, 1, 3, 0, 0]} *
    (Wire.text Varint.forms written.encodingName *
      (Varint.forms written.startLine *
        Wire.list Varint.forms Varint.forms written.lineOffsets)) *
    (Wire.list Varint.forms WrittenComment.forms written.comments *
      Wire.list Varint.forms (Wire.magicComment Varint.forms) written.magicComments *
      Wire.optionalLocation Varint.forms written.dataLocation *
      Wire.list Varint.forms WrittenDiagnostic.forms written.errors *
      Wire.list Varint.forms WrittenDiagnostic.forms written.warnings) *
    ({Bytes.ofNat 4 written.pool.offset.toNat} * Varint.forms written.pool.count)

end WrittenPreamble

namespace Preamble

/-- One record was read for each that is written, in order, and the rest is what is written. -/
structure IsWrittenAs (preamble : Preamble) (written : WrittenPreamble) : Prop where
  encoding : preamble.heading.encoding = .ofName written.encodingName
  startLine : preamble.heading.startLine = Varint.unzigzag written.startLine
  lineOffsets : preamble.heading.lineOffsets.toList = written.lineOffsets
  comments : preamble.remarks.comments.map Comment.written = written.comments
  magicComments : preamble.remarks.magicComments = written.magicComments
  dataLocation : preamble.remarks.dataLocation = written.dataLocation
  errors : preamble.remarks.errors.map SyntaxError.written = written.errors
  warnings : preamble.remarks.warnings.map SyntaxWarning.written = written.warnings
  pool : preamble.pool = written.pool

/-- Whatever is valid as it is written stands for a preamble. -/
theorem exists_isWrittenAs_iff {written : WrittenPreamble} :
    (∃ preamble : Preamble, preamble.IsWrittenAs written) ↔ written.IsValid := by
  have comments := exists_map_eq_iff (fun _ => Comment.exists_written_iff) written.comments
  have errors := exists_map_eq_iff (fun _ => SyntaxError.exists_written_iff) written.errors
  have warnings := exists_map_eq_iff (fun _ => SyntaxWarning.exists_written_iff) written.warnings
  constructor
  · intro h
    obtain ⟨preamble, same⟩ := h
    exact ⟨comments.1 ⟨_, same.comments⟩, errors.1 ⟨_, same.errors⟩,
      warnings.1 ⟨_, same.warnings⟩⟩
  · intro valid
    obtain ⟨comments, hcomments⟩ := comments.2 valid.comments
    obtain ⟨errors, herrors⟩ := errors.2 valid.errors
    obtain ⟨warnings, hwarnings⟩ := warnings.2 valid.warnings
    exact ⟨⟨⟨.ofName written.encodingName, Varint.unzigzag written.startLine,
      written.lineOffsets.toArray⟩, ⟨comments, written.magicComments, written.dataLocation, errors,
      warnings⟩, written.pool⟩, rfl, rfl, rfl, hcomments, rfl, rfl, herrors, hwarnings, rfl⟩

/-- A list of records is spelled as what stands for them. -/
theorem list_map {α β : Type} (f : α → β) (forms : β → Language UInt8) (values : List α) :
    Wire.list Varint.forms forms (values.map f) =
      Wire.list Varint.forms (fun value => forms (f value)) values := by
  rw [Wire.list, Wire.list, List.length_map, List.map_map]
  rfl

/-- The forms of a preamble are those of all that it may be written as. -/
theorem mem_forms_iff {preamble : Preamble} {bytes : List UInt8} :
    bytes ∈ Wire.preamble Varint.forms preamble ↔
      ∃ written, preamble.IsWrittenAs written ∧ bytes ∈ WrittenPreamble.forms written := by
  have comments := list_map Comment.written WrittenComment.forms preamble.remarks.comments
  have errors := list_map SyntaxError.written WrittenDiagnostic.forms preamble.remarks.errors
  have warnings := list_map SyntaxWarning.written WrittenDiagnostic.forms
    preamble.remarks.warnings
  constructor
  · intro form
    obtain ⟨_, front, pool, hpool, rfl⟩ := Language.mem_mul.1 form
    obtain ⟨_, heading, remarks, hremarks, rfl⟩ := Language.mem_mul.1 front
    obtain ⟨first, hfirst, _, behind, rfl⟩ := Language.mem_mul.1 heading
    obtain ⟨_, named, _, lines, rfl⟩ := Language.mem_mul.1 behind
    obtain ⟨_, signed, offsets, hoffsets, rfl⟩ := Language.mem_mul.1 lines
    obtain ⟨name, encoding, hname⟩ := mem_iSup_provided_mul.1 named
    obtain ⟨code, startLine, hcode⟩ := mem_iSup_provided_mul.1 signed
    refine ⟨⟨name, code, preamble.heading.lineOffsets.toList, _, preamble.remarks.magicComments,
      preamble.remarks.dataLocation, _, _, preamble.pool⟩,
      ⟨encoding, startLine, rfl, rfl, rfl, rfl, rfl, rfl, rfl⟩, ?_⟩
    rw [WrittenPreamble.forms, comments, errors, warnings]
    have head := Language.append_mem_mul hfirst
      (Language.append_mem_mul hname (Language.append_mem_mul hcode hoffsets))
    exact Language.append_mem_mul (Language.append_mem_mul head hremarks) hpool
  · intro h
    obtain ⟨⟨name, code, _, _, _, _, _, _, _⟩, same, form⟩ := h
    obtain ⟨encoding, startLine, rfl, rfl, rfl, rfl, rfl, rfl, rfl⟩ := same
    rw [WrittenPreamble.forms, comments, errors, warnings] at form
    obtain ⟨_, front, pool, hpool, rfl⟩ := Language.mem_mul.1 form
    obtain ⟨_, heading, remarks, hremarks, rfl⟩ := Language.mem_mul.1 front
    obtain ⟨first, hfirst, _, behind, rfl⟩ := Language.mem_mul.1 heading
    obtain ⟨_, hname, _, lines, rfl⟩ := Language.mem_mul.1 behind
    obtain ⟨_, hcode, offsets, hoffsets, rfl⟩ := Language.mem_mul.1 lines
    have named : _ ∈ Wire.encoding Varint.forms preamble.heading.encoding :=
      mem_iSup_provided_mul.2 ⟨name, encoding, hname⟩
    have signed : _ ∈ Wire.signed Varint.forms preamble.heading.startLine :=
      mem_iSup_provided_mul.2 ⟨code, startLine, hcode⟩
    have head := Language.append_mem_mul hfirst
      (Language.append_mem_mul named (Language.append_mem_mul signed hoffsets))
    exact Language.append_mem_mul (Language.append_mem_mul head hremarks) hpool

end Preamble

namespace Decoder

variable {serialized : ByteArray} {stop : Nat} {preamble : Preamble} {written : WrittenPreamble}

/-- A preamble is read up to a position if something that it may be written as ends there. -/
theorem readPreamble_eq_ok_iff_written :
    readPreamble.runFrom serialized 0 = .ok preamble stop ↔
      ∃ written, preamble.IsWrittenAs written ∧
        StandsBetween written.forms serialized 0 stop := by
  rw [reads_readPreamble serialized 0 (Nat.zero_le _) preamble stop]
  constructor
  · intro h
    obtain ⟨bytes, form, stands⟩ := h
    obtain ⟨written, same, form⟩ := Preamble.mem_forms_iff.1 form
    exact ⟨written, same, bytes, form, stands⟩
  · intro h
    obtain ⟨written, same, bytes, form, stands⟩ := h
    exact ⟨bytes, Preamble.mem_forms_iff.2 ⟨written, same, form⟩, stands⟩

/-- Valid sections are read. -/
theorem readPreamble_of_written (valid : written.IsValid)
    (stands : StandsBetween written.forms serialized 0 stop) :
    ∃ preamble : Preamble, preamble.IsWrittenAs written ∧
      readPreamble.runFrom serialized 0 = .ok preamble stop := by
  obtain ⟨preamble, same⟩ := Preamble.exists_isWrittenAs_iff.2 valid
  exact ⟨preamble, same, readPreamble_eq_ok_iff_written.2 ⟨written, same, stands⟩⟩

/-- What is read is what is written. -/
theorem isWrittenAs_of_readPreamble
    (run : readPreamble.runFrom serialized 0 = .ok preamble stop) (valid : written.IsValid)
    (stands : StandsBetween written.forms serialized 0 stop) : preamble.IsWrittenAs written := by
  obtain ⟨preamble', same, run'⟩ := readPreamble_of_written valid stands
  rw [run, EStateM.Result.ok.injEq] at run'
  exact run'.1 ▸ same

end Decoder

/-- The stages in front of the tree succeed exactly behind sections that are written in a valid way,
and read the written records. A load that succeeds returns these, and a load behind such sections
fails in no reader of a section. -/
theorem stages_succeed_iff (serialized : ByteArray) :
    (∀ stop, (∃ heading remarks header middle place,
        Decoder.readHeading.runFrom serialized 0 = .ok heading middle ∧
        Decoder.readRemarks.runFrom serialized middle = .ok remarks place ∧
        Decoder.readPoolHeader.runFrom serialized place = .ok header stop) ↔
      ∃ written : WrittenPreamble, written.IsValid ∧
        StandsBetween written.forms serialized 0 stop) ∧
    (∀ heading remarks header middle place stop,
      Decoder.readHeading.runFrom serialized 0 = .ok heading middle ∧
        Decoder.readRemarks.runFrom serialized middle = .ok remarks place ∧
        Decoder.readPoolHeader.runFrom serialized place = .ok header stop →
      ∀ written : WrittenPreamble, written.IsValid →
        StandsBetween written.forms serialized 0 stop →
        (Preamble.mk heading remarks header).IsWrittenAs written) ∧
    (∀ source options result, load serialized source options = .ok result →
      ∃ (preamble : Preamble) (written : WrittenPreamble) (stop : Nat),
        preamble.IsWrittenAs written ∧ written.IsValid ∧
        StandsBetween written.forms serialized 0 stop ∧
        result = preamble.result source result.root result.constants) ∧
    ∀ (written : WrittenPreamble) (stop : Nat), written.IsValid →
      StandsBetween written.forms serialized 0 stop →
      ∃ preamble : Preamble, preamble.IsWrittenAs written ∧
        ∀ source options, load serialized source options =
          match ConstantPool.ofHeader preamble.heading.encoding serialized.size preamble.pool with
          | .error error => .error (error.within (.ofSection .constantPool))
          | .ok pool => preamble.outcome ⟨serialized, source, options⟩ stop pool := by
  have parts : ∀ heading remarks header stop,
      Decoder.readPreamble.runFrom serialized 0 = .ok ⟨heading, remarks, header⟩ stop ↔
        ∃ middle place, Decoder.readHeading.runFrom serialized 0 = .ok heading middle ∧
          Decoder.readRemarks.runFrom serialized middle = .ok remarks place ∧
          Decoder.readPoolHeader.runFrom serialized place = .ok header stop :=
    fun _ _ _ _ => Decoder.readPreamble_eq_ok_iff
  refine ⟨fun stop => ⟨fun h => ?_, fun h => ?_⟩, ?_, ?_, ?_⟩
  · obtain ⟨heading, remarks, header, stages⟩ := h
    have run := (parts heading remarks header stop).2 stages
    obtain ⟨written, same, stands⟩ := Decoder.readPreamble_eq_ok_iff_written.1 run
    exact ⟨written, Preamble.exists_isWrittenAs_iff.1 ⟨_, same⟩, stands⟩
  · obtain ⟨written, valid, stands⟩ := h
    obtain ⟨⟨heading, remarks, header⟩, -, run⟩ := Decoder.readPreamble_of_written valid stands
    exact ⟨heading, remarks, header, (parts heading remarks header stop).1 run⟩
  · intro heading remarks header middle place stop stages written valid stands
    have run := (parts heading remarks header stop).2 ⟨middle, place, stages⟩
    exact Decoder.isWrittenAs_of_readPreamble run valid stands
  · intro source options result loaded
    obtain ⟨preamble, stop, run, -, outcome⟩ := load_eq_ok_iff.1 loaded
    obtain ⟨written, same, stands⟩ := Decoder.readPreamble_eq_ok_iff_written.1 run
    have valid := Preamble.exists_isWrittenAs_iff.1 ⟨_, same⟩
    refine ⟨preamble, written, stop, same, valid, stands, ?_⟩
    obtain ⟨-, rfl⟩ | ⟨-, root, pool, -, rfl⟩ := outcome_eq_ok_iff.1 outcome <;> rfl
  · intro written stop valid stands
    obtain ⟨preamble, same, run⟩ := Decoder.readPreamble_of_written valid stands
    refine ⟨preamble, same, fun source options => ?_⟩
    have outcome := load_eq serialized source options
    rw [run] at outcome
    exact outcome

end PrismTree
