import PrismTree.Proofs.Serialize.Scalar
import PrismTree.Proofs.Wire.Preamble

/-!
# Writing a preamble

What stands in front of the pool header is written section by section.
-/
namespace PrismTree

theorem Varint.unzigzag_zigzag (n : Int32) : unzigzag (zigzag n) = n := by
  have low := n.le_toInt
  have high := n.toInt_lt
  apply Int32.toInt_inj.1
  by_cases positive : 0 ≤ n.toInt
  · have code : (zigzag n).toNat = (2 * n.toInt).toNat := by
      rw [zigzag, if_pos positive]
      exact UInt32.toNat_ofNat_of_lt' (by simp only [UInt32.size]; omega)
    rw [unzigzag, code, if_pos (by omega), Int32.toInt_ofInt_of_le (by omega) (by omega)]
    omega
  · have code : (zigzag n).toNat = (-2 * n.toInt - 1).toNat := by
      rw [zigzag, if_neg positive]
      exact UInt32.toNat_ofNat_of_lt' (by simp only [UInt32.size]; omega)
    rw [unzigzag, code, if_neg (by omega), Int32.toInt_ofInt_of_le (by omega) (by omega)]
    omega

namespace Serialize

/-- Write a comment. -/
def comment (comment : Comment) : List UInt8 :=
  [comment.kind.toByte] ++ location comment.location

/-- Write a magic comment. -/
def magicComment (comment : MagicComment) : List UInt8 :=
  location comment.key ++ location comment.value

/-- Write a diagnostic. -/
def diagnostic (code : UInt32) (message : String) (span : Location) (level : UInt8) :
    List UInt8 :=
  Varint.encode code ++ text message ++ location span ++ [level]

/-- Write an error. -/
def error (error : SyntaxError) : List UInt8 :=
  diagnostic error.type.code error.message error.location error.level.toByte

/-- Write a warning. -/
def warning (warning : SyntaxWarning) : List UInt8 :=
  diagnostic warning.type.code warning.message warning.location warning.level.toByte

/-- Write the remarks, section by section. -/
def remarks (remarks : Remarks) : List UInt8 :=
  list comment remarks.comments ++ list magicComment remarks.magicComments ++
    optionalLocation remarks.dataLocation ++ list error remarks.errors ++
    list warning remarks.warnings

/-- Write a heading with the name of an encoding. -/
def heading (encoding : String) (startLine : Int32) (lineOffsets : List UInt32) : List UInt8 :=
  (signature ++ [1, 3, 0] ++ [0]) ++
    (text encoding ++ (Varint.encodeSigned startLine ++ list Varint.encode lineOffsets))

/-- Write the place of the pool. -/
def poolHeader (header : PoolHeader) : List UInt8 :=
  Bytes.ofNat 4 header.offset.toNat ++ Varint.encode header.count

theorem shortest (n : UInt32) : Varint.encode n ∈ Varint.forms n :=
  Varint.encode_mem_forms n

theorem location_ne_nil (span : Location) : location span ≠ [] :=
  List.append_ne_nil_of_left_ne_nil (Varint.encode_ne_nil _) _

theorem diagnostic_ne_nil (code : UInt32) (message : String) (span : Location) (level : UInt8) :
    diagnostic code message span level ≠ [] :=
  List.append_ne_nil_of_right_ne_nil _ (List.cons_ne_nil _ _)

theorem diagnostic_isForm (code : UInt32) (message : String) (span : Location) (level : UInt8) :
    FormIfShort (diagnostic code message span level)
      (Wire.diagnostic Varint.forms code message span level) :=
  (((FormIfShort.of_mem (shortest code)).append (text_isForm shortest message)).append
    (.of_mem (location_mem shortest span))).append (.of_mem (mem_spelling.2 rfl))

theorem remarks_isForm (remarks : Remarks) :
    FormIfShort (Serialize.remarks remarks) (Wire.remarks Varint.forms remarks) := by
  have comments : FormIfShort (list comment remarks.comments)
      (Wire.list Varint.forms (Wire.comment Varint.forms) remarks.comments) :=
    list_isForm shortest (fun _ _ => List.cons_ne_nil _ _) fun comment _ =>
      .of_mem (Language.append_mem_mul (mem_spelling.2 rfl) (location_mem shortest _))
  have magicComments : FormIfShort (list magicComment remarks.magicComments)
      (Wire.list Varint.forms (Wire.magicComment Varint.forms) remarks.magicComments) :=
    list_isForm shortest
      (fun _ _ => List.append_ne_nil_of_left_ne_nil (location_ne_nil _) _) fun comment _ =>
      .of_mem (Language.append_mem_mul (location_mem shortest _) (location_mem shortest _))
  have errors : FormIfShort (list error remarks.errors)
      (Wire.list Varint.forms (Wire.error Varint.forms) remarks.errors) :=
    list_isForm shortest (fun _ _ => diagnostic_ne_nil _ _ _ _)
      fun _ _ => diagnostic_isForm _ _ _ _
  have warnings : FormIfShort (list warning remarks.warnings)
      (Wire.list Varint.forms (Wire.warning Varint.forms) remarks.warnings) :=
    list_isForm shortest (fun _ _ => diagnostic_ne_nil _ _ _ _)
      fun _ _ => diagnostic_isForm _ _ _ _
  exact (((comments.append magicComments).append
    (.of_mem (optionalLocation_mem shortest _))).append errors).append warnings

theorem heading_isForm (encoding : String) (startLine : Int32) (lineOffsets : List UInt32) :
    FormIfShort (heading encoding startLine lineOffsets)
      (Wire.heading Varint.forms ⟨.ofName encoding, startLine, lineOffsets.toArray⟩) := by
  have name : FormIfShort (text encoding) (Wire.encoding Varint.forms (.ofName encoding)) :=
    fun short => mem_iSup_provided_mul.2
      ⟨encoding, rfl, text_isForm shortest encoding short⟩
  have start : Varint.encodeSigned startLine ∈ Wire.signed Varint.forms startLine :=
    mem_iSup_provided_mul.2 ⟨_, (Varint.unzigzag_zigzag startLine).symm, shortest _⟩
  have offsets : FormIfShort (list Varint.encode lineOffsets)
      (Wire.list Varint.forms Varint.forms lineOffsets) :=
    list_isForm shortest (fun n _ => Varint.encode_ne_nil n) fun n _ => .of_mem (shortest n)
  exact (FormIfShort.of_mem (mem_spelling.2 rfl)).append
    (name.append ((FormIfShort.of_mem start).append offsets))

theorem poolHeader_mem (header : PoolHeader) :
    poolHeader header ∈ Wire.poolHeader Varint.forms header :=
  Language.append_mem_mul (mem_spelling.2 rfl) (shortest _)

end Serialize

end PrismTree
