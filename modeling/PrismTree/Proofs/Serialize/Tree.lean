import PrismTree.Proofs.Serialize.Scalar
import PrismTree.Proofs.Wire.Grammar

/-!
# Writing a tree

A tree is written node by node. The word in a method definition counts bytes that are written after
it, so it is filled in when these are known. A serializer has some freedom with strings and
integers; the forms that follow the reference are all that it may write, the serializer given here
writes one of them, and every one of them is accepted.
-/
namespace PrismTree

namespace Serialize

/-- Write a datum, with strings embedded. -/
def datum : {kind : DatumKind} → Datum kind → List UInt8
  | _, .constant id => Varint.encode id.index
  | _, .optConstant none => [0]
  | _, .optConstant (some id) => Varint.encode id.index
  | _, .constants ids => list (fun id => Varint.encode id.index) ids
  | _, .string bytes => [2] ++ embedded bytes.bytes
  | _, .integer value => integer value
  | _, .double value => Bytes.ofNat 8 value.bits.toNat
  | _, .uint32 value => Varint.encode value
  | _, .uint8 value => [value]

/-- Write a node whose flags and fields are written already. -/
def node (kind : Kind) (id : UInt32) (span : Location) (body : List UInt8) : List UInt8 :=
  let head := Varint.encode id ++ location span
  let word := if kind = .defNode then Bytes.ofNat 4 (head.length + body.length) else []
  kind.tag :: (head ++ (word ++ body))

end Serialize

mutual

/-- Write a tree. -/
def Node.serialize : Node → List UInt8
  | ⟨kind, id, span, flags, _, fields⟩ =>
    Serialize.node kind id span (Varint.encode flags.bits.toUInt32 ++ fields.serialize)

/-- Write fields in order. -/
def Fields.serialize : {layout : List Field} → Fields layout → List UInt8
  | _, .nil => []
  | _, .cons value rest => value.serialize ++ rest.serialize

/-- Write a field. -/
def Value.serialize : {kind : FieldKind} → Value kind → List UInt8
  | _, .node child => child.serialize
  | _, .optNode none => [0]
  | _, .optNode (some child) => child.serialize
  | _, .nodes children => Serialize.count children.length ++ Node.serializeAll children
  | _, .datum content => Serialize.datum content

/-- Write trees in sequence. -/
def Node.serializeAll : List Node → List UInt8
  | [] => []
  | node :: rest => node.serialize ++ Node.serializeAll rest

end

theorem Node.serialize_ne_nil (node : Node) : node.serialize ≠ [] := by
  obtain ⟨kind, id, span, flags, newline, fields⟩ := node
  rw [Node.serialize]
  exact List.cons_ne_nil _ _

theorem Node.serializeAll_eq (nodes : List Node) :
    Node.serializeAll nodes = nodes.flatMap Node.serialize := by
  induction nodes with
  | nil => rfl
  | cons node rest ih => rw [Node.serializeAll, ih, List.flatMap_cons]

namespace Serialize

variable {source : ByteArray}

theorem datum_isForm {kind : DatumKind} (content : Datum kind) :
    FormIfShort (datum content) (content.forms (.reference source)) := by
  have shortest : ∀ n, Varint.encode n ∈ (Rules.reference source).varint n :=
    fun n => mem_spelling.2 rfl
  cases content with
  | constant id => exact .of_mem (shortest id.index)
  | optConstant id? =>
    cases id? with
    | none => exact .of_mem (mem_spelling.2 rfl)
    | some id =>
      exact .of_mem ⟨shortest id.index, Varint.head?_encode_ne_zero id.index_ne_zero⟩
  | constants ids =>
    exact list_isForm shortest (fun id _ => Varint.encode_ne_nil id.index)
      fun id _ => .of_mem (shortest id.index)
  | string bytes =>
    intro short
    refine Or.inr (FormIfShort.append (.of_mem (mem_spelling.2 rfl))
      (embedded_isForm shortest bytes.bytes) short)
  | integer value => exact integer_isForm shortest value
  | double value => exact .of_mem (mem_spelling.2 rfl)
  | uint32 value => exact .of_mem (shortest value)
  | uint8 value => exact .of_mem (mem_spelling.2 rfl)

variable {kind : Kind} {id : UInt32} {span : Location} {body : List UInt8}
  {forms : Language UInt8}

theorem frame_mem {declared? : Option UInt32} {word : List UInt8}
    (declares : word ∈ Wire.defLength kind declared?) (written : body ∈ forms) :
    kind.tag :: (Varint.encode id ++ location span ++ (word ++ body)) ∈
      Wire.frame (.reference source) kind id span declared? forms := by
  have number : Varint.encode id ∈ (Rules.reference source).varint id := mem_spelling.2 rfl
  have place : location span ∈ Wire.location (Rules.reference source).varint span :=
    location_mem (fun n => mem_spelling.2 rfl) span
  rw [Wire.frame, mul_assoc, mul_assoc, mul_assoc, List.append_assoc]
  exact Language.append_mem_mul (mem_spelling.2 rfl) (Language.append_mem_mul number
    (Language.append_mem_mul place (Language.append_mem_mul declares written)))

/-- The word of a method definition is right: it counts what stands around it, not itself. -/
theorem node_isForm (written : FormIfShort body forms) :
    FormIfShort (node kind id span body) (Wire.node (.reference source) kind id span forms) := by
  intro short
  rw [node] at short ⊢
  simp only [List.length_cons, List.length_append] at short
  have whole := written (by omega)
  simp only [Wire.node, Language.mem_iSup, mem_stringsWith]
  by_cases definition : kind = .defNode
  · have small : (Varint.encode id ++ location span).length + body.length < 2 ^ 32 := by
      rw [List.length_append]
      omega
    have word := UInt32.toNat_ofNat_of_lt' small
    rw [if_pos definition]
    refine ⟨some (UInt32.ofNat ((Varint.encode id ++ location span).length + body.length)),
      frame_mem (mem_provided_mul.2 ⟨definition, by rw [mem_spelling, word]⟩) whole, ?_⟩
    rintro _ ⟨⟩ -
    rw [word]
    simp only [List.length_cons, List.length_append, Bytes.length_ofNat]
    omega
  · rw [if_neg definition]
    exact ⟨none, frame_mem ⟨definition, rfl⟩ whole, fun _ missing => by cases missing⟩

end Serialize

variable {source : ByteArray}

mutual

/-- The serializer follows the reference. -/
theorem Node.serialize_isForm : (node : Node) →
    FormIfShort node.serialize (node.forms (.reference source))
  | ⟨kind, id, span, flags, newline, fields⟩ => by
    rw [Node.serialize, Node.forms]
    exact Serialize.node_isForm (.append (.of_mem (mem_spelling.2 rfl)) fields.serialize_isForm)

theorem Fields.serialize_isForm : {layout : List Field} → (fields : Fields layout) →
    FormIfShort fields.serialize (fields.forms (.reference source))
  | _, .nil => .of_mem (mem_spelling.2 rfl)
  | _, .cons value rest => value.serialize_isForm.append rest.serialize_isForm

theorem Value.serialize_isForm : {kind : FieldKind} → (value : Value kind) →
    FormIfShort value.serialize (value.forms (.reference source))
  | _, .node child => child.serialize_isForm
  | _, .optNode none => .of_mem (mem_spelling.2 rfl)
  | _, .optNode (some child) => child.serialize_isForm
  | _, .nodes children => by
    intro short
    have enough : children.length ≤ (children.flatMap Node.serialize).length :=
      Serialize.length_le_length_flatMap fun child _ => child.serialize_ne_nil
    rw [Value.serialize, List.length_append, Node.serializeAll_eq] at short
    refine Language.append_mem_mul
      (Serialize.count_mem (fun n => mem_spelling.2 rfl) (by omega)) ?_
    refine Node.serializeAll_isForm children ?_
    rw [Node.serializeAll_eq]
    omega
  | _, .datum content => Serialize.datum_isForm content

theorem Node.serializeAll_isForm : (nodes : List Node) →
    FormIfShort (Node.serializeAll nodes) (Node.formsAll (.reference source) nodes)
  | [] => .of_mem (mem_spelling.2 rfl)
  | node :: rest => node.serialize_isForm.append (Node.serializeAll_isForm rest)

end

end PrismTree
