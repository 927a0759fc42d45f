import PrismTree.Proofs.Node.Shape
import PrismTree.Proofs.Wire.Scalar

/-!
# The grammar of trees

The forms of a node are given by recursion on the node: its tag, its id, its span, its flags and its
fields in the order of the layout. A method definition carries its own length as well, so its forms
are not a product but a condition on the whole.
-/
namespace PrismTree

/-- The rules of a grammar of trees: which forms a number has, which source is quoted, and whether
the lengths of method definitions have to be right. -/
structure Rules where
  varint : UInt32 → Language UInt8
  source : ByteArray
  checked : Bool

namespace Rules

/-- What is accepted. -/
def wire (source : ByteArray) (checked : Bool) : Rules :=
  ⟨Varint.forms, source, checked⟩

/-- What a serializer may write: the shortest form of each number, and the right lengths. -/
def reference (source : ByteArray) : Rules :=
  ⟨fun n => {Varint.encode n}, source, true⟩

/-- The forms of an index. -/
def constant (rules : Rules) (id : ConstantId) : Language UInt8 :=
  rules.varint id.index

end Rules

/-- The forms of a datum. -/
def Datum.forms (rules : Rules) : {kind : DatumKind} → Datum kind → Language UInt8
  | _, .constant id => rules.constant id
  | _, .optConstant id => Wire.optional rules.constant id
  | _, .constants ids => Wire.list rules.varint rules.constant ids
  | _, .string bytes => Wire.string rules.varint rules.source bytes
  | _, .integer value => Wire.integer rules.varint value
  | _, .double value => {Bytes.ofNat 8 value.bits.toNat}
  | _, .uint32 value => rules.varint value
  | _, .uint8 value => {[value]}

namespace Wire

/-- The word that a method definition carries behind its span; no other kind has one. -/
def defLength (kind : Kind) : Option UInt32 → Language UInt8
  | none => provided (kind ≠ .defNode)
  | some declared => provided (kind = .defNode) * {Bytes.ofNat 4 declared.toNat}

/-- The parts of a node in order, up to its flags and fields, which have the given forms. -/
def frame (rules : Rules) (kind : Kind) (id : UInt32) (span : Location)
    (declared? : Option UInt32) (body : Language UInt8) : Language UInt8 :=
  {[kind.tag]} * rules.varint id * location rules.varint span * defLength kind declared? * body

/-- The forms of a node. The word of a method definition is the number of its bytes, the tag and the
word itself not counted. -/
def node (rules : Rules) (kind : Kind) (id : UInt32) (span : Location) (body : Language UInt8) :
    Language UInt8 :=
  ⨆ declared? : Option UInt32, stringsWith fun bytes =>
    bytes ∈ frame rules kind id span declared? body ∧
      ∀ declared ∈ declared?, rules.checked → bytes.length = declared.toNat + 5

end Wire

mutual

/-- The forms of a node. -/
def Node.forms (rules : Rules) : Node → Language UInt8
  | ⟨kind, id, span, flags, _, fields⟩ =>
    Wire.node rules kind id span (Wire.flags rules.varint flags * fields.forms rules)

/-- The forms of fields, in order. -/
def Fields.forms (rules : Rules) : {layout : List Field} → Fields layout → Language UInt8
  | _, .nil => 1
  | _, .cons value rest => value.forms rules * rest.forms rules

/-- The forms of a field. A zero byte stands for an absent node; no tag is zero. -/
def Value.forms (rules : Rules) : {kind : FieldKind} → Value kind → Language UInt8
  | _, .node child => child.forms rules
  | _, .optNode none => {[0]}
  | _, .optNode (some child) => child.forms rules
  | _, .nodes children => Wire.count rules.varint children.length * Node.formsAll rules children
  | _, .datum content => content.forms rules

/-- The forms of nodes in sequence. -/
def Node.formsAll (rules : Rules) : List Node → Language UInt8
  | [] => 1
  | node :: rest => node.forms rules * Node.formsAll rules rest

end

variable {rules : Rules} {node : Node} {bytes : List UInt8}

/-- The forms of what follows the tag of a node. -/
def Node.parts (rules : Rules) (node : Node) (declared? : Option UInt32) : Language UInt8 :=
  rules.varint node.id * (Wire.location rules.varint node.location *
    (Wire.defLength node.kind declared? *
      (Wire.flags rules.varint node.flags * node.fields.forms rules)))

/-- A node is its tag and what follows it. -/
theorem Node.mem_forms_iff :
    bytes ∈ node.forms rules ↔ ∃ declared?, ∃ rest ∈ node.parts rules declared?,
      bytes = node.kind.tag :: rest ∧
        ∀ declared ∈ declared?, rules.checked → bytes.length = declared.toNat + 5 := by
  obtain ⟨kind, id, span, flags, newline, fields⟩ := node
  simp only [Node.forms, Wire.node, Wire.frame, mul_assoc, Language.mem_iSup, mem_stringsWith]
  refine exists_congr fun declared? => ?_
  constructor
  · rintro ⟨framed, length⟩
    obtain ⟨xs, rfl, rest, parts, rfl⟩ := Language.mem_mul.1 framed
    exact ⟨rest, parts, rfl, length⟩
  · intro h
    obtain ⟨rest, parts, rfl, length⟩ := h
    exact ⟨Language.mem_mul.2 ⟨_, rfl, rest, parts, rfl⟩, length⟩

theorem Node.head?_of_mem_forms (form : bytes ∈ node.forms rules) :
    bytes.head? = some node.kind.tag := by
  obtain ⟨declared?, rest, -, rfl, -⟩ := Node.mem_forms_iff.1 form
  rfl

theorem Node.head?_ne_zero_of_mem_forms (form : bytes ∈ node.forms rules) :
    bytes.head? ≠ some 0 := by
  rw [head?_of_mem_forms form]
  exact fun zero => node.kind.tag_ne_zero (Option.some.inj zero)

/-- Four numbers at least follow the tag, and then the fields. -/
theorem Node.add_le_length_of_mem_parts {declared? : Option UInt32} {fields : Nat}
    (numbers : ∀ n, ∀ bytes ∈ rules.varint n, 1 ≤ bytes.length)
    (behind : ∀ bytes ∈ node.fields.forms rules, fields ≤ bytes.length)
    (parts : bytes ∈ node.parts rules declared?) : 4 + fields ≤ bytes.length := by
  have any : ∀ bytes ∈ Wire.defLength node.kind declared?, 0 ≤ bytes.length :=
    fun _ _ => Nat.zero_le _
  have place := add_le_length_of_mem_mul (numbers node.location.start)
    (numbers node.location.length)
  have body := add_le_length_of_mem_mul (numbers node.flags.bits.toUInt32) behind
  have whole := add_le_length_of_mem_mul (numbers node.id) (add_le_length_of_mem_mul place
    (add_le_length_of_mem_mul any body)) bytes parts
  omega

theorem Node.four_le_length_of_mem_parts {declared? : Option UInt32}
    (numbers : ∀ n, ∀ bytes ∈ rules.varint n, 1 ≤ bytes.length)
    (parts : bytes ∈ node.parts rules declared?) : 4 ≤ bytes.length :=
  add_le_length_of_mem_parts numbers (fun _ _ => Nat.zero_le _) parts

theorem Node.minSize_le_of_mem_forms
    (numbers : ∀ n, ∀ bytes ∈ rules.varint n, 1 ≤ bytes.length) (form : bytes ∈ node.forms rules) :
    Node.minSize ≤ bytes.length := by
  obtain ⟨declared?, rest, parts, rfl, -⟩ := Node.mem_forms_iff.1 form
  exact Nat.succ_le_succ (four_le_length_of_mem_parts numbers parts)

end PrismTree
