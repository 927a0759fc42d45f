import PrismTree.Proofs.Wire.Grammar

/-!
# Narrower grammars

A grammar with fewer forms of numbers, and with more checks, has fewer forms of everything. So the
forms that a serializer may write are accepted.
-/
namespace PrismTree

namespace Wire

variable {varint varint' : UInt32 → Language UInt8} (numbers : ∀ n, varint n ≤ varint' n) {α : Type}

include numbers

theorem count_mono (n : Nat) : count varint n ≤ count varint' n :=
  iSup_mono fun word => mul_le_mul' le_rfl (numbers word)

theorem list_mono {item item' : α → Language UInt8} (each : ∀ value, item value ≤ item' value)
    (items : List α) : list varint item items ≤ list varint' item' items := by
  refine mul_le_mul' (count_mono numbers _) ?_
  induction items with
  | nil => exact le_rfl
  | cons value rest ih => exact mul_le_mul' (each value) ih

omit numbers in
theorem optional_mono {item item' : α → Language UInt8} (each : ∀ value, item value ≤ item' value)
    (value? : Option α) : optional item value? ≤ optional item' value? := by
  cases value? with
  | none => exact le_rfl
  | some value => exact fun _ form => ⟨each value form.1, form.2⟩

theorem location_mono (span : Location) : location varint span ≤ location varint' span :=
  mul_le_mul' (numbers _) (numbers _)

theorem embedded_mono (bytes : ByteArray) : embedded varint bytes ≤ embedded varint' bytes :=
  mul_le_mul' (count_mono numbers _) le_rfl

theorem string_mono (source : ByteArray) (bytes : ByteString) :
    string varint source bytes ≤ string varint' source bytes := by
  refine add_le_add (iSup_mono fun span => ?_) (mul_le_mul' le_rfl (embedded_mono numbers _))
  exact mul_le_mul' le_rfl (mul_le_mul' le_rfl (location_mono numbers span))

theorem integer_mono (value : Int) : integer varint value ≤ integer varint' value :=
  iSup_mono fun _ => iSup_mono fun words =>
    mul_le_mul' le_rfl (mul_le_mul' le_rfl (list_mono numbers numbers words))

end Wire

/-- One grammar is narrower than another if its numbers have fewer forms and it checks all that the
other checks. -/
structure Rules.IsNarrower (rules rules' : Rules) : Prop where
  varint : ∀ n, rules.varint n ≤ rules'.varint n
  source : rules.source = rules'.source
  checked : rules'.checked = true → rules.checked = true

theorem Rules.isNarrower_reference (source : ByteArray) (checked : Bool) :
    (reference source).IsNarrower (wire source checked) := by
  refine ⟨fun n bytes shortest => ?_, rfl, fun _ => rfl⟩
  obtain rfl := mem_spelling.1 shortest
  exact Varint.encode_mem_forms n

variable {rules rules' : Rules}

theorem Datum.forms_mono (narrower : rules.IsNarrower rules') {kind : DatumKind}
    (datum : Datum kind) : datum.forms rules ≤ datum.forms rules' := by
  have constants : ∀ id, rules.constant id ≤ rules'.constant id :=
    fun id => narrower.varint id.index
  cases datum with
  | constant id => exact constants id
  | optConstant id? => exact Wire.optional_mono constants id?
  | constants ids => exact Wire.list_mono narrower.varint constants ids
  | string bytes =>
    rw [Datum.forms, Datum.forms, narrower.source]
    exact Wire.string_mono narrower.varint _ bytes
  | integer value => exact Wire.integer_mono narrower.varint value
  | double value => exact le_rfl
  | uint32 value => exact narrower.varint value
  | uint8 value => exact le_rfl

theorem Wire.node_mono (narrower : rules.IsNarrower rules') {kind : Kind} {id : UInt32}
    {span : Location} {body body' : Language UInt8} (below : body ≤ body') :
    Wire.node rules kind id span body ≤ Wire.node rules' kind id span body' := by
  refine iSup_mono fun declared? bytes form => ⟨?_, fun declared here checked =>
    form.2 declared here (narrower.checked checked)⟩
  exact mul_le_mul' (mul_le_mul' (mul_le_mul' (mul_le_mul' le_rfl (narrower.varint id))
    (Wire.location_mono narrower.varint span)) le_rfl) below form.1

mutual

/-- A narrower grammar has fewer forms of each tree. -/
theorem Node.forms_mono (narrower : rules.IsNarrower rules') : (node : Node) →
    node.forms rules ≤ node.forms rules'
  | ⟨_, _, _, flags, _, fields⟩ =>
    Wire.node_mono narrower
      (mul_le_mul' (narrower.varint flags.bits.toUInt32) (fields.forms_mono narrower))

theorem Fields.forms_mono (narrower : rules.IsNarrower rules') : {layout : List Field} →
    (fields : Fields layout) → fields.forms rules ≤ fields.forms rules'
  | _, .nil => le_rfl
  | _, .cons value rest => mul_le_mul' (value.forms_mono narrower) (rest.forms_mono narrower)

theorem Value.forms_mono (narrower : rules.IsNarrower rules') : {kind : FieldKind} →
    (value : Value kind) → value.forms rules ≤ value.forms rules'
  | _, .node child => child.forms_mono narrower
  | _, .optNode none => le_rfl
  | _, .optNode (some child) => child.forms_mono narrower
  | _, .nodes children =>
    mul_le_mul' (Wire.count_mono narrower.varint _) (Node.formsAll_mono narrower children)
  | _, .datum content => content.forms_mono narrower

theorem Node.formsAll_mono (narrower : rules.IsNarrower rules') : (nodes : List Node) →
    Node.formsAll rules nodes ≤ Node.formsAll rules' nodes
  | [] => le_rfl
  | node :: rest => mul_le_mul' (node.forms_mono narrower) (Node.formsAll_mono narrower rest)

end

end PrismTree
