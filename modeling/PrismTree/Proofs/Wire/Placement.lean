import PrismTree.Proofs.Node.Preorder
import PrismTree.Proofs.Wire.Tree

/-!
# Trees in their places

A placed tree keeps what a node forgets: where each node begins and ends, which length a method
definition declares, and whether a string is quoted from the source or embedded in the buffer. It
knows neither the source nor the texts of constants, and the place where it begins determines it.
-/
namespace PrismTree

/-- One of the forms stands in a buffer between two positions. -/
def StandsBetween (forms : Language UInt8) (buffer : ByteArray) (start stop : Nat) : Prop :=
  ∃ bytes ∈ forms, StandsAt bytes buffer start ∧ stop = start + bytes.length

section StandsBetween

variable {forms first second : Language UInt8} {buffer : ByteArray} {start stop stop' : Nat}

theorem StandsBetween.le (stands : StandsBetween forms buffer start stop) :
    start ≤ stop ∧ stop ≤ buffer.size := by
  obtain ⟨bytes, -, there, rfl⟩ := stands
  exact ⟨Nat.le_add_right _ _, there.add_length_le⟩

theorem standsBetween_mul :
    StandsBetween (first * second) buffer start stop ↔
      ∃ middle, StandsBetween first buffer start middle ∧
        StandsBetween second buffer middle stop := by
  constructor
  · intro h
    obtain ⟨_, form, stands, rfl⟩ := h
    obtain ⟨xs, hx, ys, hy, rfl⟩ := Language.mem_mul.1 form
    obtain ⟨stands, stands'⟩ := standsAt_append.1 stands
    refine ⟨start + xs.length, ⟨xs, hx, stands, rfl⟩, ys, hy, stands', ?_⟩
    rw [List.length_append, Nat.add_assoc]
  · intro h
    obtain ⟨_, ⟨xs, hx, stands, rfl⟩, ys, hy, stands', rfl⟩ := h
    refine ⟨xs ++ ys, Language.append_mem_mul hx hy, standsAt_append.2 ⟨stands, stands'⟩, ?_⟩
    rw [List.length_append, Nat.add_assoc]

/-- A single byte takes one place. -/
theorem standsBetween_singleton {byte : UInt8} :
    StandsBetween {[byte]} buffer start stop ↔
      StandsAt [byte] buffer start ∧ stop = start + 1 := by
  constructor
  · intro h
    obtain ⟨_, rfl, stands, rfl⟩ := h
    exact ⟨stands, rfl⟩
  · rintro ⟨stands, rfl⟩
    exact ⟨[byte], rfl, stands, rfl⟩

theorem eq_of_standsAt_singleton {byte byte' : UInt8} (stands : StandsAt [byte] buffer start)
    (stands' : StandsAt [byte'] buffer start) : byte = byte' :=
  (List.cons.inj (stands.eq_of_length_eq stands' rfl)).1

/-- Of what a decoder reads, one value at most stands at a position. -/
theorem Decoder.Reads.unique {ε α : Type} {decoder : Decoder ε α} {forms : α → Language UInt8}
    (reads : decoder.Reads forms) {value value' : α}
    (stands : StandsBetween (forms value) buffer start stop)
    (stands' : StandsBetween (forms value') buffer start stop') :
    value = value' ∧ stop = stop' := by
  obtain ⟨bytes, form, there, rfl⟩ := stands
  obtain ⟨bytes', form', there', rfl⟩ := stands'
  obtain ⟨rfl, rfl⟩ := reads.unambiguous form there form' there'
  exact ⟨rfl, rfl⟩

end StandsBetween

namespace TreeDecoder

variable {α : Type} {decoder : TreeDecoder α} {input : TreeInput} {forms : α → Language UInt8}
  {references : α → List ConstantId}

/-- A pool in which every constant is resolved. -/
def resolvedPool : ConstantPool :=
  ⟨.utf8, 0, Array.replicate UInt32.size (some ""), 0⟩

theorem resolves_resolvedPool (serialized source : ByteArray) (id : ConstantId) :
    resolvedPool.Resolves serialized source id := by
  have small := id.index.toNat_lt
  have slot := id.slot_add_one
  have size : resolvedPool.size = UInt32.size := Array.size_replicate
  have inside : id.slot < UInt32.size := by
    rw [UInt32.size]
    omega
  have kept : resolvedPool.slots[id.slot]? = some (some "") := by
    unfold resolvedPool
    rw [Array.getElem?_replicate, if_pos inside]
  refine ⟨size ▸ inside, Or.inl ?_⟩
  show ((resolvedPool.slots[id.slot]?).join).isSome
  rw [kept]
  rfl

/-- What a tree decoder reads at a position is unique as well. Where every constant is resolved the
references have no influence, and the decoder has one result only. -/
theorem Reads.unique (reads : decoder.Reads input forms references) {start stop stop' : Nat}
    {value value' : α} (stands : StandsBetween (forms value) input.serialized start stop)
    (stands' : StandsBetween (forms value') input.serialized start stop') :
    value = value' ∧ stop = stop' := by
  -- each of the two forms makes the same run succeed
  have run : ∀ value stop, StandsBetween (forms value) input.serialized start stop →
      ∃ reached, decoder input ⟨start, resolvedPool, #[]⟩ = .ok value reached ∧
        reached.position = stop := by
    intro value stop h
    obtain ⟨bytes, form, there, rfl⟩ := h
    let state : TreeState := ⟨start, resolvedPool, #[]⟩
    obtain ⟨reached, follows⟩ : ∃ reached,
        state.Follows input (references value) (start + bytes.length) reached :=
      TreeState.exists_follows_iff.2 fun id _ => resolves_resolvedPool _ _ id
    exact ⟨reached, (reads state there.1 value reached).2 ⟨bytes, form, there, follows⟩,
      TreeState.position_of_follows follows⟩
  obtain ⟨reached, ends, rfl⟩ := run value stop stands
  obtain ⟨reached', ends', rfl⟩ := run value' stop' stands'
  rw [ends, EStateM.Result.ok.injEq] at ends'
  obtain ⟨rfl, rfl⟩ := ends'
  exact ⟨rfl, rfl⟩

end TreeDecoder

/-- How a string stands in a buffer: as a span of the source, or with its bytes. -/
inductive Spelling where
  | quoted (span : Location)
  | embedded (string : ByteString)

namespace Spelling

/-- The forms of a string that is spelled in this way. -/
def forms : Spelling → Language UInt8
  | quoted span => {[1]} * Wire.location Varint.forms span
  | embedded string => {[2]} * Wire.embedded Varint.forms string.bytes

/-- The bytes that are spelled. -/
def read (source : ByteArray) : Spelling → ByteString
  | quoted span =>
    ⟨source.extract span.start.toNat (span.start.toNat + span.length.toNat)⟩
  | embedded string => string

theorem exists_of_mem_string {source : ByteArray} {string : ByteString} {bytes : List UInt8}
    (form : bytes ∈ Wire.string Varint.forms source string) :
    ∃ spelling : Spelling, bytes ∈ spelling.forms ∧ spelling.read source = string := by
  rw [Wire.string, Language.mem_add, Language.mem_iSup] at form
  obtain ⟨span, form⟩ | form := form
  · obtain ⟨inside, form⟩ := mem_provided_mul.1 form
    refine ⟨quoted span, form, ?_⟩
    unfold Bytes.slice? at inside
    split at inside
    · rw [read, Option.some.inj inside]
    · cases inside
  · exact ⟨embedded string, form, rfl⟩

theorem unique {spelling spelling' : Spelling} {buffer : ByteArray} {start stop stop' : Nat}
    (stands : StandsBetween spelling.forms buffer start stop)
    (stands' : StandsBetween spelling'.forms buffer start stop') :
    spelling = spelling' ∧ stop = stop' := by
  have tags : ∀ {tag tag' : UInt8} {rest rest' : Language UInt8},
      StandsBetween ({[tag]} * rest) buffer start stop →
      StandsBetween ({[tag']} * rest') buffer start stop' →
      tag = tag' ∧ StandsBetween rest buffer (start + 1) stop ∧
        StandsBetween rest' buffer (start + 1) stop' := by
    intro tag tag' rest rest' first second
    obtain ⟨_, here, behind⟩ := standsBetween_mul.1 first
    obtain ⟨_, here', behind'⟩ := standsBetween_mul.1 second
    obtain ⟨byte, rfl⟩ := standsBetween_singleton.1 here
    obtain ⟨byte', rfl⟩ := standsBetween_singleton.1 here'
    exact ⟨eq_of_standsAt_singleton byte byte', behind, behind'⟩
  cases spelling with
  | quoted span =>
    cases spelling' with
    | quoted span' =>
      obtain ⟨-, behind, behind'⟩ := tags stands stands'
      obtain ⟨rfl, rfl⟩ := Decoder.reads_readLocation.unique behind behind'
      exact ⟨rfl, rfl⟩
    | embedded string' => exact absurd (tags stands stands').1 (by decide)
  | embedded string =>
    cases spelling' with
    | quoted span' => exact absurd (tags stands stands').1 (by decide)
    | embedded string' =>
      obtain ⟨-, behind, behind'⟩ := tags stands stands'
      obtain ⟨same, rfl⟩ := Decoder.reads_readEmbedded.unique behind behind'
      obtain ⟨bytes⟩ := string
      obtain rfl : bytes = string'.bytes := same
      exact ⟨rfl, rfl⟩

end Spelling

/-- A datum as it stands in a buffer. Only a string may depend on the source. -/
inductive PlacedDatum : DatumKind → Type where
  | string (spelling : Spelling) : PlacedDatum .string
  | plain {kind : DatumKind} (content : Datum kind) (other : kind ≠ .string) : PlacedDatum kind

namespace PlacedDatum

/-- The forms of a datum. -/
def forms : {kind : DatumKind} → PlacedDatum kind → Language UInt8
  | _, .string spelling => spelling.forms
  | _, .plain content _ => content.forms (.wire .empty true)

/-- The datum that is read. -/
def read (source : ByteArray) : {kind : DatumKind} → PlacedDatum kind → Datum kind
  | _, .string spelling => .string (spelling.read source)
  | _, .plain content _ => content

variable {kind : DatumKind}

theorem forms_eq_of_ne_string (content : Datum kind) (other : kind ≠ .string) (source : ByteArray)
    (checked : Bool) :
    content.forms (.wire source checked) = content.forms (.wire .empty true) := by
  cases content with
  | string string => exact absurd rfl other
  | _ => rfl

theorem exists_of_mem_forms {source : ByteArray} {checked : Bool} {content : Datum kind}
    {bytes : List UInt8} (form : bytes ∈ content.forms (.wire source checked)) :
    ∃ placed : PlacedDatum kind, bytes ∈ placed.forms ∧ placed.read source = content := by
  by_cases other : kind = .string
  · subst other
    cases content with
    | string string =>
      obtain ⟨spelling, spelled, rfl⟩ := Spelling.exists_of_mem_string form
      exact ⟨.string spelling, spelled, rfl⟩
  · rw [forms_eq_of_ne_string content other] at form
    exact ⟨.plain content other, form, rfl⟩

theorem unique {placed placed' : PlacedDatum kind} {buffer : ByteArray}
    {start stop stop' : Nat} (stands : StandsBetween placed.forms buffer start stop)
    (stands' : StandsBetween placed'.forms buffer start stop') :
    placed = placed' ∧ stop = stop' := by
  cases placed with
  | string spelling =>
    cases placed' with
    | string spelling' =>
      obtain ⟨rfl, rfl⟩ := Spelling.unique stands stands'
      exact ⟨rfl, rfl⟩
    | plain content other => exact absurd rfl other
  | plain content other =>
    cases placed' with
    | string spelling => exact absurd rfl other
    | plain content' _ =>
      have reads := @TreeDecoder.reads_readDatum ⟨buffer, .empty, {}⟩ kind
      obtain ⟨rfl, rfl⟩ := reads.unique stands stands'
      exact ⟨rfl, rfl⟩

end PlacedDatum

/-- What stands in front of the fields of a node. -/
structure NodeHead where
  kind : Kind
  id : UInt32
  location : Location
  declared? : Option UInt32
  flags : NodeFlags

namespace NodeHead

/-- The forms of a head. -/
def forms (head : NodeHead) : Language UInt8 :=
  {[head.kind.tag]} * (Varint.forms head.id * (Wire.location Varint.forms head.location *
    (Wire.defLength head.kind head.declared? * Wire.flags Varint.forms head.flags)))

variable {head head' : NodeHead} {buffer : ByteArray} {start stop stop' : Nat}

theorem tag_stands (stands : StandsBetween head.forms buffer start stop) :
    StandsAt [head.kind.tag] buffer start := by
  obtain ⟨_, tag, -⟩ := standsBetween_mul.1 stands
  exact (standsBetween_singleton.1 tag).1

theorem unique (stands : StandsBetween head.forms buffer start stop)
    (stands' : StandsBetween head'.forms buffer start stop') : head = head' ∧ stop = stop' := by
  -- the tag tells the kind, and with it whether the word of a definition follows
  have tags := eq_of_standsAt_singleton (tag_stands stands) (tag_stands stands')
  obtain ⟨kind, id, location, declared?, flags⟩ := head
  obtain ⟨kind', id', location', declared?', flags'⟩ := head'
  have known : some kind = some kind' := by
    rw [← Kind.ofTag?_tag kind, ← Kind.ofTag?_tag kind']
    exact congrArg Kind.ofTag? tags
  obtain rfl : kind = kind' := Option.some.inj known
  obtain ⟨_, tag, rest⟩ := standsBetween_mul.1 stands
  obtain ⟨_, tag', rest'⟩ := standsBetween_mul.1 stands'
  obtain ⟨-, rfl⟩ := standsBetween_singleton.1 tag
  obtain ⟨-, rfl⟩ := standsBetween_singleton.1 tag'
  obtain ⟨_, ids, rest⟩ := standsBetween_mul.1 rest
  obtain ⟨_, ids', rest'⟩ := standsBetween_mul.1 rest'
  obtain ⟨rfl, rfl⟩ := Decoder.reads_readVarint.unique ids ids'
  obtain ⟨_, spans, rest⟩ := standsBetween_mul.1 rest
  obtain ⟨_, spans', rest'⟩ := standsBetween_mul.1 rest'
  obtain ⟨rfl, rfl⟩ := Decoder.reads_readLocation.unique spans spans'
  obtain ⟨_, lengths, flags⟩ := standsBetween_mul.1 rest
  obtain ⟨_, lengths', flags'⟩ := standsBetween_mul.1 rest'
  have reads := @TreeDecoder.reads_readDefLength ⟨buffer, .empty, {}⟩ kind
  obtain ⟨rfl, rfl⟩ := reads.unique lengths lengths'
  obtain ⟨rfl, rfl⟩ := Decoder.reads_readFlags.unique flags flags'
  exact ⟨rfl, rfl⟩

end NodeHead

mutual

/-- A node in its place: where it begins and ends, its head, and its fields. -/
structure PlacedNode where
  start : Nat
  stop : Nat
  head : NodeHead
  fields : PlacedFields head.kind.layout

/-- The fields of a layout in their places, in order. -/
inductive PlacedFields : List Field → Type where
  | nil : PlacedFields []
  | cons {field : Field} {layout : List Field} (value : PlacedValue field.kind)
      (rest : PlacedFields layout) : PlacedFields (field :: layout)

/-- A field in its place. -/
inductive PlacedValue : FieldKind → Type where
  | node (child : PlacedNode) : PlacedValue .node
  | optNode (child : Option PlacedNode) : PlacedValue .optNode
  | nodes (children : List PlacedNode) : PlacedValue .nodes
  | datum {kind : DatumKind} (content : PlacedDatum kind) : PlacedValue (.datum kind)

end

mutual

/-- The tree that is read where a placed tree stands. -/
def PlacedNode.read (source : ByteArray) : PlacedNode → Node
  | ⟨_, _, head, fields⟩ =>
    ⟨head.kind, head.id, head.location, head.flags, false, fields.read source⟩

/-- The fields that are read. -/
def PlacedFields.read (source : ByteArray) : {layout : List Field} → PlacedFields layout →
    Fields layout
  | _, .nil => .nil
  | _, .cons value rest => .cons (value.read source) (rest.read source)

/-- The field that is read. -/
def PlacedValue.read (source : ByteArray) : {kind : FieldKind} → PlacedValue kind → Value kind
  | _, .node child => .node (child.read source)
  | _, .optNode none => .optNode none
  | _, .optNode (some child) => .optNode (some (child.read source))
  | _, .nodes children => .nodes (PlacedNode.readAll source children)
  | _, .datum content => .datum (content.read source)

/-- The trees that are read. -/
def PlacedNode.readAll (source : ByteArray) : List PlacedNode → List Node
  | [] => []
  | node :: rest => node.read source :: PlacedNode.readAll source rest

end

mutual

/-- A tree stands in a buffer between two positions, which are its own. -/
def PlacedNode.LiesIn (buffer : ByteArray) : PlacedNode → (start stop : Nat) → Prop
  | ⟨start', stop', head, fields⟩, start, stop =>
    (start' = start ∧ stop' = stop) ∧
      ∃ middle, StandsBetween head.forms buffer start middle ∧ fields.LieIn buffer middle stop

/-- Fields stand in a buffer between two positions. -/
def PlacedFields.LieIn (buffer : ByteArray) : {layout : List Field} → PlacedFields layout →
    (start stop : Nat) → Prop
  | _, .nil, start, stop => StandsBetween 1 buffer start stop
  | _, .cons value rest, start, stop =>
    ∃ middle, value.LiesIn buffer start middle ∧ rest.LieIn buffer middle stop

/-- A field stands in a buffer between two positions. -/
def PlacedValue.LiesIn (buffer : ByteArray) : {kind : FieldKind} → PlacedValue kind →
    (start stop : Nat) → Prop
  | _, .node child, start, stop => child.LiesIn buffer start stop
  | _, .optNode none, start, stop => StandsBetween {[0]} buffer start stop
  | _, .optNode (some child), start, stop => child.LiesIn buffer start stop
  | _, .nodes children, start, stop =>
    ∃ middle, StandsBetween (Wire.count Varint.forms children.length) buffer start middle ∧
      PlacedNode.LieIn buffer children middle stop
  | _, .datum content, start, stop => StandsBetween content.forms buffer start stop

/-- Trees stand in a buffer one behind the other. -/
def PlacedNode.LieIn (buffer : ByteArray) : List PlacedNode → (start stop : Nat) → Prop
  | [], start, stop => StandsBetween 1 buffer start stop
  | node :: rest, start, stop =>
    ∃ middle, node.LiesIn buffer start middle ∧ PlacedNode.LieIn buffer rest middle stop

end

/-- The length that a method definition declares, and the number of its bytes without the tag and
the word that declares it. -/
structure DeclaredLength where
  declared : UInt32
  actual : Nat

/-- The length that is declared is not the actual one. -/
def DeclaredLength.IsWrong (length : DeclaredLength) : Prop :=
  length.actual ≠ length.declared.toNat

instance (length : DeclaredLength) : Decidable length.IsWrong :=
  inferInstanceAs (Decidable (length.actual ≠ length.declared.toNat))

mutual

/-- The lengths that the method definitions in a tree declare, in the order in which the definitions
end. -/
def PlacedNode.declaredLengths : PlacedNode → List DeclaredLength
  | ⟨start, stop, head, fields⟩ =>
    fields.declaredLengths ++ head.declared?.toList.map fun declared =>
      ⟨declared, stop - (start + 1) - Node.defLengthSize⟩

/-- The lengths that are declared in fields. -/
def PlacedFields.declaredLengths : {layout : List Field} → PlacedFields layout →
    List DeclaredLength
  | _, .nil => []
  | _, .cons value rest => value.declaredLengths ++ rest.declaredLengths

/-- The lengths that are declared in a field. -/
def PlacedValue.declaredLengths : {kind : FieldKind} → PlacedValue kind → List DeclaredLength
  | _, .node child => child.declaredLengths
  | _, .optNode none => []
  | _, .optNode (some child) => child.declaredLengths
  | _, .nodes children => PlacedNode.allDeclaredLengths children
  | _, .datum _ => []

/-- The lengths that are declared in trees. -/
def PlacedNode.allDeclaredLengths : List PlacedNode → List DeclaredLength
  | [] => []
  | node :: rest => node.declaredLengths ++ PlacedNode.allDeclaredLengths rest

end

section

variable {buffer : ByteArray}

mutual

theorem PlacedNode.le_of_liesIn : (node : PlacedNode) → {start stop : Nat} →
    node.LiesIn buffer start stop → start ≤ stop ∧ stop ≤ buffer.size
  | ⟨_, _, _, fields⟩, _, _, lies => by
    obtain ⟨-, middle, headed, within⟩ := lies
    have front := headed.le
    have behind := fields.le_of_lieIn within
    omega
termination_by structural node => node

theorem PlacedFields.le_of_lieIn : {layout : List Field} → (fields : PlacedFields layout) →
    {start stop : Nat} → fields.LieIn buffer start stop → start ≤ stop ∧ stop ≤ buffer.size
  | _, .nil, _, _, lie => StandsBetween.le lie
  | _, .cons value rest, _, _, lie => by
    obtain ⟨middle, first, others⟩ := lie
    have front := value.le_of_liesIn first
    have behind := rest.le_of_lieIn others
    omega
termination_by structural _ fields => fields

theorem PlacedValue.le_of_liesIn : {kind : FieldKind} → (value : PlacedValue kind) →
    {start stop : Nat} → value.LiesIn buffer start stop → start ≤ stop ∧ stop ≤ buffer.size
  | _, .node child, _, _, lies => child.le_of_liesIn lies
  | _, .optNode none, _, _, lies => StandsBetween.le lies
  | _, .optNode (some child), _, _, lies => child.le_of_liesIn lies
  | _, .nodes children, _, _, lies => by
    obtain ⟨middle, counted, lie⟩ := lies
    have front := counted.le
    have behind := PlacedNode.le_of_lieIn children lie
    omega
  | _, .datum _, _, _, lies => StandsBetween.le lies
termination_by structural _ value => value

theorem PlacedNode.le_of_lieIn : (nodes : List PlacedNode) → {start stop : Nat} →
    PlacedNode.LieIn buffer nodes start stop → start ≤ stop ∧ stop ≤ buffer.size
  | [], _, _, lie => StandsBetween.le lie
  | node :: rest, _, _, lie => by
    obtain ⟨middle, first, others⟩ := lie
    have front := node.le_of_liesIn first
    have behind := PlacedNode.le_of_lieIn rest others
    omega
termination_by structural nodes => nodes

end

end

/-- A method definition declares a length, and no other node does. -/
theorem NodeHead.isSome_declared?_iff {head : NodeHead} {buffer : ByteArray} {start stop : Nat}
    (stands : StandsBetween head.forms buffer start stop) :
    head.declared?.isSome ↔ head.kind = .defNode := by
  obtain ⟨kind, id, location, declared?, flags⟩ := head
  obtain ⟨bytes, form, -⟩ := stands
  obtain ⟨_, -, _, rest, -⟩ := Language.mem_mul.1 form
  obtain ⟨_, -, _, rest, -⟩ := Language.mem_mul.1 rest
  obtain ⟨_, -, _, rest, -⟩ := Language.mem_mul.1 rest
  obtain ⟨_, word, _, -, -⟩ := Language.mem_mul.1 rest
  cases declared? with
  | none =>
    have other : kind ≠ .defNode := word.1
    simp [other]
  | some declared =>
    have definition : kind = .defNode := (mem_provided_mul.1 word).1
    simp [definition]

section

variable {buffer : ByteArray} (source : ByteArray)

/-- Is a node a method definition? -/
def Node.isDefinition (node : Node) : Bool :=
  decide (node.kind = .defNode)

mutual

/-- As many lengths are declared in a tree as it has method definitions. -/
theorem PlacedNode.length_declaredLengths : (node : PlacedNode) → {start stop : Nat} →
    node.LiesIn buffer start stop →
    node.declaredLengths.length = (node.read source).preorder.countP Node.isDefinition
  | ⟨_, _, head, fields⟩, _, _, lies => by
    obtain ⟨-, _, headed, within⟩ := lies
    have declares := NodeHead.isSome_declared?_iff headed
    have below := fields.length_declaredLengths within
    rw [PlacedNode.declaredLengths, PlacedNode.read, Node.preorder, Node.pruned_mk,
      if_neg Bool.false_ne_true, List.length_append, List.length_map, List.countP_cons, below]
    cases declared : head.declared? with
    | none =>
      rw [declared] at declares
      have other : head.kind ≠ .defNode :=
        fun definition => Bool.noConfusion (declares.2 definition)
      simp [Node.isDefinition, other]
    | some declared =>
      rw [declared] at declares
      have definition : head.kind = .defNode := declares.1 rfl
      simp [Node.isDefinition, definition]
termination_by structural node => node

theorem PlacedFields.length_declaredLengths : {layout : List Field} →
    (fields : PlacedFields layout) → {start stop : Nat} → fields.LieIn buffer start stop →
    fields.declaredLengths.length =
      ((fields.read source).pruned fun _ => false).countP Node.isDefinition
  | _, .nil, _, _, _ => rfl
  | _, .cons value rest, _, _, lie => by
    obtain ⟨_, first, others⟩ := lie
    rw [PlacedFields.declaredLengths, PlacedFields.read, Fields.pruned_cons, List.length_append,
      List.countP_append, value.length_declaredLengths first, rest.length_declaredLengths others]
termination_by structural _ fields => fields

theorem PlacedValue.length_declaredLengths : {kind : FieldKind} → (value : PlacedValue kind) →
    {start stop : Nat} → value.LiesIn buffer start stop →
    value.declaredLengths.length =
      ((value.read source).pruned fun _ => false).countP Node.isDefinition
  | _, .node child, _, _, lies => child.length_declaredLengths lies
  | _, .optNode none, _, _, _ => rfl
  | _, .optNode (some child), _, _, lies => child.length_declaredLengths lies
  | _, .nodes children, _, _, lies => by
    obtain ⟨_, -, lie⟩ := lies
    exact PlacedNode.length_allDeclaredLengths children lie
  | _, .datum _, _, _, _ => rfl
termination_by structural _ value => value

theorem PlacedNode.length_allDeclaredLengths : (nodes : List PlacedNode) → {start stop : Nat} →
    PlacedNode.LieIn buffer nodes start stop →
    (PlacedNode.allDeclaredLengths nodes).length =
      (Node.prunedAll (fun _ => false) (PlacedNode.readAll source nodes)).countP Node.isDefinition
  | [], _, _, _ => rfl
  | node :: rest, _, _, lie => by
    obtain ⟨_, first, others⟩ := lie
    rw [PlacedNode.allDeclaredLengths, PlacedNode.readAll, Node.prunedAll_cons, List.length_append,
      List.countP_append, node.length_declaredLengths first,
      PlacedNode.length_allDeclaredLengths rest others]
    rfl
termination_by structural nodes => nodes

end

end

theorem eq_of_standsBetween_one {buffer : ByteArray} {start stop : Nat}
    (stands : StandsBetween 1 buffer start stop) : stop = start := by
  obtain ⟨_, rfl, -, rfl⟩ := stands
  rfl

theorem count_unique {buffer : ByteArray} {start stop stop' n n' : Nat}
    (stands : StandsBetween (Wire.count Varint.forms n) buffer start stop)
    (stands' : StandsBetween (Wire.count Varint.forms n') buffer start stop') :
    n = n' ∧ stop = stop' := by
  obtain ⟨bytes, counts, there⟩ := stands
  obtain ⟨bytes', counts', there'⟩ := stands'
  obtain ⟨word, rfl, form⟩ := Wire.mem_count.1 counts
  obtain ⟨word', rfl, form'⟩ := Wire.mem_count.1 counts'
  obtain ⟨rfl, rfl⟩ := Decoder.reads_readVarint.unique ⟨bytes, form, there⟩ ⟨bytes', form', there'⟩
  exact ⟨rfl, rfl⟩

/-- No tree stands where a zero byte does. -/
theorem PlacedNode.not_liesIn_of_zero {buffer : ByteArray} {start stop : Nat} {node : PlacedNode}
    (zero : StandsAt [0] buffer start) : ¬node.LiesIn buffer start stop := by
  obtain ⟨_, _, head, fields⟩ := node
  rintro ⟨-, _, headed, -⟩
  exact head.kind.tag_ne_zero (eq_of_standsAt_singleton (NodeHead.tag_stands headed) zero)

section

variable {buffer : ByteArray}

mutual

/-- At most one tree stands at a position. -/
theorem PlacedNode.unique : (node node' : PlacedNode) → {start stop stop' : Nat} →
    node.LiesIn buffer start stop → node'.LiesIn buffer start stop' → node = node' ∧ stop = stop'
  | ⟨_, _, head, fields⟩, ⟨_, _, head', fields'⟩, _, _, _, lies, lies' => by
    obtain ⟨⟨rfl, rfl⟩, _, headed, within⟩ := lies
    obtain ⟨⟨rfl, rfl⟩, _, headed', within'⟩ := lies'
    obtain ⟨rfl, rfl⟩ := NodeHead.unique headed headed'
    obtain ⟨rfl, rfl⟩ := PlacedFields.unique fields fields' within within'
    exact ⟨rfl, rfl⟩
termination_by structural node => node

theorem PlacedFields.unique : {layout : List Field} → (fields fields' : PlacedFields layout) →
    {start stop stop' : Nat} → fields.LieIn buffer start stop → fields'.LieIn buffer start stop' →
    fields = fields' ∧ stop = stop'
  | _, .nil, .nil, _, _, _, lie, lie' =>
    ⟨rfl, (eq_of_standsBetween_one lie).trans (eq_of_standsBetween_one lie').symm⟩
  | _, .cons value rest, .cons value' rest', _, _, _, lie, lie' => by
    obtain ⟨_, first, others⟩ := lie
    obtain ⟨_, first', others'⟩ := lie'
    obtain ⟨rfl, rfl⟩ := PlacedValue.unique value value' first first'
    obtain ⟨rfl, rfl⟩ := PlacedFields.unique rest rest' others others'
    exact ⟨rfl, rfl⟩
termination_by structural _ fields => fields

theorem PlacedValue.unique : {kind : FieldKind} → (value value' : PlacedValue kind) →
    {start stop stop' : Nat} → value.LiesIn buffer start stop → value'.LiesIn buffer start stop' →
    value = value' ∧ stop = stop'
  | _, .node child, .node child', _, _, _, lies, lies' => by
    obtain ⟨rfl, rfl⟩ := PlacedNode.unique child child' lies lies'
    exact ⟨rfl, rfl⟩
  | _, .optNode none, .optNode none, _, _, _, lies, lies' =>
    ⟨rfl, (standsBetween_singleton.1 lies).2.trans (standsBetween_singleton.1 lies').2.symm⟩
  | _, .optNode none, .optNode (some _), _, _, _, lies, lies' =>
    absurd lies' (PlacedNode.not_liesIn_of_zero (standsBetween_singleton.1 lies).1)
  | _, .optNode (some _), .optNode none, _, _, _, lies, lies' =>
    absurd lies (PlacedNode.not_liesIn_of_zero (standsBetween_singleton.1 lies').1)
  | _, .optNode (some child), .optNode (some child'), _, _, _, lies, lies' => by
    obtain ⟨rfl, rfl⟩ := PlacedNode.unique child child' lies lies'
    exact ⟨rfl, rfl⟩
  | _, .nodes children, .nodes children', _, _, _, lies, lies' => by
    obtain ⟨_, counted, lie⟩ := lies
    obtain ⟨_, counted', lie'⟩ := lies'
    obtain ⟨length, rfl⟩ := count_unique counted counted'
    obtain ⟨rfl, rfl⟩ := PlacedNode.allUnique children children' length lie lie'
    exact ⟨rfl, rfl⟩
  | _, .datum content, .datum content', _, _, _, lies, lies' => by
    obtain ⟨rfl, rfl⟩ := PlacedDatum.unique lies lies'
    exact ⟨rfl, rfl⟩
termination_by structural _ value => value

theorem PlacedNode.allUnique : (nodes nodes' : List PlacedNode) → nodes.length = nodes'.length →
    {start stop stop' : Nat} → PlacedNode.LieIn buffer nodes start stop →
    PlacedNode.LieIn buffer nodes' start stop' → nodes = nodes' ∧ stop = stop'
  | [], [], _, _, _, _, lie, lie' =>
    ⟨rfl, (eq_of_standsBetween_one lie).trans (eq_of_standsBetween_one lie').symm⟩
  | node :: rest, node' :: rest', length, _, _, _, lie, lie' => by
    obtain ⟨_, first, others⟩ := lie
    obtain ⟨_, first', others'⟩ := lie'
    obtain ⟨rfl, rfl⟩ := PlacedNode.unique node node' first first'
    obtain ⟨rfl, rfl⟩ :=
      PlacedNode.allUnique rest rest' (Nat.succ.inj length) others others'
    exact ⟨rfl, rfl⟩
termination_by structural nodes => nodes

end

end

end PrismTree
