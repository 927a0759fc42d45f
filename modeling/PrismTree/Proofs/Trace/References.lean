import PrismTree.Proofs.Failure.Part

/-!
# References in front of a failure

Where the reading of a tree fails, it has followed references on its way. They are the references of
a beginning of the tree, in the order in which they stand in the buffer: the fields of a node one
after the other, and all that a child refers to in the place of the child.
-/
namespace PrismTree

mutual

/-- A node that begins at `start` refers to these constants, as far as it is read: to none in its
head, and then to those of its fields. -/
inductive NodeRefers (input : TreeInput) : (start : Nat) → List ConstantId → Prop
  | head {start : Nat} : NodeRefers input start []
  | fields {start offset : Nat} {head : NodeHead} {ids : List ConstantId}
    (stands : StandsBetween head.forms input.serialized start offset)
    (fields : FieldsRefer input head.kind.layout offset ids) : NodeRefers input start ids

/-- Fields that begin at `start` refer to these constants, as far as they are read: the reading ends
in one of them, with whole fields in front of it, or behind them all. -/
inductive FieldsRefer (input : TreeInput) : List Field → (start : Nat) → List ConstantId → Prop
  | nil {start : Nat} : FieldsRefer input [] start []
  | here {start : Nat} {field : Field} {layout : List Field} {ids : List ConstantId}
    (value : ValueRefers input field.kind start ids) : FieldsRefer input (field :: layout) start ids
  | behind {start offset : Nat} {field : Field} {layout : List Field} {value : Value field.kind}
    {ids : List ConstantId}
    (stands : StandsBetween (value.forms input.rules) input.serialized start offset)
    (rest : FieldsRefer input layout offset ids) :
    FieldsRefer input (field :: layout) start (value.references ++ ids)

/-- A field that begins at `start` refers to these constants, as far as it is read. A list of
constants may end behind some of them, and a list of nodes in a node behind earlier ones. -/
inductive ValueRefers (input : TreeInput) : FieldKind → (start : Nat) → List ConstantId → Prop
  | nothing {kind : FieldKind} {start : Nat} : ValueRefers input kind start []
  | constants {start first stop count : Nat} {earlier : List ConstantId}
    (counted : StandsBetween (Wire.count Varint.forms count) input.serialized start first)
    (fewer : earlier.length < count)
    (stand : StandsBetween (earlier.map fun id => Varint.forms id.index).prod input.serialized first
      stop) : ValueRefers input (.datum .constants) start earlier
  | node {start : Nat} {ids : List ConstantId} (child : NodeRefers input start ids) :
    ValueRefers input .node start ids
  | optNode {start : Nat} {ids : List ConstantId}
    (present : ¬StandsAt [0] input.serialized start) (child : NodeRefers input start ids) :
    ValueRefers input .optNode start ids
  | nodes {start first next count : Nat} {earlier : List Node} {ids : List ConstantId}
    (counted : StandsBetween (Wire.count Varint.forms count) input.serialized start first)
    (fewer : earlier.length < count)
    (stand : StandsBetween (Node.formsAll input.rules earlier) input.serialized first next)
    (child : NodeRefers input next ids) :
    ValueRefers input .nodes start (Node.referencesAll earlier ++ ids)

end

section Whole

variable {input : TreeInput} {start stop : Nat}

/-- Whole fields refer to all of their constants. -/
theorem fieldsRefer_of_stands : {layout : List Field} → (fields : Fields layout) → {start : Nat} →
    StandsBetween (fields.forms input.rules) input.serialized start stop →
    FieldsRefer input layout start fields.references
  | _, .nil, _, _ => .nil
  | _, .cons _ rest, _, stands =>
    have ⟨_, value, others⟩ := standsBetween_mul.1 stands
    .behind value (fieldsRefer_of_stands rest others)

/-- So does a node whose parts stand, whether its declared length is right or not. -/
theorem nodeRefers_of_parts {node : Node} {declared? : Option UInt32}
    (tag : StandsAt [node.kind.tag] input.serialized start)
    (parts : StandsBetween (node.parts input.rules declared?) input.serialized (start + 1) stop) :
    NodeRefers input start node.references := by
  obtain ⟨kind, id, location, flags, newline, fields⟩ := node
  obtain ⟨afterId, ids, parts⟩ := standsBetween_mul.1 parts
  obtain ⟨afterSpan, spans, parts⟩ := standsBetween_mul.1 parts
  obtain ⟨afterLength, lengths, parts⟩ := standsBetween_mul.1 parts
  obtain ⟨offset, words, stand⟩ := standsBetween_mul.1 parts
  have head : StandsBetween (NodeHead.mk kind id location declared? flags).forms input.serialized
      start offset :=
    standsBetween_mul.2 ⟨start + 1, standsBetween_singleton.2 ⟨tag, rfl⟩, standsBetween_mul.2
      ⟨afterId, ids, standsBetween_mul.2 ⟨afterSpan, spans, standsBetween_mul.2
        ⟨afterLength, lengths, words⟩⟩⟩⟩
  exact .fields head (fieldsRefer_of_stands fields stand)

/-- A whole node refers to all of its constants. -/
theorem nodeRefers_of_stands {node : Node}
    (stands : StandsBetween (node.forms input.rules) input.serialized start stop) :
    NodeRefers input start node.references := by
  obtain ⟨bytes, form, there, rfl⟩ := stands
  obtain ⟨declared?, rest, parts, rfl, -⟩ := Node.mem_forms_iff.1 form
  obtain ⟨tag, behind⟩ := standsAt_cons.1 there
  exact nodeRefers_of_parts tag ⟨rest, parts, behind, rfl⟩

end Whole

namespace TreeDecoder

open TreeState

variable {α β : Type} {input : TreeInput} {decoder : TreeDecoder α} {forms : α → Language UInt8}
  {references : α → List ConstantId} {refers : Nat → List ConstantId → Prop} {depth : Nat}

/-- Wherever a tree decoder begins and fails, it has followed references that it refers to from
there on. -/
def StopsAfter (input : TreeInput) (decoder : TreeDecoder α)
    (refers : Nat → List ConstantId → Prop) : Prop :=
  ∀ state error reached, state.position ≤ input.serialized.size →
    decoder input state = .error error reached →
      ∃ ids stop, refers state.position ids ∧ state.Follows input ids stop reached

/-- A tree decoder that fails has followed no references. -/
abbrev StopsAtOnce (input : TreeInput) (decoder : TreeDecoder α) : Prop :=
  decoder.StopsAfter input fun _ ids => ids = []

section Rules

variable {refers' : Nat → List ConstantId → Prop}

theorem StopsAfter.mono (stops : decoder.StopsAfter input refers)
    (le : ∀ start ids, refers start ids → refers' start ids) :
    decoder.StopsAfter input refers' := by
  intro state error reached inside run
  obtain ⟨ids, stop, refer, follows⟩ := stops state error reached inside run
  exact ⟨ids, stop, le _ _ refer, follows⟩

theorem StopsAtOnce.mono (stops : decoder.StopsAtOnce input) (none : ∀ start, refers start []) :
    decoder.StopsAfter input refers :=
  StopsAfter.mono stops fun start _ nothing => nothing ▸ none start

theorem stopsAtOnce_pure (value : α) : (pure value : TreeDecoder α).StopsAtOnce input := by
  intro state error reached _ run
  cases run

theorem stopsAtOnce_fail {cause : LoadError.Cause} :
    (fail cause : TreeDecoder α).StopsAtOnce input := by
  intro state error reached _ run
  cases run
  exact ⟨[], state.position, rfl, follows_nil.2 rfl⟩

theorem stopsAtOnce_liftM {decoder : Decoder LoadError α} :
    (liftM decoder : TreeDecoder α).StopsAtOnce input := by
  intro state error reached _ run
  obtain ⟨stop, -, rfl⟩ := liftM_eq_error_iff.1 run
  exact ⟨[], stop, rfl, follows_nil.2 rfl⟩

theorem StopsAfter.inField {kind : Kind} {field : String}
    (stops : decoder.StopsAfter input refers) :
    (inField kind field decoder).StopsAfter input refers := by
  intro state error reached inside run
  obtain ⟨inner, run, -⟩ := inField_eq_error_iff.1 run
  exact stops state inner reached inside run

theorem StopsAfter.map (f : α → β) (stops : decoder.StopsAfter input refers) :
    (f <$> decoder).StopsAfter input refers := fun state error reached inside run =>
  stops state error reached inside (map_eq_error_iff.1 run)

/-- In sequence, what is read in front is followed first. -/
theorem StopsAfter.bind {next : α → TreeDecoder β} {refers' : α → Nat → List ConstantId → Prop}
    (first : decoder.StopsAfter input refers) (reads : decoder.Reads input forms references)
    (second : ∀ value, (next value).StopsAfter input (refers' value))
    (together : ∀ value start offset ids,
      StandsBetween (forms value) input.serialized start offset →
        refers' value offset ids → refers start (references value ++ ids)) :
    (decoder >>= next).StopsAfter input refers := by
  intro state error reached inside run
  obtain failed | ⟨value, middle, start, run⟩ := bind_eq_error_iff.1 run
  · exact first state error reached inside failed
  · obtain ⟨bytes, form, stands, follows⟩ := (reads state inside value middle).1 start
    have here := position_of_follows follows
    obtain ⟨ids, stop, refer, follows'⟩ :=
      second value middle error reached (here ▸ stands.add_length_le) run
    rw [here] at refer
    exact ⟨_, stop, together value _ _ ids ⟨bytes, form, stands, rfl⟩ refer,
      (follows_append _).2 ⟨middle, follows, follows'⟩⟩

/-- Something that refers to nothing stands in front, or is not read. -/
def Behind (input : TreeInput) (forms : α → Language UInt8)
    (refers : Nat → List ConstantId → Prop) (start : Nat) (ids : List ConstantId) : Prop :=
  ids = [] ∨ ∃ value offset, StandsBetween (forms value) input.serialized start offset ∧
    refers offset ids

theorem StopsAfter.behind {next : α → TreeDecoder β} (first : decoder.StopsAtOnce input)
    (reads : decoder.Reads input forms fun _ => [])
    (second : ∀ value, (next value).StopsAfter input refers) :
    (decoder >>= next).StopsAfter input (Behind input forms refers) :=
  (first.mono fun _ => Or.inl rfl).bind reads second fun value _ offset _ stands refer =>
    Or.inr ⟨value, offset, stands, refer⟩

theorem stopsAfter_position {next : Nat → TreeDecoder α}
    (stops : ∀ position, (next position).StopsAfter input refers) :
    (position >>= next).StopsAfter input refers := fun state error reached inside run =>
  stops state.position state error reached inside run

/-- A zero byte, which stands for something absent, is always read. -/
theorem StopsAfter.optional (stops : decoder.StopsAfter input refers) :
    ((liftM Decoder.readAbsent : TreeDecoder Bool) >>= fun absent =>
      if absent then pure none else some <$> decoder).StopsAfter input fun start ids =>
        ids = [] ∨ ¬StandsAt [0] input.serialized start ∧ refers start ids := by
  intro state error reached inside run
  obtain ⟨present, failed⟩ := optional_eq_error run
  obtain ⟨ids, stop, refer, follows⟩ := stops state error reached inside failed
  exact ⟨ids, stop, Or.inr ⟨present, refer⟩, follows⟩

/-- Items are announced, fewer of them stand behind their number, and the next one refers to what is
left. -/
def Among (input : TreeInput) (forms : α → Language UInt8) (references : α → List ConstantId)
    (refers : Nat → List ConstantId → Prop) (start : Nat) (ids : List ConstantId) : Prop :=
  ∃ count first next, ∃ earlier : List α, ∃ ids',
    StandsBetween (Wire.count Varint.forms count) input.serialized start first ∧
    earlier.length < count ∧
    StandsBetween (earlier.map forms).prod input.serialized first next ∧ refers next ids' ∧
    ids = earlier.flatMap references ++ ids'

/-- Of announced items one fails, and those in front of it are read. -/
theorem StopsAfter.counted {counter : Decoder LoadError Nat} {item : TreeDecoder α}
    {least minSize : Nat} (announces : counter.Announces least minSize)
    (each : item.StopsAfter input refers) (reads : item.Reads input forms references) :
    ((liftM counter : TreeDecoder Nat) >>= fun count => readMany count fun _ => item).StopsAfter
      input fun start ids => ids = [] ∨ Among input forms references refers start ids := by
  intro state error reached inside run
  obtain ⟨stop, -, rfl⟩ | ⟨count, first, earlier, last, counted, fewer, stand, follows, failed⟩ :=
    counted_eq_error announces reads inside run
  · exact ⟨[], stop, Or.inl rfl, follows_nil.2 rfl⟩
  · obtain ⟨ids, stop, refer, follows'⟩ := each last error reached stand.le.2 failed
    exact ⟨_, stop, Or.inr ⟨count, first, _, earlier, ids, counted, fewer, stand, refer, rfl⟩,
      (follows_append _).2 ⟨last, follows, follows'⟩⟩

end Rules

/-- A reference that fails is not followed. -/
theorem stopsAtOnce_resolveConstant (index : UInt32) :
    (resolveConstant index).StopsAtOnce input := by
  intro state error reached _ run
  refine ⟨[], reached.position, rfl, follows_nil.2 ?_⟩
  obtain failed | ⟨_, _, fetched, run⟩ := bind_eq_error_iff.1 run
  · cases failed
  cases fetched
  cases found : state.pool.id? index with
  | none =>
    simp only [found] at run
    cases run
    rfl
  | some id =>
    simp only [found] at run
    split at run
    · cases run
    · obtain failed | ⟨_, _, fetched, run⟩ := bind_eq_error_iff.1 run
      · cases failed
      cases fetched
      obtain failed | ⟨text, middle, -, run⟩ := bind_eq_error_iff.1 run
      · obtain ⟨stop, -, rfl⟩ := liftM_eq_error_iff.1 failed
        rfl
      · cases run

theorem stopsAtOnce_readConstant : readConstant.StopsAtOnce input := by
  refine stopsAtOnce_liftM.bind (Reads.ofDecoder Decoder.reads_readVarint.lift)
    stopsAtOnce_resolveConstant ?_
  rintro _ _ _ _ _ rfl
  rfl

theorem stopsAtOnce_readOptConstant : readOptConstant.StopsAtOnce input := by
  refine stopsAtOnce_readConstant.optional.mono ?_
  rintro start ids (rfl | ⟨-, rfl⟩) <;> rfl

theorem stopsAfter_readConstants :
    readConstants.StopsAfter input (ValueRefers input (.datum .constants)) := by
  refine (StopsAfter.counted (Decoder.announces_readCount 1).lift stopsAtOnce_readConstant
    reads_readConstant).mono ?_
  rintro start ids (rfl | ⟨count, first, next, earlier, _, counted, fewer, stand, rfl, rfl⟩)
  · exact .nothing
  · rw [List.append_nil, List.flatMap_singleton']
    exact .constants counted fewer stand

theorem stopsAfter_readDatum (kind : DatumKind) :
    (readDatum kind).StopsAfter input (ValueRefers input (.datum kind)) := by
  have nothing : ∀ start, ValueRefers input (.datum kind) start [] := fun _ => .nothing
  cases kind with
  | constant => exact (stopsAtOnce_readConstant.mono nothing).map _
  | optConstant => exact (stopsAtOnce_readOptConstant.mono nothing).map _
  | constants => exact stopsAfter_readConstants.map _
  | string => exact (stopsAtOnce_liftM.mono nothing).map _
  | integer => exact (stopsAtOnce_liftM.mono nothing).map _
  | double => exact (stopsAtOnce_liftM.mono nothing).map _
  | uint32 => exact (stopsAtOnce_liftM.mono nothing).map _
  | uint8 => exact (stopsAtOnce_liftM.mono nothing).map _

section Fields

variable (child : (readNode depth).StopsAfter input (NodeRefers input))

include child

theorem stopsAfter_readValue (kind : Kind) (field : Field) :
    (readValue (readNode depth) kind field.name field.kind).StopsAfter input
      (ValueRefers input field.kind) := by
  obtain ⟨name, fieldKind⟩ := field
  cases fieldKind with
  | node => exact (child.mono fun _ _ => .node).map _
  | optNode =>
    show (readValue (readNode depth) kind name .optNode).StopsAfter input _
    rw [readValue_optNode]
    refine .map _ (child.optional.mono ?_)
    rintro start ids (rfl | ⟨present, refer⟩)
    · exact .nothing
    · exact .optNode present refer
  | nodes =>
    show (readValue (readNode depth) kind name .nodes).StopsAfter input _
    rw [readValue_nodes]
    refine .map _ ((StopsAfter.counted (Decoder.announces_readCount Node.minSize).lift child
      (reads_readNode input depth)).mono ?_)
    rintro start ids (rfl | ⟨count, first, next, earlier, ids, counted, fewer, stand, refer, rfl⟩)
    · exact .nothing
    · rw [prod_childForms] at stand
      rw [← Node.referencesAll_eq]
      exact .nodes counted fewer (stand.mono fun _ form => (mem_provided_mul.1 form).2) refer
  | datum kind => exact (stopsAfter_readDatum kind).inField.map _

theorem stopsAfter_readFields (kind : Kind) (layout : List Field) :
    (readFields (readNode depth) kind layout).StopsAfter input (FieldsRefer input layout) := by
  induction layout with
  | nil => exact (stopsAtOnce_pure _).mono fun _ => .nil
  | cons field layout ih =>
    refine ((stopsAfter_readValue child kind field).mono fun _ _ => .here).bind
      (reads_readValue (reads_readNode input depth) kind field.name field.kind)
      (fun value => ih.map (Fields.cons value)) fun value start offset ids stands rest => ?_
    exact .behind (stands.mono fun _ form => (mem_provided_mul.1 form).2) rest

end Fields

theorem stopsAtOnce_readDefLength (kind : Kind) : (readDefLength kind).StopsAtOnce input := by
  unfold readDefLength
  split
  · exact stopsAtOnce_liftM.inField.map _
  · exact stopsAtOnce_pure none

theorem stopsAtOnce_checkDefLength {declared? : Option UInt32} {afterTag : Nat} (value : α) :
    (checkDefLength declared? afterTag >>= fun _ => pure value).StopsAtOnce input := by
  intro state error reached _ run
  obtain failed | ⟨_, _, -, finish⟩ := bind_eq_error_iff.1 run
  · cases declared? with
    | none => cases failed
    | some declared =>
      rw [checkDefLength_some_apply] at failed
      split at failed
      · cases failed
        exact ⟨[], state.position, rfl, follows_nil.2 rfl⟩
      · cases failed
  · cases finish

/-- What begins behind a tag is a node that begins with it. -/
def BehindTag (input : TreeInput) (tag : UInt8) (offset : Nat) (ids : List ConstantId) : Prop :=
  ∀ start, StandsBetween {[tag]} input.serialized start offset → NodeRefers input start ids

/-- Behind the tag of a node, only its fields refer to constants. -/
theorem stopsAfter_readBody (child : (readNode depth).StopsAfter input (NodeRefers input))
    (kind : Kind) :
    (readBody depth kind).StopsAfter input (BehindTag input kind.tag) := by
  have body : (readBody depth kind).StopsAfter input (Behind input Varint.forms (Behind input
      (Wire.location Varint.forms) (Behind input (Wire.defLength kind) (Behind input
        (Wire.flags Varint.forms) (FieldsRefer input kind.layout))))) :=
    stopsAtOnce_liftM.inField.behind (Reads.ofDecoder Decoder.reads_readVarint.lift).inField
      fun id => stopsAtOnce_liftM.inField.behind
        (Reads.ofDecoder Decoder.reads_readLocation.lift).inField
      fun span => (stopsAtOnce_readDefLength kind).behind (reads_readDefLength kind)
      fun declared? => stopsAtOnce_liftM.inField.behind
        (Reads.ofDecoder Decoder.reads_readFlags).inField
      fun flags => (stopsAfter_readFields child kind kind.layout).map _
  refine body.mono fun offset ids refer start tag => ?_
  obtain rfl | ⟨id, afterId, ids, refer⟩ := refer
  · exact .head
  obtain rfl | ⟨span, afterSpan, spans, refer⟩ := refer
  · exact .head
  obtain rfl | ⟨declared?, afterLength, lengths, refer⟩ := refer
  · exact .head
  obtain rfl | ⟨flags, first, words, refer⟩ := refer
  · exact .head
  have head : StandsBetween (NodeHead.mk kind id span declared? flags).forms input.serialized
      start first :=
    standsBetween_mul.2 ⟨offset, tag, standsBetween_mul.2 ⟨afterId, ids, standsBetween_mul.2
      ⟨afterSpan, spans, standsBetween_mul.2 ⟨afterLength, lengths, words⟩⟩⟩⟩
  exact .fields head refer

/-- A node that cannot be read refers to what was followed. -/
theorem stopsAfter_readNode (input : TreeInput) (depth : Nat) :
    (readNode depth).StopsAfter input (NodeRefers input) := by
  induction depth with
  | zero => exact stopsAtOnce_fail.mono fun _ => .head
  | succ depth ih =>
    rw [readNode_succ]
    have byte : (liftM Decoder.readByte : TreeDecoder UInt8).StopsAfter input (NodeRefers input) :=
      stopsAtOnce_liftM.mono fun _ => .head
    refine byte.bind (Reads.ofDecoder Decoder.reads_readByte.lift) (fun tag => ?_)
      fun tag start offset ids stands (behind : BehindTag input tag offset ids) =>
        behind start stands
    cases known : Kind.ofTag? tag with
    | none => exact stopsAtOnce_fail.mono fun _ _ _ => .head
    | some kind =>
      obtain rfl := Kind.tag_of_ofTag? known
      refine stopsAfter_position fun afterTag => (stopsAfter_readBody ih kind).bind
        (reads_readBody (reads_readNode input depth) kind)
        (fun body => stopsAtOnce_checkDefLength body.2) ?_
      rintro ⟨declared?, node⟩ offset stop _ ⟨bytes, form, there, rfl⟩ rfl start stands
      obtain ⟨⟨rfl, -⟩, parts⟩ := mem_provided_mul.1 form
      obtain ⟨tag, rfl⟩ := standsBetween_singleton.1 stands
      rw [List.append_nil]
      exact nodeRefers_of_parts tag ⟨bytes, parts, there, rfl⟩

end TreeDecoder

end PrismTree
