import PrismTree.Proofs.Wire.Grammar
import PrismTree.Proofs.Wire.TreeAcceptance

/-!
# Reading a tree by its grammar

The reader of nodes accepts exactly the forms of trees that are nested no deeper than it may go.
The depth that is left, the checks of counts and the detours to the constant pool have no other
influence on what is accepted.
-/
namespace PrismTree

/-- The grammar that the options of a load ask for. -/
def TreeInput.rules (input : TreeInput) : Rules :=
  .wire input.source input.options.verifyDefLengths

namespace TreeDecoder

variable {input : TreeInput}

theorem reads_resolveConstant (index : UInt32) :
    (resolveConstant index).Reads input (fun id => provided (id.index = index)) fun id => [id] := by
  intro state inside id state'
  rw [resolveConstant_eq_ok_iff]
  simp only [TreeState.follows_singleton]
  constructor
  · rintro ⟨same, run⟩
    refine ⟨[], ⟨same, rfl⟩, standsAt_nil.2 inside, state', run, ?_⟩
    rw [List.length_nil, Nat.add_zero, ← TreeState.position_of_refer? run]
    rfl
  · intro h
    obtain ⟨_, ⟨same, rfl⟩, -, after, run, rfl⟩ := h
    refine ⟨same, ?_⟩
    rw [List.length_nil, Nat.add_zero, ← TreeState.position_of_refer? run]
    exact run

theorem reads_readConstant :
    readConstant.Reads input (fun id => Varint.forms id.index) fun id => [id] := by
  refine (Reads.ofDecoder Decoder.reads_readVarint.lift).bindAfter reads_resolveConstant |>.congr
    fun id => ?_
  ext bytes
  simp only [Language.mem_iSup, mem_mul_provided]
  constructor
  · intro h
    obtain ⟨_, rfl, form⟩ := h
    exact form
  · intro form
    exact ⟨_, rfl, form⟩

theorem reads_readOptConstant :
    readOptConstant.Reads input (Wire.optional fun id => Varint.forms id.index)
      fun id? => id?.toList := by
  have reads := (@reads_readConstant input).optional fun id bytes form =>
    List.length_pos_iff.1 (Varint.length_pos_of_mem_forms form)
  exact reads.congr_references fun id? => by cases id? <;> rfl

theorem reads_readConstants :
    readConstants.Reads input (Wire.list Varint.forms fun id => Varint.forms id.index)
      fun ids => ids := by
  have reads := reads_counted (Decoder.announces_readCount 1).lift
    (fun _ => @reads_readConstant input) fun _ _ => Varint.length_pos_of_mem_forms
  exact (reads.congr fun ids => provided_mul_of (Nat.zero_le _)).congr_references fun ids => by simp

theorem reads_readDatum (kind : DatumKind) :
    (readDatum kind).Reads input
      (Datum.forms input.rules) Datum.references := by
  cases kind with
  | constant =>
    have onto : Function.Surjective Datum.constant := by
      intro datum
      cases datum with | constant value => exact ⟨value, rfl⟩
    exact reads_readConstant.wrap (fun _ _ => Datum.constant.inj) onto
      (fun _ => rfl) fun _ => rfl
  | optConstant =>
    have onto : Function.Surjective Datum.optConstant := by
      intro datum
      cases datum with | optConstant value => exact ⟨value, rfl⟩
    exact reads_readOptConstant.wrap (fun _ _ => Datum.optConstant.inj) onto
      (fun _ => rfl) fun _ => rfl
  | constants =>
    have onto : Function.Surjective Datum.constants := by
      intro datum
      cases datum with | constants value => exact ⟨value, rfl⟩
    exact reads_readConstants.wrap (fun _ _ => Datum.constants.inj) onto
      (fun _ => rfl) fun _ => rfl
  | string =>
    have onto : Function.Surjective Datum.string := by
      intro datum
      cases datum with | string value => exact ⟨value, rfl⟩
    exact (Reads.ofDecoder (Decoder.reads_readString input.source)).wrap
      (fun _ _ => Datum.string.inj) onto (fun _ => rfl) fun _ => rfl
  | integer =>
    have onto : Function.Surjective Datum.integer := by
      intro datum
      cases datum with | integer value => exact ⟨value, rfl⟩
    exact (Reads.ofDecoder Decoder.reads_readInteger).wrap (fun _ _ => Datum.integer.inj) onto
      (fun _ => rfl) fun _ => rfl
  | double =>
    have onto : Function.Surjective Datum.double := by
      intro datum
      cases datum with | double value => exact ⟨value, rfl⟩
    exact (Reads.ofDecoder Decoder.reads_readDouble.lift).wrap (fun _ _ => Datum.double.inj) onto
      (fun _ => rfl) fun _ => rfl
  | uint32 =>
    have onto : Function.Surjective Datum.uint32 := by
      intro datum
      cases datum with | uint32 value => exact ⟨value, rfl⟩
    exact (Reads.ofDecoder Decoder.reads_readVarint.lift).wrap (fun _ _ => Datum.uint32.inj) onto
      (fun _ => rfl) fun _ => rfl
  | uint8 =>
    have onto : Function.Surjective Datum.uint8 := by
      intro datum
      cases datum with | uint8 value => exact ⟨value, rfl⟩
    exact (Reads.ofDecoder Decoder.reads_readByte.lift).wrap (fun _ _ => Datum.uint8.inj) onto
      (fun _ => rfl) fun _ => rfl

/-- The forms of a child that is nested no deeper than a limit. A node is read without a newline
mark. -/
def childForms (rules : Rules) (depth : Nat) (child : Node) : Language UInt8 :=
  provided (child.height ≤ depth ∧ child.IsUnmarked) * child.forms rules

variable {readChild : TreeDecoder Node} {depth : Nat}

theorem prod_childForms (rules : Rules) (children : List Node) :
    (children.map (childForms rules depth)).prod =
      provided (Node.heightAll children ≤ depth ∧ Node.unmarkAll children = children) *
        Node.formsAll rules children := by
  induction children with
  | nil => exact (provided_mul_of ⟨Nat.zero_le _, rfl⟩).symm
  | cons child rest ih =>
    rw [List.map_cons, List.prod_cons, ih, childForms, mul_assoc, mul_provided_mul,
      provided_mul_provided_mul]
    refine congrArg (· * Node.formsAll rules (child :: rest)) (provided_congr ?_)
    simp only [Node.heightAll, Node.unmarkAll, Nat.max_le, List.cons.injEq, Node.IsUnmarked]
    exact and_and_and_comm

/-- A child never begins with the zero byte that stands for none. -/
theorem optional_childForms (rules : Rules) (child? : Option Node) :
    Wire.optional (childForms rules depth) child? =
      provided ((Value.optNode child?).height ≤ depth ∧
        (Value.optNode child?).unmark = .optNode child?) * (Value.optNode child?).forms rules := by
  ext bytes
  cases child? with
  | none => simp [Wire.optional, Value.height, Value.unmark, Value.forms]
  | some child =>
    simp only [Wire.optional, mem_stringsWith, childForms, mem_provided_mul, Value.height,
      Value.unmark, Value.forms, Value.optNode.injEq, Option.some.injEq, Node.IsUnmarked]
    constructor
    · exact And.left
    · intro h
      exact ⟨h, Node.head?_ne_zero_of_mem_forms h.2⟩

theorem readValue_optNode (kind : Kind) (name : String) :
    readValue readChild kind name .optNode = Value.optNode <$>
      ((liftM Decoder.readAbsent : TreeDecoder Bool) >>= fun absent =>
        if absent then pure none else some <$> readChild) := by
  rw [map_bind]
  refine bind_congr fun absent => ?_
  cases absent with
  | true => rfl
  | false => exact (Functor.map_map some Value.optNode readChild).symm

theorem readValue_nodes (kind : Kind) (name : String) :
    readValue readChild kind name .nodes = Value.nodes <$>
      ((liftM (liftM (Decoder.readCount Node.minSize) : Decoder LoadError Nat) :
        TreeDecoder Nat) >>= fun count => readMany count fun _ => readChild) := by
  rw [map_bind]
  rfl

/-- How a child is read tells how a field is read. -/
theorem reads_readValue
    (child : readChild.Reads input (childForms input.rules depth) Node.references) (kind : Kind)
    (name : String) (fieldKind : FieldKind) :
    (readValue readChild kind name fieldKind).Reads input
      (fun value => provided (value.height ≤ depth ∧ value.unmark = value) *
        value.forms input.rules) Value.references := by
  cases fieldKind with
  | node =>
    have onto : Function.Surjective Value.node := by
      intro value
      cases value with | node child => exact ⟨child, rfl⟩
    refine child.wrap (fun _ _ => Value.node.inj) onto (fun child => ?_) fun _ => rfl
    simp only [childForms, Value.height, Value.unmark, Value.forms, Node.IsUnmarked,
      Value.node.injEq]
  | optNode =>
    have nonempty : ∀ child, ∀ bytes ∈ childForms input.rules depth child, bytes ≠ [] := by
      rintro child _ form rfl
      cases Node.head?_of_mem_forms (mem_provided_mul.1 form).2
    have onto : Function.Surjective Value.optNode := by
      intro value
      cases value with | optNode child? => exact ⟨child?, rfl⟩
    rw [readValue_optNode]
    refine (child.optional nonempty).wrap (fun _ _ => Value.optNode.inj) onto
      (fun child? => (optional_childForms input.rules child?).symm) fun child? => ?_
    cases child? <;> rfl
  | nodes =>
    have counted := reads_counted (Decoder.announces_readCount Node.minSize).lift (fun _ => child)
      fun value bytes form => Node.minSize_le_of_mem_forms
        (fun _ _ => Varint.length_pos_of_mem_forms) (mem_provided_mul.1 form).2
    have onto : Function.Surjective Value.nodes := by
      intro value
      cases value with | nodes children => exact ⟨children, rfl⟩
    rw [readValue_nodes]
    refine counted.wrap (fun _ _ => Value.nodes.inj) onto (fun children => ?_)
      Node.referencesAll_eq
    rw [provided_mul_of (Nat.zero_le _), Wire.list, prod_childForms, mul_provided_mul]
    simp only [Value.height, Value.unmark, Value.nodes.injEq]
    rfl
  | datum datumKind =>
    have onto : Function.Surjective (Value.datum : Datum datumKind → _) := by
      intro value
      cases value with | datum datum => exact ⟨datum, rfl⟩
    exact (reads_readDatum datumKind).inField.wrap (fun _ _ => Value.datum.inj) onto
      (fun _ => provided_mul_of ⟨Nat.zero_le _, rfl⟩) fun _ => rfl

theorem reads_readFields
    (child : readChild.Reads input (childForms input.rules depth) Node.references) (kind : Kind)
    (layout : List Field) :
    (readFields readChild kind layout).Reads input
      (fun fields => provided (fields.height ≤ depth ∧ fields.unmark = fields) *
        fields.forms input.rules) Fields.references := by
  induction layout with
  | nil =>
    refine ((reads_pure Fields.nil).congr fun fields => ?_).congr_references fun fields => ?_
    · cases fields
      exact (provided_congr (by simp [Fields.height, Fields.unmark])).trans (mul_one _).symm
    · cases fields
      rfl
  | cons field layout ih =>
    have rest := fun value : Value field.kind => ih.map (Fields.cons value)
      (fun fields : Fields (field :: layout) => match fields with | .cons _ rest => rest.references)
      fun _ => rfl
    refine ((reads_readValue child kind field.name field.kind).bind rest ?_).congr fun fields => ?_
    · intro value fields bytes form
      obtain ⟨rest, rfl, -⟩ := mem_iSup_provided_mul.1 form
      rfl
    · cases fields with | cons value rest =>
      ext bytes
      simp only [Fields.height, Fields.unmark, Fields.cons.injEq, Nat.max_le]
      constructor
      · intro form
        obtain ⟨value', form⟩ := Language.mem_iSup.1 form
        obtain ⟨xs, hx, ys, hy, rfl⟩ := Language.mem_mul.1 form
        obtain ⟨rest', ⟨rfl, rfl⟩, others⟩ := mem_iSup_provided_mul.1 hy
        obtain ⟨⟨shallow, plain⟩, first⟩ := mem_provided_mul.1 hx
        obtain ⟨⟨shallow', plain'⟩, others⟩ := mem_provided_mul.1 others
        exact mem_provided_mul.2
          ⟨⟨⟨shallow, shallow'⟩, plain, plain'⟩, Language.append_mem_mul first others⟩
      · intro form
        obtain ⟨⟨⟨shallow, shallow'⟩, plain, plain'⟩, form⟩ := mem_provided_mul.1 form
        obtain ⟨xs, hx, ys, hy, rfl⟩ := Language.mem_mul.1 form
        refine Language.mem_iSup.2 ⟨value, Language.append_mem_mul
          (mem_provided_mul.2 ⟨⟨shallow, plain⟩, hx⟩) ?_⟩
        refine mem_iSup_provided_mul.2 ⟨rest, ⟨rfl, rfl⟩, ?_⟩
        exact mem_provided_mul.2 ⟨⟨shallow', plain'⟩, hy⟩

/-- Read what follows the tag of a node, and give it back with the length that a method definition
declares. -/
def readBody (depth : Nat) (kind : Kind) : TreeDecoder (Option UInt32 × Node) := do
  let id ← inField kind "node_id" Decoder.readVarint
  let location ← inField kind "location" Decoder.readLocation
  let declared? ← readDefLength kind
  let flags ← inField kind "flags" Decoder.readFlags
  let fields ← readFields (readNode depth) kind kind.layout
  return (declared?, ⟨kind, id, location, flags, false, fields⟩)

theorem reads_readDefLength (kind : Kind) :
    (readDefLength kind).Reads input (Wire.defLength kind) fun _ => [] := by
  by_cases definition : kind = .defNode
  · rw [readDefLength, if_pos definition]
    refine ((Reads.ofDecoder Decoder.reads_readUInt32.lift).inField.map some _ fun _ => rfl).congr
      fun declared? => ?_
    cases declared? with
    | none =>
      ext bytes
      simp [Wire.defLength, definition, Language.mem_iSup]
    | some declared => simp [Wire.defLength, definition]
  · rw [readDefLength, if_neg definition]
    refine (reads_pure none).congr fun declared? => ?_
    cases declared? with
    | none => simp [Wire.defLength, definition]
    | some declared =>
      ext bytes
      simp [Wire.defLength, definition]

theorem checkDefLength_some_apply (declared : UInt32) (afterTag : Nat) (input : TreeInput)
    (state : TreeState) :
    checkDefLength (some declared) afterTag input state =
      if input.options.verifyDefLengths &&
        state.position - afterTag - Node.defLengthSize != declared.toNat then
        .error (.ofCause (.defLengthMismatch declared
          (state.position - afterTag - Node.defLengthSize))) state
      else .ok () state := by
  simp only [checkDefLength, bind, TreeDecoder.bind, position, TreeDecoder.input]
  split <;> rfl

theorem checkDefLength_eq_ok_iff {declared? : Option UInt32} {afterTag : Nat}
    {state state' : TreeState} :
    checkDefLength declared? afterTag input state = .ok () state' ↔
      state' = state ∧ ∀ declared ∈ declared?, input.options.verifyDefLengths →
        state.position - afterTag - Node.defLengthSize = declared.toNat := by
  cases declared? with
  | none =>
    refine pure_eq_ok_iff.trans ?_
    simp
  | some declared =>
    rw [checkDefLength_some_apply]
    split
    · next wrong =>
      simp only [Bool.and_eq_true, bne_iff_ne] at wrong
      constructor
      · intro run
        cases run
      · rintro ⟨-, right⟩
        exact absurd (right declared rfl wrong.1) wrong.2
    · next right =>
      simp only [Bool.and_eq_true, bne_iff_ne, not_and, not_not] at right
      constructor
      · intro run
        cases run
        refine ⟨rfl, ?_⟩
        rintro _ ⟨⟩
        exact right
      · rintro ⟨rfl, -⟩
        rfl

/-- The check of a declared length is the only part of a node that looks at positions. -/
theorem readNode_succ (depth : Nat) :
    readNode (depth + 1) = (liftM Decoder.readByte : TreeDecoder UInt8) >>= fun tag =>
      match Kind.ofTag? tag with
      | none => fail (.unknownNodeType tag)
      | some kind => position >>= fun afterTag => readBody depth kind >>= fun body =>
        checkDefLength body.1 afterTag >>= fun _ => pure body.2 := by
  rw [readNode]
  refine bind_congr fun tag => ?_
  cases Kind.ofTag? tag with
  | none => rfl
  | some kind => simp only [readBody, bind_assoc, pure_bind]

theorem readNode_succ_eq_ok_iff {state state' : TreeState} {node : Node}
    (inside : state.position ≤ input.serialized.size) :
    readNode (depth + 1) input state = .ok node state' ↔
      ∃ kind declared?, StandsAt [kind.tag] input.serialized state.position ∧
        readBody depth kind input (state.moveTo (state.position + 1)) =
          .ok (declared?, node) state' ∧
        ∀ declared ∈ declared?, input.options.verifyDefLengths →
          state'.position - (state.position + 1) - Node.defLengthSize = declared.toNat := by
  have byte := Reads.ofDecoder Decoder.reads_readByte.lift state inside
  rw [readNode_succ, bind_eq_ok_iff]
  constructor
  · intro h
    obtain ⟨tag, middle, read, run⟩ := h
    obtain ⟨_, rfl, stands, follows⟩ := (byte tag middle).1 read
    obtain rfl := TreeState.follows_nil.1 follows
    cases known : Kind.ofTag? tag with
    | none =>
      simp only [known] at run
      cases run
    | some kind =>
      simp only [known] at run
      obtain ⟨afterTag, _, here, run⟩ := bind_eq_ok_iff.1 run
      cases here
      obtain ⟨⟨declared?, node'⟩, reached, body, run⟩ := bind_eq_ok_iff.1 run
      obtain ⟨_, _, checked, finish⟩ := bind_eq_ok_iff.1 run
      obtain ⟨rfl, right⟩ := checkDefLength_eq_ok_iff.1 checked
      obtain ⟨rfl, rfl⟩ := pure_eq_ok_iff.1 finish
      exact ⟨kind, declared?, (Kind.tag_of_ofTag? known) ▸ stands, body, right⟩
  · intro h
    obtain ⟨kind, declared?, stands, body, right⟩ := h
    refine ⟨kind.tag, _, (byte kind.tag _).2 ⟨_, rfl, stands, TreeState.follows_nil.2 rfl⟩, ?_⟩
    simp only [Kind.ofTag?_tag]
    refine bind_eq_ok_iff.2 ⟨_, _, rfl, bind_eq_ok_iff.2 ⟨_, state', body, ?_⟩⟩
    exact bind_eq_ok_iff.2 ⟨(), state', checkDefLength_eq_ok_iff.2 ⟨rfl, right⟩, rfl⟩

/-- The forms of what follows the tag of a node of the given kind. -/
def bodyForms (rules : Rules) (depth : Nat) (kind : Kind) (body : Option UInt32 × Node) :
    Language UInt8 :=
  provided (body.2.kind = kind ∧ body.2.height ≤ depth + 1 ∧ body.2.IsUnmarked) *
    body.2.parts rules body.1

theorem reads_readBody
    (child : (readNode depth).Reads input (childForms input.rules depth) Node.references)
    (kind : Kind) :
    (readBody depth kind).Reads input (bodyForms input.rules depth kind)
      fun body => body.2.references := by
  refine ((Reads.ofDecoder Decoder.reads_readVarint.lift).inField.bindAfter fun id =>
    (Reads.ofDecoder Decoder.reads_readLocation.lift).inField.bindAfter fun span =>
    (reads_readDefLength kind).bindAfter fun declared? =>
    (Reads.ofDecoder Decoder.reads_readFlags).inField.bindAfter fun flags =>
    (reads_readFields child kind kind.layout).map
      (fun fields => (declared?, Node.mk kind id span flags false fields)) _ fun _ => rfl).congr ?_
  intro h
  obtain ⟨declared?, kind', id, span, flags, newline, fields⟩ := h
  ext bytes
  simp only [bodyForms, Node.parts, provided_mul_provided_mul]
  simp only [Language.mul_iSup, mul_provided_mul, Language.mem_iSup, mem_provided_mul]
  constructor
  · intro h
    obtain ⟨_, _, _, _, _, ⟨⟨⟩, shallow, plain⟩, form⟩ := h
    exact ⟨⟨rfl, Nat.succ_le_succ shallow, Node.isUnmarked_mk.2 ⟨rfl, plain⟩⟩, form⟩
  · rintro ⟨⟨rfl, shallow, plain⟩, form⟩
    obtain ⟨rfl, below⟩ := Node.isUnmarked_mk.1 plain
    exact ⟨_, _, _, _, _, ⟨rfl, Nat.le_of_succ_le_succ shallow, below⟩, form⟩

/-- A node is read just where one of its forms stands and its references can be followed, if it is
nested no deeper than the depth that is left. -/
theorem reads_readNode (input : TreeInput) (depth : Nat) :
    (readNode depth).Reads input (childForms input.rules depth) Node.references := by
  induction depth with
  | zero =>
    refine reads_fail.congr fun node => ?_
    obtain ⟨kind, id, span, flags, newline, fields⟩ := node
    ext bytes
    simp [childForms, Node.height, Language.notMem_zero]
  | succ depth ih =>
    intro state inside node state'
    rw [readNode_succ_eq_ok_iff inside]
    have body := fun kind => reads_readBody ih kind (state.moveTo (state.position + 1))
    have numbers : ∀ n, ∀ bytes ∈ input.rules.varint n, 1 ≤ bytes.length :=
      fun _ _ => Varint.length_pos_of_mem_forms
    constructor
    · intro h
      obtain ⟨kind, declared?, stands, run, right⟩ := h
      obtain ⟨rest, form, stands', follows⟩ := (body kind stands.add_length_le _ state').1 run
      obtain ⟨⟨rfl, fits⟩, parts⟩ := mem_provided_mul.1 form
      have there := TreeState.position_of_follows follows
      have long := Node.four_le_length_of_mem_parts numbers parts
      refine ⟨node.kind.tag :: rest, mem_provided_mul.2 ⟨fits, Node.mem_forms_iff.2
        ⟨declared?, rest, parts, rfl, fun declared here checked => ?_⟩⟩,
        standsAt_cons.2 ⟨stands, stands'⟩, ?_⟩
      · have length := right declared here checked
        rw [there, TreeState.position_moveTo, Node.defLengthSize] at length
        rw [List.length_cons]
        omega
      · rw [List.length_cons, Nat.add_comm rest.length, ← Nat.add_assoc]
        exact TreeState.follows_moveTo.1 follows
    · intro h
      obtain ⟨_, form, stands, follows⟩ := h
      obtain ⟨fits, form⟩ := mem_provided_mul.1 form
      obtain ⟨declared?, rest, parts, rfl, length⟩ := Node.mem_forms_iff.1 form
      obtain ⟨stands, stands'⟩ := standsAt_cons.1 stands
      have there := TreeState.position_of_follows follows
      have after : (state.moveTo (state.position + 1)).Follows input node.references
          (state.position + 1 + rest.length) state' := by
        rw [List.length_cons, Nat.add_comm rest.length, ← Nat.add_assoc] at follows
        exact TreeState.follows_moveTo.2 follows
      refine ⟨node.kind, declared?, stands, (body _ stands.add_length_le _ state').2 ⟨rest,
        mem_provided_mul.2 ⟨⟨rfl, fits⟩, parts⟩, stands', after⟩, fun declared here checked => ?_⟩
      have length := length declared here checked
      rw [List.length_cons] at length there
      rw [there, Node.defLengthSize]
      omega

/-- No node is read outside the buffer. -/
theorem inside_of_readNode {state state' : TreeState} {node : Node}
    (run : readNode depth input state = .ok node state') :
    state.position ≤ input.serialized.size := by
  cases depth with
  | zero => cases run
  | succ depth =>
    rw [readNode_succ] at run
    obtain ⟨tag, middle, read, -⟩ := bind_eq_ok_iff.1 run
    obtain ⟨stop, byte, -⟩ := liftM_eq_ok_iff.1 read
    exact (Decoder.readByte_eq_ok_iff.1 ((Decoder.mapError_eq_ok_iff _).1 byte)).1.1

/-- What stood there when a node was read. -/
theorem exists_form_of_readNode {state state' : TreeState} {node : Node}
    (run : readNode depth input state = .ok node state') :
    ∃ bytes ∈ childForms input.rules depth node, StandsAt bytes input.serialized state.position ∧
      state.Follows input node.references (state.position + bytes.length) state' :=
  (reads_readNode input depth state (inside_of_readNode run) node state').1 run

/-- The reader of nodes accepts exactly its grammar: it stops at a position if and only if a form of
the node lies in between, the node is nested no deeper than allowed and without newline marks, and
its references can be resolved. -/
theorem readNode_accepts_iff (input : TreeInput) (depth : Nat) (state : TreeState) (node : Node)
    (stop : Nat) :
    (∃ state', readNode depth input state = .ok node state' ∧ state'.position = stop) ↔
      (∃ bytes ∈ node.forms (.wire input.source input.options.verifyDefLengths),
        StandsAt bytes input.serialized state.position ∧ stop = state.position + bytes.length) ∧
      node.height ≤ depth ∧ node.IsUnmarked ∧
      ∀ id ∈ node.references, state.pool.Resolves input.serialized input.source id := by
  constructor
  · intro h
    obtain ⟨state', run, rfl⟩ := h
    have inside := inside_of_readNode run
    obtain ⟨bytes, form, stands, follows⟩ := (reads_readNode input depth state inside _ _).1 run
    obtain ⟨⟨shallow, plain⟩, form⟩ := mem_provided_mul.1 form
    exact ⟨⟨bytes, form, stands, TreeState.position_of_follows follows⟩, shallow, plain,
      TreeState.exists_follows_iff.1 ⟨state', follows⟩⟩
  · intro h
    obtain ⟨⟨bytes, form, stands, rfl⟩, shallow, plain, resolved⟩ := h
    obtain ⟨state', follows⟩ := TreeState.exists_follows_iff.2 resolved
    refine ⟨state', (reads_readNode input depth state stands.1 _ _).2 ⟨bytes, ?_, stands, follows⟩,
      TreeState.position_of_follows follows⟩
    exact mem_provided_mul.2 ⟨⟨shallow, plain⟩, form⟩

end TreeDecoder

end PrismTree
