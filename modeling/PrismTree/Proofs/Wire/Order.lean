import PrismTree.Proofs.Failure.Datum
import PrismTree.Proofs.Node.Children
import PrismTree.Proofs.Wire.Head

/-!
# The order of the nodes on the wire

A recorder reads what a tree decoder reads and writes down, each time that the reading of a node is
completed, the node and where its tag stands. Nodes are completed after their children, so the
record is not in the order of the tags. Put into that order it lists the nodes in pre-order.
-/
namespace PrismTree

/-- A node that was read, and where its tag stands. -/
structure Construction where
  start : Nat
  node : Node

/-- A tree decoder with a record of the nodes that it has completed. -/
abbrev Recorder : Type → Type :=
  StateT (List Construction) TreeDecoder

namespace Recorder

/-- Read the value of a field of a node of the given kind, given how to read a child. -/
def readValue (readChild : Recorder Node) (kind : Kind) (name : String) :
    (fieldKind : FieldKind) → Recorder (Value fieldKind)
  | .node => .node <$> readChild
  | .optNode => do
    if ← Decoder.readAbsent then
      return .optNode none
    else
      return .optNode (some (← readChild))
  | .nodes => do
    let count ← Decoder.readCount Node.minSize
    return .nodes (← readMany count fun _ => readChild)
  | .datum datumKind =>
    .datum <$> liftM (TreeDecoder.inField kind name (TreeDecoder.readDatum datumKind))

/-- Read the fields of a layout in order, given how to read a child. -/
def readFields (readChild : Recorder Node) (kind : Kind) :
    (layout : List Field) → Recorder (Fields layout)
  | [] => return .nil
  | field :: layout => do
    let value ← readValue readChild kind field.name field.kind
    let rest ← readFields readChild kind layout
    return .cons value rest

/-- Read a node with at most the given depth, and record it. -/
def readNode : (depth : Nat) → Recorder Node
  | 0 => TreeDecoder.readNode 0
  | depth + 1 => do
    let start ← TreeDecoder.position
    let (afterTag, head) ← TreeDecoder.readHead
    let fields ← readFields (readNode depth) head.kind head.kind.layout
    TreeDecoder.checkDefLength head.declared? afterTag
    let node := head.node fields
    modify fun record => record ++ [⟨start, node⟩]
    return node

end Recorder

/-- The head of the node stands where its tag is said to stand. -/
def Construction.HasHead (construction : Construction) (buffer : ByteArray) : Prop :=
  ∃ head stop, StandsBetween (NodeHead.forms head) buffer construction.start stop ∧
    head.kind = construction.node.kind ∧ head.id = construction.node.id ∧
    head.location = construction.node.location ∧ head.flags = construction.node.flags

/-- In the order of the tags, which all stand between two positions, a record lists some nodes. -/
structure IsRecordOf (buffer : ByteArray) (start stop : Nat) (record : List Construction)
    (nodes : List Node) : Prop where
  le : start ≤ stop
  ordered : ∃ listed : List Construction, listed.Perm record ∧
    listed.map (·.node) = nodes ∧ listed.Pairwise (·.start < ·.start) ∧
    ∀ construction ∈ listed, start ≤ construction.start ∧ construction.start < stop ∧
      construction.HasHead buffer

section IsRecordOf

variable {buffer : ByteArray} {start middle stop : Nat} {record record' : List Construction}
  {nodes nodes' : List Node}

theorem IsRecordOf.nil (le : start ≤ stop) : IsRecordOf buffer start stop [] [] :=
  ⟨le, [], .nil, rfl, .nil, nofun⟩

theorem IsRecordOf.append (first : IsRecordOf buffer start middle record nodes)
    (second : IsRecordOf buffer middle stop record' nodes') :
    IsRecordOf buffer start stop (record ++ record') (nodes ++ nodes') := by
  obtain ⟨le, listed, perm, names, ordered, within⟩ := first
  obtain ⟨le', listed', perm', names', ordered', within'⟩ := second
  refine ⟨Nat.le_trans le le', listed ++ listed', perm.append perm', ?_, ?_, ?_⟩
  · rw [List.map_append, names, names']
  · refine List.pairwise_append.2 ⟨ordered, ordered', fun first member second member' => ?_⟩
    have before := (within first member).2.1
    have after := (within' second member').1
    omega
  · intro construction member
    obtain member | member := List.mem_append.1 member
    · obtain ⟨low, high, head⟩ := within construction member
      exact ⟨low, by omega, head⟩
    · obtain ⟨low, high, head⟩ := within' construction member
      exact ⟨by omega, high, head⟩

/-- A node is completed after the nodes below it, and its tag stands in front of theirs. -/
theorem IsRecordOf.complete {node : Node} (below : IsRecordOf buffer middle stop record nodes)
    (before : start < middle) (head : Construction.HasHead ⟨start, node⟩ buffer) :
    IsRecordOf buffer start stop (record ++ [⟨start, node⟩]) (node :: nodes) := by
  obtain ⟨le, listed, perm, names, ordered, within⟩ := below
  refine ⟨by omega, ⟨start, node⟩ :: listed, ?_, ?_, ?_, ?_⟩
  · exact (perm.cons _).trans (List.perm_append_singleton _ _).symm
  · rw [List.map_cons, names]
  · refine List.pairwise_cons.2 ⟨fun other member => ?_, ordered⟩
    have after := (within other member).1
    exact Nat.lt_of_lt_of_le before after
  · intro construction member
    obtain rfl | member := List.mem_cons.1 member
    · exact ⟨Nat.le_refl _, Nat.lt_of_lt_of_le before le, head⟩
    · obtain ⟨low, high, head⟩ := within construction member
      exact ⟨by omega, high, head⟩

end IsRecordOf

/-- A recorder reads what a tree decoder reads and fails where that fails. What it adds to its
record lists the given nodes of the value. -/
structure Recorder.Records {α : Type} (input : TreeInput) (recorder : Recorder α)
    (decoder : TreeDecoder α) (nodes : α → List Node) : Prop where
  fails : ∀ state error reached record, state.position ≤ input.serialized.size →
    decoder input state = .error error reached →
    recorder.run record input state = .error error reached
  reads : ∀ state value reached record, state.position ≤ input.serialized.size →
    decoder input state = .ok value reached →
    reached.position ≤ input.serialized.size ∧
    ∃ more, recorder.run record input state = .ok (value, record ++ more) reached ∧
      IsRecordOf input.serialized state.position reached.position more (nodes value)

namespace Recorder

open TreeDecoder (bind_apply bind_eq_ok_iff bind_eq_error_iff map_eq_ok_iff map_eq_error_iff
  pure_eq_ok_iff)

variable {α β γ : Type} {input : TreeInput} {state reached : TreeState}
  {record record' : List Construction} {recorder : Recorder α} {decoder : TreeDecoder α}
  {nodes : α → List Node}

section Runs

variable {value : α} {error : LoadError}

theorem run_bind_of_ok {next : α → Recorder β}
    (run : recorder.run record input state = .ok (value, record') reached) :
    (recorder >>= next).run record input state = (next value).run record' input reached := by
  rw [StateT.run_bind, bind_apply, run]

theorem run_bind_of_error {next : α → Recorder β}
    (run : recorder.run record input state = .error error reached) :
    (recorder >>= next).run record input state = .error error reached := by
  rw [StateT.run_bind, bind_apply, run]

theorem run_lift_of_ok (run : decoder input state = .ok value reached) :
    (liftM decoder : Recorder α).run record input state = .ok (value, record) reached := by
  show (decoder >>= fun value => pure (value, record)) input state = _
  rw [bind_apply, run]
  rfl

theorem run_lift_of_error (run : decoder input state = .error error reached) :
    (liftM decoder : Recorder α).run record input state = .error error reached := by
  show (decoder >>= fun value => pure (value, record)) input state = _
  rw [bind_apply, run]

end Runs

section Rules

theorem records_pure {value : α} (leaf : nodes value = []) :
    Records input (pure value) (pure value) nodes := by
  constructor
  · intro state error reached record inside run
    cases run
  · intro state result reached record inside run
    obtain ⟨rfl, rfl⟩ := pure_eq_ok_iff.1 run
    refine ⟨inside, [], ?_, leaf ▸ .nil (Nat.le_refl _)⟩
    rw [List.append_nil]
    rfl

/-- What a tree decoder reads without children adds nothing. -/
theorem records_lift (advances : decoder.Advances input) (leaf : ∀ value, nodes value = []) :
    Records input (liftM decoder) decoder nodes := by
  constructor
  · intro state error reached record _ run
    exact run_lift_of_error run
  · intro state value reached record inside run
    obtain ⟨le, inside', -⟩ := advances state value reached inside run
    refine ⟨inside', [], ?_, leaf value ▸ .nil le⟩
    rw [List.append_nil]
    exact run_lift_of_ok run

/-- Of two recorders in sequence the second adds to the record of the first. -/
theorem Records.seq {next : α → Recorder β} {next' : α → TreeDecoder β} {f : α → β → γ}
    {nodes' : β → List Node} {all : γ → List Node} (first : Records input recorder decoder nodes)
    (second : ∀ value, Records input (next value) (next' value) nodes')
    (together : ∀ value result, all (f value result) = nodes value ++ nodes' result) :
    Records input (recorder >>= fun value => f value <$> next value)
      (decoder >>= fun value => f value <$> next' value) all := by
  constructor
  · intro state error reached record inside run
    obtain failed | ⟨value, middle, start, run⟩ := bind_eq_error_iff.1 run
    · exact run_bind_of_error (first.fails state error reached record inside failed)
    · obtain ⟨inside', more, recorded, -⟩ := first.reads state value middle record inside start
      have failed := (second value).fails middle error reached (record ++ more) inside'
        (map_eq_error_iff.1 run)
      rw [run_bind_of_ok recorded, map_eq_pure_bind]
      exact run_bind_of_error failed
  · intro state result reached record inside run
    obtain ⟨value, middle, start, run⟩ := bind_eq_ok_iff.1 run
    obtain ⟨result', finish, rfl⟩ := map_eq_ok_iff.1 run
    obtain ⟨inside', more, recorded, lists⟩ := first.reads state value middle record inside start
    obtain ⟨inside'', more', recorded', lists'⟩ :=
      (second value).reads middle result' reached (record ++ more) inside' finish
    refine ⟨inside'', more ++ more', ?_, together value result' ▸ lists.append lists'⟩
    rw [run_bind_of_ok recorded, map_eq_pure_bind, run_bind_of_ok recorded', List.append_assoc]
    rfl

theorem Records.map {f : α → β} {nodes' : β → List Node}
    (first : Records input recorder decoder nodes)
    (same : ∀ value, nodes' (f value) = nodes value) :
    Records input (f <$> recorder) (f <$> decoder) nodes' := by
  have nothing : Records input (pure ()) (pure ()) fun _ => [] := records_pure rfl
  have both : Records input ((pure () : Recorder Unit) >>= fun _ => f <$> recorder)
      ((pure () : TreeDecoder Unit) >>= fun _ => f <$> decoder) nodes' :=
    nothing.seq (fun _ => first) fun _ => same
  rwa [pure_bind, pure_bind] at both

/-- What is read without children may go first. -/
theorem Records.after {next : α → Recorder β} {next' : α → TreeDecoder β}
    {nodes' : β → List Node} (advances : decoder.Advances input)
    (second : ∀ value, Records input (next value) (next' value) nodes') :
    Records input (liftM decoder >>= next) (decoder >>= next') nodes' := by
  have first : Records input (liftM decoder) decoder fun _ => [] :=
    records_lift advances fun _ => rfl
  have both : Records input (liftM decoder >>= fun value => id <$> next value)
      (decoder >>= fun value => id <$> next' value) nodes' := first.seq second fun _ _ => rfl
  simpa only [id_map] using both

theorem Records.readMany {item : Nat → Recorder α} {item' : Nat → TreeDecoder α}
    (each : ∀ index, Records input (item index) (item' index) nodes) (count : Nat) :
    Records input (PrismTree.readMany count item) (PrismTree.readMany count item')
      fun values => values.flatMap nodes := by
  have tail : ∀ index, Records input (readManyFrom item index [] count)
      (readManyFrom item' index [] count) fun values => values.flatMap nodes := by
    induction count with
    | zero => exact fun _ => records_pure rfl
    | succ count ih =>
      intro index
      rw [readManyFrom_succ, readManyFrom_succ]
      exact (each index).seq (fun _ => ih (index + 1)) fun _ _ => List.flatMap_cons
  exact tail 0

end Rules

section Fields

variable {readChild : Recorder Node} {readChild' : TreeDecoder Node}
  (child : Records input readChild readChild' Node.preorder)

include child

theorem records_readValue (kind : Kind) (name : String) (fieldKind : FieldKind) :
    Records input (readValue readChild kind name fieldKind)
      (TreeDecoder.readValue readChild' kind name fieldKind)
      fun value => value.children.flatMap Node.preorder := by
  cases fieldKind with
  | node => exact child.map fun node => List.flatMap_singleton _ _
  | optNode =>
    apply Records.after (TreeDecoder.advances_liftM TreeDecoder.advances_readAbsent)
    intro absent
    cases absent with
    | true => exact records_pure rfl
    | false =>
      have present : Records input ((fun node => Value.optNode (some node)) <$> readChild)
          ((fun node => Value.optNode (some node)) <$> readChild')
          fun value => value.children.flatMap Node.preorder :=
        child.map fun node => List.flatMap_singleton _ _
      rw [map_eq_pure_bind, map_eq_pure_bind] at present
      exact present
  | nodes =>
    apply Records.after
      (TreeDecoder.advances_liftM (Decoder.announces_readCount Node.minSize).lift.advances)
    intro count
    have many : Records input (Value.nodes <$> readMany count fun _ => readChild)
        (Value.nodes <$> readMany count fun _ => readChild')
        fun value => value.children.flatMap Node.preorder :=
      (Records.readMany (fun _ => child) count).map fun _ => rfl
    rw [map_eq_pure_bind, map_eq_pure_bind] at many
    exact many
  | datum datumKind =>
    have advances : (TreeDecoder.inField kind name (TreeDecoder.readDatum datumKind)).Advances
        input := (TreeDecoder.reads_readDatum datumKind).inField.advances
    have datum : Records input
        (liftM (TreeDecoder.inField kind name (TreeDecoder.readDatum datumKind)))
        (TreeDecoder.inField kind name (TreeDecoder.readDatum datumKind)) fun _ => [] :=
      records_lift advances fun _ => rfl
    exact datum.map fun _ => rfl

theorem records_readFields (kind : Kind) (layout : List Field) :
    Records input (readFields readChild kind layout)
      (TreeDecoder.readFields readChild' kind layout)
      fun fields => fields.children.flatMap Node.preorder := by
  induction layout with
  | nil => exact records_pure rfl
  | cons field layout ih =>
    have both : Records input
        (readValue readChild kind field.name field.kind >>= fun value =>
          Fields.cons value <$> readFields readChild kind layout)
        (TreeDecoder.readValue readChild' kind field.name field.kind >>= fun value =>
          Fields.cons value <$> TreeDecoder.readFields readChild' kind layout)
        fun fields => fields.children.flatMap Node.preorder :=
      (records_readValue child kind field.name field.kind).seq (fun _ => ih)
        fun _ _ => List.flatMap_append
    simp only [map_eq_pure_bind] at both
    exact both

end Fields

/-- Where the head of a node was read, its fields are recorded next, and then the node itself. -/
theorem run_readNode_of_head {depth afterTag : Nat} {head : NodeHead}
    (front : TreeDecoder.readHead input state = .ok (afterTag, head) reached) :
    (readNode (depth + 1)).run record input state =
      (readFields (readNode depth) head.kind head.kind.layout >>= fun fields =>
        liftM (TreeDecoder.checkDefLength head.declared? afterTag) >>= fun _ =>
        modify (fun record => record ++ [⟨state.position, head.node fields⟩]) >>= fun _ =>
        pure (head.node fields)).run record input reached := by
  have here : TreeDecoder.position input state = .ok state.position state := rfl
  rw [readNode, run_bind_of_ok (run_lift_of_ok here), run_bind_of_ok (run_lift_of_ok front)]

section Node

variable {depth : Nat} (child : Records input (readNode depth) (TreeDecoder.readNode depth)
  Node.preorder)

include child

/-- Where the reading of a node fails, in its head or behind it, the recorder fails. -/
theorem run_readNode_of_error {error : LoadError}
    (run : TreeDecoder.readNode (depth + 1) input state = .error error reached) :
    (readNode (depth + 1)).run record input state = .error error reached := by
  rw [TreeDecoder.readNode_eq] at run
  obtain failed | ⟨⟨afterTag, head⟩, middle, front, run⟩ := bind_eq_error_iff.1 run
  · have here : TreeDecoder.position input state = .ok state.position state := rfl
    rw [readNode, run_bind_of_ok (run_lift_of_ok here)]
    exact run_bind_of_error (run_lift_of_error failed)
  · rw [run_readNode_of_head front]
    have inside := (TreeDecoder.add_minSize_le_of_readHead front).2
    have fields := records_readFields child head.kind head.kind.layout
    obtain failed | ⟨values, last, read, run⟩ := bind_eq_error_iff.1 run
    · exact run_bind_of_error (fields.fails _ _ _ record inside failed)
    · obtain ⟨-, more, recorded, -⟩ := fields.reads _ _ _ record inside read
      rw [run_bind_of_ok recorded]
      obtain failed | ⟨_, _, -, finish⟩ := bind_eq_error_iff.1 run
      · exact run_bind_of_error (run_lift_of_error failed)
      · cases finish

/-- Where a node is read, the recorder adds the nodes below it and then the node itself. -/
theorem run_readNode_of_ok {node : Node}
    (run : TreeDecoder.readNode (depth + 1) input state = .ok node reached) :
    reached.position ≤ input.serialized.size ∧
      ∃ more, (readNode (depth + 1)).run record input state = .ok (node, record ++ more) reached ∧
        IsRecordOf input.serialized state.position reached.position more node.preorder := by
  rw [TreeDecoder.readNode_eq] at run
  obtain ⟨⟨afterTag, head⟩, middle, front, run⟩ := bind_eq_ok_iff.1 run
  obtain ⟨values, last, read, run⟩ := bind_eq_ok_iff.1 run
  obtain ⟨_, _, checked, finish⟩ := bind_eq_ok_iff.1 run
  obtain ⟨rfl, rfl⟩ := pure_eq_ok_iff.1 finish
  obtain ⟨long, inside⟩ := TreeDecoder.add_minSize_le_of_readHead front
  have fields := records_readFields child head.kind head.kind.layout
  obtain ⟨inside', more, recorded, lists⟩ := fields.reads _ _ _ record inside read
  -- the head takes bytes, so the tags of the children stand behind its own
  have before : state.position < middle.position := by
    rw [Node.minSize] at long
    omega
  have shown : Construction.HasHead ⟨state.position, head.node values⟩ input.serialized :=
    ⟨head, middle.position, (TreeDecoder.standsBetween_of_readHead front).2.1, rfl, rfl, rfl, rfl⟩
  obtain ⟨rfl, -⟩ := TreeDecoder.checkDefLength_eq_ok_iff.1 checked
  refine ⟨inside', more ++ [⟨state.position, head.node values⟩], ?_, ?_⟩
  · rw [run_readNode_of_head front, run_bind_of_ok recorded,
      run_bind_of_ok (run_lift_of_ok checked), ← List.append_assoc]
    rfl
  · rw [Node.preorder_eq]
    exact lists.complete before shown

end Node

/-- What the recorder of nodes adds to its record lists the nodes of the tree in pre-order. -/
theorem records_readNode (depth : Nat) :
    Records input (readNode depth) (TreeDecoder.readNode depth) Node.preorder := by
  induction depth with
  | zero =>
    constructor
    · intro state error reached record _ run
      exact run_lift_of_error run
    · intro state value reached record _ run
      cases run
  | succ depth ih =>
    constructor
    · intro state error reached record _ run
      exact run_readNode_of_error ih run
    · intro state node reached record _ run
      exact run_readNode_of_ok ih run

/-- The reader of nodes reads what the recorder reads. The record of a reading that succeeds lists
the tree in pre-order, in the order of the tags, so the nodes are counted as often as a reading of a
node was completed. -/
theorem nodes_of_record {depth : Nat} {node : Node}
    (run : TreeDecoder.readNode depth input state = .ok node reached) :
    ∃ record listed : List Construction,
      (readNode depth).run [] input state = .ok (node, record) reached ∧
      listed.Perm record ∧ listed.map (·.node) = node.preorder ∧
      listed.Pairwise (·.start < ·.start) ∧
      (∀ construction ∈ listed, state.position ≤ construction.start ∧
        construction.start < reached.position ∧ construction.HasHead input.serialized) ∧
      node.count = record.length := by
  have inside := TreeDecoder.inside_of_readNode run
  obtain ⟨-, record, recorded, -, listed, perm, names, ordered, within⟩ :=
    (records_readNode depth).reads state node reached [] inside run
  refine ⟨record, listed, recorded, perm, names, ordered, within, ?_⟩
  rw [Node.count_eq, ← names, List.length_map, perm.length_eq]

/-- The bytes of `nil and nil`. -/
def conjunction : ByteArray :=
  ⟨#[Kind.andNode.tag, 1, 0, 11, 0, Kind.nilNode.tag, 2, 0, 3, 0, Kind.nilNode.tag, 3, 8, 3, 0]⟩

theorem nodes_of_record_conjunction :
    ∃ node reached, TreeDecoder.readNode 2 ⟨conjunction, .empty, {}⟩
        ⟨0, .fresh .utf8 ⟨0, 0⟩, #[]⟩ = .ok node reached ∧ node.count = 3 ∧
      ∃ record listed : List Construction,
        (readNode 2).run [] ⟨conjunction, .empty, {}⟩ ⟨0, .fresh .utf8 ⟨0, 0⟩, #[]⟩ =
          .ok (node, record) reached ∧
        listed.Perm record ∧ listed.map (·.node) = node.preorder ∧ record.length = 3 := by
  have counted : (match TreeDecoder.readNode 2 ⟨conjunction, .empty, {}⟩
      ⟨0, .fresh .utf8 ⟨0, 0⟩, #[]⟩ with
      | .ok node _ => node.count
      | .error _ _ => 0) = 3 := by
    decide +kernel
  cases run : TreeDecoder.readNode 2 ⟨conjunction, .empty, {}⟩ ⟨0, .fresh .utf8 ⟨0, 0⟩, #[]⟩ with
  | error error reached =>
    rw [run] at counted
    cases counted
  | ok node reached =>
    rw [run] at counted
    obtain ⟨record, listed, recorded, perm, names, -, -, length⟩ := nodes_of_record run
    exact ⟨node, reached, rfl, counted, record, listed, recorded, perm, names,
      length.symm.trans counted⟩

end Recorder

end PrismTree
