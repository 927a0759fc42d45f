import PrismTree.Proofs.Wire.Options
import PrismTree.Proofs.Wire.Placement

/-!
# The check of declared lengths

Wherever a node is read, a placed tree stands. Without the check of declared lengths a reading says
nothing about the lengths in that tree; with the check it ends in the same way, unless a length is
wrong, and then it fails with the first that is. The check never compares a length with fewer bytes
than the word that declares it has.
-/
namespace PrismTree

/-- The same input with another choice about the lengths of method definitions. -/
def TreeInput.checking (checks : Bool) (input : TreeInput) : TreeInput :=
  { input with options := { input.options with verifyDefLengths := checks } }

/-- An error of the check of lengths. -/
def LoadError.IsLengthMismatch (error : LoadError) : Prop :=
  ∃ declared actual, error = .ofCause (.defLengthMismatch declared actual)

/-- How a run with the check of lengths ends, compared with one without: in the same way if no
length is wrong, and otherwise with the first that is. -/
def Verdict {α : Type} (lengths : List DeclaredLength)
    (checked unchecked : EStateM.Result LoadError TreeState α) : Prop :=
  match lengths.find? (·.IsWrong) with
  | none => checked = unchecked
  | some length => ∃ reached,
      checked = .error (.ofCause (.defLengthMismatch length.declared length.actual)) reached

namespace TreeDecoder

variable {α β : Type} {decoder : TreeDecoder α} {next : α → TreeDecoder β} {input : TreeInput}
  {state middle reached : TreeState} {value : α} {depth : Nat}

/-- What follows a decoder matters only where the decoder leads. -/
theorem bind_congr_run {next' : α → TreeDecoder β}
    (same : ∀ value middle, decoder input state = .ok value middle →
      next value input middle = next' value input middle) :
    (decoder >>= next) input state = (decoder >>= next') input state := by
  rw [bind_apply, bind_apply]
  cases run : decoder input state with
  | error error reached => rfl
  | ok value middle => exact same value middle run

/-- Compare a declared length, and do something else if fewer bytes were read than the word itself
has. -/
def checkDefLengthOr (underflow : TreeDecoder Unit) (declared? : Option UInt32) (afterTag : Nat) :
    TreeDecoder Unit := do
  match declared? with
  | none => return ()
  | some declared =>
    if (← position) < afterTag + Node.defLengthSize then
      underflow
    else
      checkDefLength (some declared) afterTag

/-- Read a node, and do something else wherever a length would be compared with fewer bytes than its
word has. -/
def readNodeOr (underflow : TreeDecoder Unit) : (depth : Nat) → TreeDecoder Node
  | 0 => readNode 0
  | depth + 1 => do
    let tag ← Decoder.readByte
    match Kind.ofTag? tag with
    | none => fail (.unknownNodeType tag)
    | some kind =>
      let afterTag ← position
      let id ← inField kind "node_id" Decoder.readVarint
      let location ← inField kind "location" Decoder.readLocation
      let declared? ← readDefLength kind
      let flags ← inField kind "flags" Decoder.readFlags
      let fields ← readFields (readNodeOr underflow depth) kind kind.layout
      checkDefLengthOr underflow declared? afterTag
      return ⟨kind, id, location, flags, false, fields⟩

theorem checkDefLengthOr_eq (underflow : TreeDecoder Unit) (declared? : Option UInt32)
    {afterTag : Nat} (enough : afterTag + Node.defLengthSize ≤ state.position) :
    checkDefLengthOr underflow declared? afterTag input state =
      checkDefLength declared? afterTag input state := by
  cases declared? with
  | none => rfl
  | some declared =>
    have known : ¬state.position < afterTag + Node.defLengthSize := Nat.not_lt.2 enough
    simp only [checkDefLengthOr, bind_apply, position, if_neg known]

/-- Behind the tag of a node at least four bytes are read. -/
theorem add_defLengthSize_le_of_readBody {kind : Kind} {body : Option UInt32 × Node}
    (inside : state.position ≤ input.serialized.size)
    (run : readBody depth kind input state = .ok body reached) :
    state.position + Node.defLengthSize ≤ reached.position := by
  have reads := reads_readBody (reads_readNode input depth) kind state inside body reached
  obtain ⟨bytes, form, -, follows⟩ := reads.1 run
  have stop := TreeState.position_of_follows follows
  have parts := (mem_provided_mul.1 form).2
  have numbers : ∀ n, ∀ bytes ∈ input.rules.varint n, 1 ≤ bytes.length :=
    fun _ _ => Varint.length_pos_of_mem_forms
  have long := Node.four_le_length_of_mem_parts numbers parts
  rw [Node.defLengthSize]
  omega

/-- Whatever would be done instead, no length is ever compared with fewer bytes than its word has.
So the number of bytes without the word is never negative. -/
theorem readNodeOr_eq (underflow : TreeDecoder Unit) (depth : Nat) :
    readNodeOr underflow depth = readNode depth := by
  induction depth with
  | zero => rfl
  | succ depth ih =>
    have unfolded : readNodeOr underflow (depth + 1) =
        (liftM Decoder.readByte : TreeDecoder UInt8) >>= fun tag =>
          match Kind.ofTag? tag with
          | none => fail (.unknownNodeType tag)
          | some kind => position >>= fun afterTag => readBody depth kind >>= fun body =>
            checkDefLengthOr underflow body.1 afterTag >>= fun _ => pure body.2 := by
      rw [readNodeOr, ih]
      apply bind_congr
      intro tag
      cases Kind.ofTag? tag with
      | none => rfl
      | some kind => simp only [readBody, bind_assoc, pure_bind]
    -- the two differ in the check only, and before it the head of the node was read
    rw [unfolded, readNode_succ]
    funext input state
    apply bind_congr_run
    intro tag middle read
    have inside : middle.position ≤ input.serialized.size := by
      obtain ⟨stop, byte, rfl⟩ := liftM_eq_ok_iff.1 read
      obtain ⟨stands, rfl⟩ :=
        Decoder.readByte_eq_ok_iff.1 ((Decoder.mapError_eq_ok_iff _).1 byte)
      exact stands.add_length_le
    cases Kind.ofTag? tag with
    | none => rfl
    | some kind =>
      apply bind_congr_run
      intro afterTag _ here
      cases here
      apply bind_congr_run
      intro body reached run
      have enough := add_defLengthSize_le_of_readBody inside run
      rw [bind_apply, bind_apply, checkDefLengthOr_eq underflow body.1 enough]

theorem sameBytes_checking (checks checks' : Bool) :
    (input.checking checks).SameBytes (input.checking checks') :=
  ⟨rfl, rfl⟩

section

variable {length : DeclaredLength} {checked unchecked : EStateM.Result LoadError TreeState α}

theorem verdict_of_right (right : ¬length.IsWrong) (same : checked = unchecked) :
    Verdict [length] checked unchecked := by
  unfold Verdict
  simp [right, same]

theorem verdict_of_wrong (wrong : length.IsWrong) (failed : checked =
      .error (.ofCause (.defLengthMismatch length.declared length.actual)) reached) :
    Verdict [length] checked unchecked := by
  unfold Verdict
  simp [wrong, failed]

end

/-- What the check of one definition makes of a run. -/
theorem verdict_checkDefLength (declared? : Option UInt32) (afterTag : Nat) :
    Verdict (declared?.toList.map fun declared =>
        ⟨declared, state.position - afterTag - Node.defLengthSize⟩)
      (checkDefLength declared? afterTag (input.checking true) state) (.ok () state) := by
  cases declared? with
  | none => rfl
  | some declared =>
    by_cases right : state.position - afterTag - Node.defLengthSize = declared.toNat
    · apply verdict_of_right (not_not.2 right)
      exact checkDefLength_eq_ok_iff.2 ⟨rfl, fun _ here _ => Option.some.inj here ▸ right⟩
    · have failed : checkDefLength (some declared) afterTag (input.checking true) state =
          .error (.ofCause (.defLengthMismatch declared
            (state.position - afterTag - Node.defLengthSize))) state := by
        simp only [checkDefLength, bind_apply, position, TreeDecoder.input, TreeInput.checking,
          Bool.true_and, bne_iff_ne]
        rw [if_pos right]
        rfl
      exact verdict_of_wrong right failed

theorem checkDefLength_unchecked (declared? : Option UInt32) (afterTag : Nat) :
    checkDefLength declared? afterTag (input.checking false) state = .ok () state := by
  apply checkDefLength_eq_ok_iff.2
  refine ⟨rfl, fun _ _ asked => ?_⟩
  cases asked

/-- A checked run ends as one without checks, or a length does not match. -/
theorem runsAlike_checking (depth : Nat) :
    RunsAlike LoadError.IsLengthMismatch (input.checking true) (input.checking false)
      (readNode depth) (readNode depth) := by
  induction depth with
  | zero => exact .of_eq rfl
  | succ depth ih =>
    apply runsAlike_readNode_succ (sameBytes_checking true false) ih
    intro declared? afterTag state
    have verdict := @verdict_checkDefLength input state declared? afterTag
    rw [checkDefLength_unchecked]
    unfold Verdict at verdict
    split at verdict
    · exact Or.inl verdict
    · next length _ =>
      obtain ⟨reached, failed⟩ := verdict
      exact Or.inr ⟨_, reached, failed, length.declared, length.actual, rfl⟩

section Verdict

variable {lengths lengths' : List DeclaredLength} {result : EStateM.Result LoadError TreeState β}

/-- Of lengths in sequence, the first that is wrong comes first. -/
theorem verdict_bind (first : Verdict lengths (decoder input state) (.ok value middle))
    (second : Verdict lengths' (next value input middle) result) :
    Verdict (lengths ++ lengths') ((decoder >>= next) input state) result := by
  unfold Verdict at first second ⊢
  rw [List.find?_append, bind_apply]
  cases wrong : lengths.find? (·.IsWrong) with
  | some length =>
    rw [wrong] at first
    obtain ⟨reached, failed⟩ := first
    rw [failed]
    exact ⟨reached, rfl⟩
  | none =>
    rw [wrong] at first
    rw [first, Option.none_or]
    exact second

/-- What looks at no option has no lengths to check. -/
theorem IgnoresOptions.verdict_bind (ignores : decoder.IgnoresOptions)
    (run : decoder (input.checking false) state = .ok value middle)
    (rest : Verdict lengths (next value (input.checking true) middle) result) :
    Verdict lengths ((decoder >>= next) (input.checking true) state) result := by
  have same := ignores (input.checking true) (input.checking false) (sameBytes_checking true false)
  rw [bind_apply, same, run]
  exact rest

theorem verdict_map (f : α → β)
    (first : Verdict lengths (decoder input state) (.ok value middle)) :
    Verdict lengths ((f <$> decoder) input state) (.ok (f value) middle) := by
  have finish : Verdict [] ((pure (f value) : TreeDecoder β) input middle)
      (.ok (f value) middle) := rfl
  have both : Verdict (lengths ++ []) ((decoder >>= fun value => pure (f value)) input state)
      (.ok (f value) middle) := verdict_bind first finish
  rwa [List.append_nil, ← map_eq_pure_bind] at both

end Verdict

theorem Reads.standsBetween {forms : α → Language UInt8} {references : α → List ConstantId}
    (reads : decoder.Reads input forms references) (inside : state.position ≤ input.serialized.size)
    (run : decoder input state = .ok value reached) :
    StandsBetween (forms value) input.serialized state.position reached.position := by
  obtain ⟨bytes, form, stands, follows⟩ := (reads state inside value reached).1 run
  exact ⟨bytes, form, stands, TreeState.position_of_follows follows⟩

/-- Where a decoder succeeds without the check of lengths, a part of a placed tree stands from which
the value is read, and the lengths in it tell how the decoder ends with the check. -/
def Finds {γ : Type} (input : TreeInput) (decoder : TreeDecoder α) (lies : γ → Nat → Nat → Prop)
    (read : γ → α) (lengths : γ → List DeclaredLength) : Prop :=
  ∀ state value reached, state.position ≤ input.serialized.size →
    decoder (input.checking false) state = .ok value reached →
    ∃ part, lies part state.position reached.position ∧ read part = value ∧
      Verdict (lengths part) (decoder (input.checking true) state) (.ok value reached)

/-- How a child is found tells how many of them are. -/
theorem finds_readMany {readChild : TreeDecoder Node}
    (child : readChild.Finds input (PlacedNode.LiesIn input.serialized)
      (PlacedNode.read input.source) PlacedNode.declaredLengths) (count : Nat) :
    (readMany count fun _ => readChild).Finds input
      (fun parts start stop => parts.length = count ∧
        PlacedNode.LieIn input.serialized parts start stop)
      (PlacedNode.readAll input.source) PlacedNode.allDeclaredLengths := by
  have from_index : ∀ index, (readManyFrom (fun _ => readChild) index [] count).Finds input
      (fun parts start stop => parts.length = count ∧
        PlacedNode.LieIn input.serialized parts start stop)
      (PlacedNode.readAll input.source) PlacedNode.allDeclaredLengths := by
    induction count with
    | zero =>
      intro index state values reached inside run
      obtain ⟨rfl, rfl⟩ := pure_eq_ok_iff.1 run
      have here : StandsBetween 1 input.serialized reached.position reached.position :=
        ⟨[], rfl, standsAt_nil.2 inside, rfl⟩
      exact ⟨[], ⟨rfl, here⟩, rfl, rfl⟩
    | succ count ih =>
      intro index state values reached inside run
      rw [readManyFrom_succ] at run ⊢
      obtain ⟨value, middle, first, others⟩ := bind_eq_ok_iff.1 run
      obtain ⟨values, rest, rfl⟩ := map_eq_ok_iff.1 others
      obtain ⟨node, lies, rfl, verdict⟩ := child state value middle inside first
      have inside' := (node.le_of_liesIn lies).2
      obtain ⟨nodes, ⟨rfl, lie⟩, rfl, verdict'⟩ := ih (index + 1) middle values reached inside' rest
      exact ⟨node :: nodes, ⟨rfl, middle.position, lies, lie⟩, rfl,
        verdict_bind verdict (verdict_map _ verdict')⟩
  exact from_index 0

section Fields

variable {readChild : TreeDecoder Node}
  (child : readChild.Finds input (PlacedNode.LiesIn input.serialized)
    (PlacedNode.read input.source) PlacedNode.declaredLengths) (kind : Kind)

include child

theorem finds_readValue (name : String) (fieldKind : FieldKind) :
    (readValue readChild kind name fieldKind).Finds input
      (PlacedValue.LiesIn input.serialized) (PlacedValue.read input.source)
      PlacedValue.declaredLengths := by
  intro state value reached inside run
  cases fieldKind with
  | node =>
    obtain ⟨_, read, rfl⟩ := map_eq_ok_iff.1 run
    obtain ⟨node, lies, rfl, verdict⟩ := child state _ reached inside read
    exact ⟨.node node, lies, rfl, verdict_map _ verdict⟩
  | optNode =>
    have ignores := ignoresOptions_liftM Decoder.readAbsent
    obtain ⟨absent, middle, peeked, run⟩ := bind_eq_ok_iff.1 run
    obtain ⟨stop, looked, moved⟩ := liftM_eq_ok_iff.1 peeked
    have looked := readAbsent_eq_ok_iff.1 looked
    cases absent with
    | true =>
      obtain ⟨rfl, rfl⟩ := pure_eq_ok_iff.1 run
      obtain ⟨zero, rfl⟩ := looked
      have lies : StandsBetween {[0]} input.serialized state.position reached.position :=
        standsBetween_singleton.2 ⟨zero, congrArg TreeState.position moved⟩
      exact ⟨.optNode none, lies, rfl, ignores.verdict_bind peeked rfl⟩
    | false =>
      obtain ⟨_, rfl⟩ := looked
      obtain ⟨_, _, read, finish⟩ := bind_eq_ok_iff.1 run
      obtain ⟨rfl, rfl⟩ := pure_eq_ok_iff.1 finish
      have here : middle.position = state.position := congrArg TreeState.position moved
      obtain ⟨node, lies, rfl, verdict⟩ := child middle _ _ (here ▸ inside) read
      refine ⟨.optNode (some node), here ▸ lies, rfl, ignores.verdict_bind peeked ?_⟩
      exact verdict_map _ verdict
  | nodes =>
    have ignores : IgnoresOptions (liftM (liftM (Decoder.readCount Node.minSize) :
        Decoder LoadError Nat)) := ignoresOptions_liftM _
    obtain ⟨count, middle, counted, run⟩ := bind_eq_ok_iff.1 run
    obtain ⟨_, _, read, finish⟩ := bind_eq_ok_iff.1 run
    obtain ⟨rfl, rfl⟩ := pure_eq_ok_iff.1 finish
    obtain ⟨stop, announced, moved⟩ := liftM_eq_ok_iff.1 counted
    have announces := (Decoder.announces_readCount Node.minSize).lift
    obtain ⟨-, -, bytes, form, stands, here⟩ := (announces _ _ inside count stop).1 announced
    have there : middle.position = stop := congrArg TreeState.position moved
    have inside' : middle.position ≤ input.serialized.size := by
      rw [there, here]
      exact stands.add_length_le
    obtain ⟨nodes, ⟨rfl, lie⟩, rfl, verdict⟩ :=
      finds_readMany child count middle _ _ inside' read
    refine ⟨.nodes nodes, ⟨middle.position, ⟨bytes, form, stands, there.trans here⟩, lie⟩, rfl, ?_⟩
    exact ignores.verdict_bind counted (verdict_map _ verdict)
  | datum datumKind =>
    obtain ⟨content, read, rfl⟩ := map_eq_ok_iff.1 run
    have ignores := (ignoresOptions_readDatum datumKind).inField kind name
    have reads : (inField kind name (readDatum datumKind)).Reads (input.checking false)
        (Datum.forms (input.checking false).rules) Datum.references :=
      (reads_readDatum datumKind).inField
    obtain ⟨bytes, form, there⟩ := reads.standsBetween inside read
    obtain ⟨placed, spelled, rfl⟩ := PlacedDatum.exists_of_mem_forms form
    refine ⟨.datum placed, ⟨bytes, spelled, there⟩, rfl, ?_⟩
    have same := ignores _ _ (@sameBytes_checking input true false)
    apply verdict_map
    rw [same, read]
    rfl

theorem finds_readFields (layout : List Field) :
    (readFields readChild kind layout).Finds input (PlacedFields.LieIn input.serialized)
      (PlacedFields.read input.source) PlacedFields.declaredLengths := by
  induction layout with
  | nil =>
    intro state fields reached inside run
    obtain ⟨rfl, rfl⟩ := pure_eq_ok_iff.1 run
    have here : StandsBetween 1 input.serialized reached.position reached.position :=
      ⟨[], rfl, standsAt_nil.2 inside, rfl⟩
    exact ⟨.nil, here, rfl, rfl⟩
  | cons field layout ih =>
    intro state fields reached inside run
    obtain ⟨_, middle, first, run⟩ := bind_eq_ok_iff.1 run
    obtain ⟨_, _, others, finish⟩ := bind_eq_ok_iff.1 run
    obtain ⟨rfl, rfl⟩ := pure_eq_ok_iff.1 finish
    obtain ⟨value, lies, rfl, verdict⟩ :=
      finds_readValue child kind field.name field.kind state _ middle inside first
    have inside' := (value.le_of_liesIn lies).2
    obtain ⟨rest, lie, rfl, verdict'⟩ := ih middle _ _ inside' others
    refine ⟨.cons value rest, ⟨middle.position, lies, lie⟩, rfl, ?_⟩
    exact verdict_bind verdict (verdict_map _ verdict')

end Fields

/-- What is found behind the tag of a node: the rest of its head, and its fields. -/
theorem finds_readBody
    (child : (readNode depth).Finds input (PlacedNode.LiesIn input.serialized)
      (PlacedNode.read input.source) PlacedNode.declaredLengths)
    {kind : Kind} {declared? : Option UInt32} {node : Node}
    (tag : StandsBetween {[kind.tag]} input.serialized state.position middle.position)
    (run : readBody depth kind (input.checking false) middle = .ok (declared?, node) reached) :
    ∃ (head : NodeHead) (fields : PlacedFields head.kind.layout),
      head.kind = kind ∧ head.declared? = declared? ∧
      PlacedNode.LiesIn input.serialized ⟨state.position, reached.position, head, fields⟩
        state.position reached.position ∧
      node = ⟨head.kind, head.id, head.location, head.flags, false, fields.read input.source⟩ ∧
      Verdict fields.declaredLengths (readBody depth kind (input.checking true) middle)
        (.ok (declared?, node) reached) := by
  have reads_id : (inField kind "node_id" Decoder.readVarint).Reads (input.checking false)
      Varint.forms fun _ => [] := (Reads.ofDecoder Decoder.reads_readVarint.lift).inField
  have reads_location : (inField kind "location" Decoder.readLocation).Reads (input.checking false)
      (Wire.location Varint.forms) fun _ => [] :=
    (Reads.ofDecoder Decoder.reads_readLocation.lift).inField
  have reads_flags : (inField kind "flags" Decoder.readFlags).Reads (input.checking false)
      (Wire.flags Varint.forms) fun _ => [] := (Reads.ofDecoder Decoder.reads_readFlags).inField
  have ignores_id : (inField kind "node_id" Decoder.readVarint).IgnoresOptions :=
    (ignoresOptions_liftM _).inField kind _
  have ignores_location : (inField kind "location" Decoder.readLocation).IgnoresOptions :=
    (ignoresOptions_liftM _).inField kind _
  have ignores_flags : (inField kind "flags" Decoder.readFlags).IgnoresOptions :=
    (ignoresOptions_liftM _).inField kind _
  obtain ⟨id, afterId, run_id, run⟩ := bind_eq_ok_iff.1 run
  obtain ⟨location, afterLocation, run_location, run⟩ := bind_eq_ok_iff.1 run
  obtain ⟨_, afterLength, run_length, run⟩ := bind_eq_ok_iff.1 run
  obtain ⟨flags, afterFlags, run_flags, run⟩ := bind_eq_ok_iff.1 run
  obtain ⟨_, _, run_fields, finish⟩ := bind_eq_ok_iff.1 run
  obtain ⟨same, rfl⟩ := pure_eq_ok_iff.1 finish
  obtain ⟨rfl, rfl⟩ := Prod.mk.inj same
  have ids := reads_id.standsBetween tag.le.2 run_id
  have locations := reads_location.standsBetween ids.le.2 run_location
  have lengths := (reads_readDefLength kind).standsBetween locations.le.2 run_length
  have words := reads_flags.standsBetween lengths.le.2 run_flags
  obtain ⟨fields, lie, rfl, verdict⟩ :=
    finds_readFields child kind kind.layout afterFlags _ _ words.le.2 run_fields
  have headed : StandsBetween (NodeHead.forms ⟨kind, id, location, declared?, flags⟩)
      input.serialized state.position afterFlags.position := by
    unfold NodeHead.forms
    simp only [standsBetween_mul]
    exact ⟨_, tag, _, ids, _, locations, _, lengths, words⟩
  refine ⟨⟨kind, id, location, declared?, flags⟩, fields, rfl, rfl,
    ⟨⟨rfl, rfl⟩, afterFlags.position, headed, lie⟩, rfl, ?_⟩
  apply ignores_id.verdict_bind run_id
  apply ignores_location.verdict_bind run_location
  apply (ignoresOptions_readDefLength kind).verdict_bind run_length
  apply ignores_flags.verdict_bind run_flags
  exact verdict_map _ verdict

theorem finds_readNode (input : TreeInput) (depth : Nat) :
    (readNode depth).Finds input (PlacedNode.LiesIn input.serialized)
      (PlacedNode.read input.source) PlacedNode.declaredLengths := by
  induction depth with
  | zero =>
    intro state node reached inside run
    cases run
  | succ depth ih =>
    intro state node reached inside run
    rw [readNode_succ] at run ⊢
    obtain ⟨tag, middle, read, run⟩ := bind_eq_ok_iff.1 run
    have reads : (liftM Decoder.readByte : TreeDecoder UInt8).Reads (input.checking false)
        (fun byte => {[byte]}) fun _ => [] := Reads.ofDecoder Decoder.reads_readByte.lift
    have first := reads.standsBetween inside read
    cases known : Kind.ofTag? tag with
    | none =>
      simp only [known] at run
      cases run
    | some kind =>
      simp only [known] at run
      obtain ⟨afterTag, _, here, run⟩ := bind_eq_ok_iff.1 run
      cases here
      obtain ⟨⟨declared?, node⟩, _, body, run⟩ := bind_eq_ok_iff.1 run
      obtain ⟨_, _, checked, finish⟩ := bind_eq_ok_iff.1 run
      obtain ⟨rfl, rfl⟩ := pure_eq_ok_iff.1 finish
      obtain ⟨rfl, -⟩ := checkDefLength_eq_ok_iff.1 checked
      obtain rfl := Kind.tag_of_ofTag? known
      obtain ⟨head, fields, rfl, rfl, lies, rfl, verdict⟩ := finds_readBody ih first body
      refine ⟨⟨state.position, reached.position, head, fields⟩, lies, rfl, ?_⟩
      have own := @verdict_checkDefLength input reached head.declared? middle.position
      have afterTag : middle.position = state.position + 1 := (standsBetween_singleton.1 first).2
      have looks : position.IgnoresOptions := fun _ _ _ => rfl
      -- the lengths in the fields come first, then that of the node itself
      rw [PlacedNode.declaredLengths, ← afterTag]
      apply (ignoresOptions_liftM _).verdict_bind read
      simp only [known]
      apply looks.verdict_bind rfl
      exact verdict_bind verdict (verdict_map _ own)

/-- Where a node is read, whatever the options, a placed tree stands from which it is read. -/
theorem exists_placed_of_readNode {node : Node}
    (run : readNode depth input state = .ok node reached) :
    ∃ placed : PlacedNode, placed.LiesIn input.serialized state.position reached.position ∧
      placed.read input.source = node := by
  have unchecked : readNode depth (input.checking false) state = .ok node reached := by
    cases checks : input.options.verifyDefLengths with
    | false =>
      have same : input.checking false = input := by
        rw [TreeInput.checking, ← checks]
      rw [same, run]
    | true =>
      have same : input.checking true = input := by
        rw [TreeInput.checking, ← checks]
      obtain ends | ⟨error, _, failed, -⟩ := @runsAlike_checking input depth state
      · rw [← ends, same, run]
      · rw [same, run] at failed
        cases failed
  have inside : state.position ≤ input.serialized.size := inside_of_readNode run
  obtain ⟨placed, lies, read, -⟩ := finds_readNode input depth state node reached inside unchecked
  exact ⟨placed, lies, read⟩

end TreeDecoder

end PrismTree
