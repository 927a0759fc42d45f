import PrismTree.Proofs.Count.Agreement

/-!
# Loads without the check of counts

A tree that is read with every count believed is the tree that is read with the counts checked, by
induction on the depth that is left: a list of children is read alike if a child is, and a child
takes no less room than its count supposes. So a load that believes every count returns just what a
load returns.
-/
namespace PrismTree

variable {ε α β : Type}

theorem toOption_map (f : α → β) (found : Except ε α) :
    (found.map f).toOption = found.toOption.map f := by
  cases found <;> rfl

theorem toOption_eq_some_iff {found : Except ε α} {value : α} :
    found.toOption = some value ↔ found = .ok value := by
  cases found <;> simp [Except.toOption]

namespace TreeDecoder

variable {decoder decoder' : TreeDecoder α} {next next' : α → TreeDecoder β}

/-- Two tree decoders accept the same input with the same value and reach the same state. -/
def SucceedsLike (decoder decoder' : TreeDecoder α) : Prop :=
  ∀ input state value reached,
    decoder input state = .ok value reached ↔ decoder' input state = .ok value reached

namespace SucceedsLike

theorem refl (decoder : TreeDecoder α) : decoder.SucceedsLike decoder :=
  fun _ _ _ _ => Iff.rfl

theorem trans {decoder'' : TreeDecoder α} (same : decoder.SucceedsLike decoder')
    (same' : decoder'.SucceedsLike decoder'') : decoder.SucceedsLike decoder'' :=
  fun input state value reached =>
    (same input state value reached).trans (same' input state value reached)

theorem bind (first : decoder.SucceedsLike decoder')
    (second : ∀ value, (next value).SucceedsLike (next' value)) :
    (decoder >>= next).SucceedsLike (decoder' >>= next') := by
  intro input state result reached
  rw [bind_eq_ok_iff, bind_eq_ok_iff]
  exact exists_congr fun value => exists_congr fun middle =>
    and_congr (first input state value middle) (second value input middle result reached)

/-- What precedes may be left as it is. -/
theorem after (decoder : TreeDecoder α)
    (second : ∀ value, (next value).SucceedsLike (next' value)) :
    (decoder >>= next).SucceedsLike (decoder >>= next') :=
  (refl decoder).bind second

/-- What follows may be left as it is. -/
theorem before (first : decoder.SucceedsLike decoder') (next : α → TreeDecoder β) :
    (decoder >>= next).SucceedsLike (decoder' >>= next) :=
  first.bind fun value => refl (next value)

theorem map (f : α → β) (same : decoder.SucceedsLike decoder') :
    (f <$> decoder).SucceedsLike (f <$> decoder') := by
  rw [map_eq_pure_bind, map_eq_pure_bind]
  exact same.before _

theorem ofDecoder {decoder decoder' : Decoder LoadError α} (same : decoder.SucceedsLike decoder') :
    (liftM decoder : TreeDecoder α).SucceedsLike (liftM decoder') := by
  intro input state value reached
  rw [liftM_eq_ok_iff, liftM_eq_ok_iff]
  exact exists_congr fun stop => and_congr_left fun _ => same _ _ value stop

theorem inField (kind : Kind) (field : String) (same : decoder.SucceedsLike decoder') :
    (decoder.inField kind field).SucceedsLike (decoder'.inField kind field) := by
  intro input state value reached
  rw [inField_eq_ok_iff, inField_eq_ok_iff]
  exact same input state value reached

theorem readMany {item item' : Nat → TreeDecoder α}
    (same : ∀ index, (item index).SucceedsLike (item' index)) (count : Nat) :
    (readMany count item).SucceedsLike (readMany count item') :=
  readMany_related (fun values => refl (pure values)) (fun index _ _ rest => (same index).bind rest)
    count

/-- A counted list is read alike with the check and without it, if its items are. -/
theorem counted {counter counter' : Decoder LoadError Nat} {least minSize : Nat}
    {item item' : Nat → TreeDecoder α} {forms : TreeInput → α → Language UInt8}
    {references : α → List ConstantId} (checks : counter.Checks counter' least minSize)
    (items : ∀ input index, (item index).Reads input (forms input) references)
    (smallest : ∀ input value, ∀ bytes ∈ forms input value, minSize ≤ bytes.length)
    (same : ∀ index, (item index).SucceedsLike (item' index)) :
    ((liftM counter : TreeDecoder Nat) >>= fun count => PrismTree.readMany count item).SucceedsLike
      ((liftM counter' : TreeDecoder Nat) >>= fun count => PrismTree.readMany count item') := by
  refine SucceedsLike.trans ?_ (.after _ fun count => readMany same count)
  intro input state values reached
  by_cases inside : state.position ≤ input.serialized.size
  · have checked := reads_counted checks.checked (items input) (smallest input) state inside values
      reached
    have believed := reads_counted checks.believed (items input) (fun _ _ _ => Nat.zero_le _) state
      inside values reached
    exact checked.trans believed.symm
  · have outside : ∀ counter : Decoder LoadError Nat, counter.StaysInside →
        ¬((liftM counter : TreeDecoder Nat) >>= fun count => PrismTree.readMany count item) input
          state = .ok values reached := by
      intro counter stays run
      obtain ⟨count, middle, counts, -⟩ := bind_eq_ok_iff.1 run
      obtain ⟨stop, counts, -⟩ := liftM_eq_ok_iff.1 counts
      exact inside (stays _ _ count stop counts)
    exact iff_of_false (outside counter checks.inside) (outside counter' checks.inside')

end SucceedsLike

end TreeDecoder

namespace CountCheck

open TreeDecoder

theorem succeedsLike_readInteger : Decoder.readInteger.SucceedsLike trust.readInteger := by
  have words := checks_readWordCount.succeedsLike (fun _ => Decoder.reads_readVarint.lift)
    fun _ _ => Varint.length_pos_of_mem_forms
  have same : Decoder.readInteger = room.readInteger := rfl
  rw [same, readInteger_eq, readInteger_eq]
  exact .after _ fun sign => words.before _

theorem succeedsLike_readConstants :
    TreeDecoder.readConstants.SucceedsLike trust.readConstants :=
  .counted (checks_readCount 1).lift (fun _ _ => reads_readConstant)
    (fun _ _ _ => Varint.length_pos_of_mem_forms) fun _ => .refl _

theorem succeedsLike_readDatum (kind : DatumKind) :
    (TreeDecoder.readDatum kind).SucceedsLike (trust.readDatum kind) := by
  cases kind with
  | constants => exact succeedsLike_readConstants.map Datum.constants
  | integer => exact (SucceedsLike.ofDecoder succeedsLike_readInteger).before _
  | constant => exact .refl _
  | optConstant => exact .refl _
  | string => exact .refl _
  | double => exact .refl _
  | uint32 => exact .refl _
  | uint8 => exact .refl _

section Fields

variable {readChild readChild' : TreeDecoder Node} {depth : Nat}
  (child : ∀ input, readChild.Reads input (childForms input.rules depth) Node.references)
  (same : readChild.SucceedsLike readChild') (kind : Kind)

include child same

theorem succeedsLike_readValue (name : String) (fieldKind : FieldKind) :
    (TreeDecoder.readValue readChild kind name fieldKind).SucceedsLike
      (trust.readValue readChild' kind name fieldKind) := by
  cases fieldKind with
  | node => exact same.map Value.node
  | optNode =>
    refine .after _ fun absent => ?_
    split
    · exact .refl _
    · exact same.before _
  | nodes =>
    have numbers : ∀ n, ∀ bytes ∈ Varint.forms n, 1 ≤ bytes.length :=
      fun _ _ => Varint.length_pos_of_mem_forms
    have children := SucceedsLike.counted (checks_readCount Node.minSize).lift
      (fun input (_ : Nat) => child input) (fun input value bytes form =>
        Node.minSize_le_of_mem_forms numbers (mem_provided_mul.1 form).2) fun _ => same
    have whole := children.before fun nodes => pure (Value.nodes nodes)
    rw [bind_assoc, bind_assoc] at whole
    exact whole
  | datum datumKind => exact ((succeedsLike_readDatum datumKind).inField kind name).map Value.datum

theorem succeedsLike_readFields (layout : List Field) :
    (TreeDecoder.readFields readChild kind layout).SucceedsLike
      (trust.readFields readChild' kind layout) := by
  induction layout with
  | nil => exact .refl _
  | cons field layout ih =>
    exact (succeedsLike_readValue child same kind field.name field.kind).bind fun value =>
      ih.before _

end Fields

/-- A node is read alike with the counts checked and with every count believed. -/
theorem succeedsLike_readNode (depth : Nat) :
    (TreeDecoder.readNode depth).SucceedsLike (trust.readNode depth) := by
  induction depth with
  | zero => exact .refl _
  | succ depth ih =>
    rw [TreeDecoder.readNode, readNode]
    refine .after _ fun tag => ?_
    cases Kind.ofTag? tag with
    | none => exact .refl _
    | some kind =>
      have fields := succeedsLike_readFields (fun input => reads_readNode input depth) ih kind
        kind.layout
      -- nothing is counted in the head of a node, so the two readers differ in its fields only
      refine .after _ fun afterTag => .after _ fun id => .after _ fun location => ?_
      exact .after _ fun declared? => .after _ fun flags => fields.before _

theorem toOption_treeOutcome (input : TreeInput) (source : Source) (pool : ConstantPool)
    (position : Nat) (trace : Trace) :
    (PrismTree.treeOutcome input source pool position trace).toOption =
      (trust.treeOutcome input source pool position trace).toOption := by
  rw [PrismTree.treeOutcome, treeOutcome]
  obtain ⟨root, reached, read, read'⟩ | ⟨⟨_, _, failed⟩, _, _, failed'⟩ :=
    alike (succeedsLike_readNode input.options.maxDepth input ⟨position, pool, trace⟩)
  · rw [read, read']
  · rw [failed, failed']
    rfl

theorem toOption_outcome (preamble : Preamble) (input : TreeInput) (position : Nat)
    (pool : ConstantPool) :
    (preamble.outcome input position pool).toOption =
      (trust.outcome preamble input position pool).toOption := by
  have trees := toOption_treeOutcome input (preamble.source input.source) pool position
    (preamble.trace input)
  rw [Preamble.outcome, outcome]
  by_cases none : preamble.remarks.errors.isEmpty = true
  · rw [if_pos none, if_pos none, toOption_map, toOption_map, trees]
  · rw [if_neg none, if_neg none]

theorem toOption_load (serialized source : ByteArray) (options : LoadOptions) :
    (PrismTree.load serialized source options).toOption =
      (trust.load serialized source options).toOption := by
  rw [load_eq, load]
  obtain ⟨preamble, position, read, read'⟩ | ⟨⟨_, _, failed⟩, _, _, failed'⟩ :=
    alike (succeedsLike_readPreamble serialized 0)
  · rw [read, read']
    dsimp only
    cases ConstantPool.ofHeader preamble.heading.encoding serialized.size preamble.pool with
    | error error => rfl
    | ok pool => exact toOption_outcome preamble ⟨serialized, source, options⟩ position pool
  · rw [failed, failed']
    rfl

end CountCheck

/-- The check of counts refuses nothing valid. A load is the loader with the check, and it returns a
result exactly if the loader that believes every count returns the same result; so the check has an
influence on nothing but errors. -/
theorem load_eq_ok_iff_trust (serialized source : ByteArray) (options : LoadOptions) :
    CountCheck.room.load serialized source options = load serialized source options ∧
    ∀ result, load serialized source options = .ok result ↔
      CountCheck.trust.load serialized source options = .ok result := by
  refine ⟨CountCheck.load_room serialized source options, fun result => ?_⟩
  have same := CountCheck.toOption_load serialized source options
  rw [← toOption_eq_some_iff, ← toOption_eq_some_iff, same]

/-- A buffer that announces nine comments and ends. -/
def missingComments : ByteArray :=
  ⟨#[0x50, 0x52, 0x49, 0x53, 0x4D, 1, 3, 0, 0, 5, 85, 84, 70, 45, 56, 2, 1, 0, 9]⟩

example :
    load missingComments ⟨#[]⟩ = .error (.within (.ofSection .comments)
      (.ofCause (.read (.countTooLarge 19 9 0)))) ∧
    CountCheck.trust.load missingComments ⟨#[]⟩ {} = .error (.within (.ofSection .comments)
      (.within (.ofRecord .comment 0) (.ofCause (.read (.truncated 19 1 0))))) :=
  ⟨rfl, rfl⟩

end PrismTree
