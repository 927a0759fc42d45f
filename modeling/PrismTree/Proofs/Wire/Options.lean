import PrismTree.Proofs.Wire.Tree

/-!
# Reading a tree under other options

Two runs of the reader of nodes on the same bytes and the same source take the same steps until the
options tell them apart. A datum and the head of a node look at no option, so only the depth that is
left and the check of a length can do so, and a run that is told apart fails there. Nothing depends
on the choice about newlines: with either choice the reader gives the same node or the same error,
and reaches the same state.
-/
namespace PrismTree

/-- The same input with another choice about newlines. -/
def TreeInput.marking (marks : Bool) (input : TreeInput) : TreeInput :=
  { input with options := { input.options with markNewlines := marks } }

/-- Two inputs have the same bytes and the same source; their options may differ. -/
structure TreeInput.SameBytes (input input' : TreeInput) : Prop where
  serialized : input.serialized = input'.serialized
  source : input.source = input'.source

namespace TreeInput

variable (marks : Bool) (input : TreeInput)

@[simp] theorem source_marking : (input.marking marks).source = input.source :=
  rfl

@[simp] theorem maxDepth_marking :
    (input.marking marks).options.maxDepth = input.options.maxDepth :=
  rfl

@[simp] theorem markNewlines_marking : (input.marking marks).options.markNewlines = marks :=
  rfl

theorem sameBytes_marking : (input.marking marks).SameBytes input :=
  ⟨rfl, rfl⟩

end TreeInput

namespace TreeDecoder

variable {α β : Type} {decoder decoder' : TreeDecoder α} {next next' : α → TreeDecoder β}

/-- A tree decoder does not look at the options. -/
def IgnoresOptions (decoder : TreeDecoder α) : Prop :=
  ∀ input input' : TreeInput, input.SameBytes input' → decoder input = decoder input'

theorem ignoresOptions_pure (value : α) : (pure value : TreeDecoder α).IgnoresOptions :=
  fun _ _ _ => rfl

theorem ignoresOptions_fail (cause : LoadError.Cause) :
    (fail cause : TreeDecoder α).IgnoresOptions :=
  fun _ _ _ => rfl

theorem ignoresOptions_liftM (decoder : Decoder LoadError α) :
    (liftM decoder : TreeDecoder α).IgnoresOptions := by
  intro input input' same
  funext state
  rw [liftM_apply, liftM_apply, same.serialized]

/-- The input may be fetched for its source. -/
theorem ignoresOptions_source {next : ByteArray → TreeDecoder β}
    (rest : ∀ source, (next source).IgnoresOptions) :
    (input >>= fun input => next input.source).IgnoresOptions := by
  intro input input' same
  show next input.source input = next input'.source input'
  rw [same.source, rest input'.source input input' same]

theorem IgnoresOptions.bind (first : decoder.IgnoresOptions)
    (second : ∀ value, (next value).IgnoresOptions) : (decoder >>= next).IgnoresOptions := by
  intro input input' same
  funext state
  rw [bind_apply, bind_apply, first input input' same]
  cases decoder input' state with
  | ok value reached => exact congrFun (second value input input' same) reached
  | error error reached => rfl

theorem IgnoresOptions.map (reads : decoder.IgnoresOptions) (f : α → β) :
    (f <$> decoder).IgnoresOptions := by
  rw [map_eq_pure_bind]
  exact reads.bind fun value => ignoresOptions_pure (f value)

theorem IgnoresOptions.inField (reads : decoder.IgnoresOptions) (kind : Kind) (field : String) :
    (decoder.inField kind field).IgnoresOptions := by
  intro input input' same
  funext state
  rw [inField_apply, inField_apply, reads input input' same]

theorem IgnoresOptions.readMany {item : Nat → TreeDecoder α}
    (reads : ∀ index, (item index).IgnoresOptions) (count : Nat) :
    (readMany count item).IgnoresOptions :=
  @readMany_related _ _ _ item item (fun many _ => many.IgnoresOptions) ignoresOptions_pure
    (fun index _ _ rest => (reads index).bind rest) count

theorem ignoresOptions_resolveConstant (index : UInt32) :
    (resolveConstant index).IgnoresOptions := by
  refine IgnoresOptions.bind (fun _ _ _ => rfl) fun pool => ?_
  split
  · exact ignoresOptions_fail _
  · next id _ =>
    split
    · exact ignoresOptions_pure id
    · have resolved : ∀ source, (liftM (pool.readText source id) >>= fun text =>
          keepConstant id text >>= fun _ => pure id : TreeDecoder ConstantId).IgnoresOptions :=
        fun source => (ignoresOptions_liftM _).bind fun text =>
          IgnoresOptions.bind (fun _ _ _ => rfl) fun _ => ignoresOptions_pure id
      exact ignoresOptions_source resolved

theorem ignoresOptions_readConstant : readConstant.IgnoresOptions :=
  (ignoresOptions_liftM _).bind ignoresOptions_resolveConstant

theorem ignoresOptions_readOptConstant : readOptConstant.IgnoresOptions := by
  refine (ignoresOptions_liftM Decoder.readAbsent).bind fun absent => ?_
  split
  · exact ignoresOptions_pure none
  · exact ignoresOptions_readConstant.map some

theorem ignoresOptions_readConstants : readConstants.IgnoresOptions :=
  (ignoresOptions_liftM _).bind (IgnoresOptions.readMany fun _ => ignoresOptions_readConstant)

theorem ignoresOptions_readDatum (kind : DatumKind) : (readDatum kind).IgnoresOptions := by
  cases kind with
  | constant => exact ignoresOptions_readConstant.map Datum.constant
  | optConstant => exact ignoresOptions_readOptConstant.map Datum.optConstant
  | constants => exact ignoresOptions_readConstants.map Datum.constants
  | string =>
    exact ignoresOptions_source fun source =>
      (ignoresOptions_liftM _).bind fun bytes => ignoresOptions_pure (Datum.string bytes)
  | integer =>
    exact (ignoresOptions_liftM _).bind fun value => ignoresOptions_pure (Datum.integer value)
  | double =>
    exact (ignoresOptions_liftM _).bind fun value => ignoresOptions_pure (Datum.double value)
  | uint32 =>
    exact (ignoresOptions_liftM _).bind fun value => ignoresOptions_pure (Datum.uint32 value)
  | uint8 =>
    exact (ignoresOptions_liftM _).bind fun value => ignoresOptions_pure (Datum.uint8 value)

theorem ignoresOptions_readDefLength (kind : Kind) : (readDefLength kind).IgnoresOptions := by
  unfold readDefLength
  split
  · exact ((ignoresOptions_liftM _).inField kind _).map some
  · exact ignoresOptions_pure none

section TwoRuns

variable {excused : LoadError → Prop} {input input' : TreeInput}

/-- From every state, a run with the first input ends as a run with the second, or it fails with an
error that is excused. -/
def RunsAlike (excused : LoadError → Prop) (input input' : TreeInput)
    (decoder decoder' : TreeDecoder α) : Prop :=
  ∀ state, decoder input state = decoder' input' state ∨
    ∃ error reached, decoder input state = .error error reached ∧ excused error

theorem RunsAlike.of_eq (same : decoder input = decoder' input') :
    RunsAlike excused input input' decoder decoder' :=
  fun state => Or.inl (congrFun same state)

/-- Without excuses, the runs are the same. -/
theorem RunsAlike.eq (alike : RunsAlike (fun _ => False) input input' decoder decoder') :
    decoder input = decoder' input' := by
  funext state
  obtain same | ⟨_, _, _, never⟩ := alike state
  · exact same
  · exact never.elim

theorem RunsAlike.bind (first : RunsAlike excused input input' decoder decoder')
    (second : ∀ value, RunsAlike excused input input' (next value) (next' value)) :
    RunsAlike excused input input' (decoder >>= next) (decoder' >>= next') := by
  intro state
  rw [bind_apply, bind_apply]
  obtain same | ⟨error, reached, failed, excuse⟩ := first state
  · rw [same]
    cases decoder' input' state with
    | ok value reached => exact second value reached
    | error error reached => exact Or.inl rfl
  · rw [failed]
    exact Or.inr ⟨error, reached, rfl, excuse⟩

theorem RunsAlike.map (alike : RunsAlike excused input input' decoder decoder') (f : α → β) :
    RunsAlike excused input input' (f <$> decoder) (f <$> decoder') := by
  rw [map_eq_pure_bind, map_eq_pure_bind]
  exact alike.bind fun value => .of_eq rfl

theorem RunsAlike.readMany {item item' : Nat → TreeDecoder α}
    (alike : ∀ index, RunsAlike excused input input' (item index) (item' index)) (count : Nat) :
    RunsAlike excused input input' (readMany count item) (readMany count item') :=
  readMany_related (fun _ => .of_eq rfl) (fun index _ _ rest => (alike index).bind rest) count

variable (same : input.SameBytes input')

include same

theorem IgnoresOptions.runsAlike (ignores : decoder.IgnoresOptions) :
    RunsAlike excused input input' decoder decoder :=
  .of_eq (ignores input input' same)

section Fields

variable {readChild readChild' : TreeDecoder Node}
  (child : RunsAlike excused input input' readChild readChild') (kind : Kind)

include child

theorem runsAlike_readValue (name : String) (fieldKind : FieldKind) :
    RunsAlike excused input input' (readValue readChild kind name fieldKind)
      (readValue readChild' kind name fieldKind) := by
  cases fieldKind with
  | node => exact child.map Value.node
  | optNode =>
    refine ((ignoresOptions_liftM Decoder.readAbsent).runsAlike same).bind fun absent => ?_
    cases absent with
    | true => exact .of_eq rfl
    | false => exact child.bind fun node => .of_eq rfl
  | nodes =>
    exact ((ignoresOptions_liftM _).runsAlike same).bind fun count =>
      (RunsAlike.readMany (fun _ => child) count).bind fun nodes => .of_eq rfl
  | datum datumKind =>
    exact (((ignoresOptions_readDatum datumKind).inField kind name).map Value.datum).runsAlike same

theorem runsAlike_readFields (layout : List Field) :
    RunsAlike excused input input' (readFields readChild kind layout)
      (readFields readChild' kind layout) := by
  induction layout with
  | nil => exact .of_eq rfl
  | cons field layout ih =>
    exact (runsAlike_readValue same child kind field.name field.kind).bind fun value =>
      ih.bind fun rest => .of_eq rfl

end Fields

theorem runsAlike_readBody {depth depth' : Nat}
    (child : RunsAlike excused input input' (readNode depth) (readNode depth')) (kind : Kind) :
    RunsAlike excused input input' (readBody depth kind) (readBody depth' kind) :=
  (((ignoresOptions_liftM _).inField kind _).runsAlike same).bind fun _ =>
    (((ignoresOptions_liftM _).inField kind _).runsAlike same).bind fun _ =>
    ((ignoresOptions_readDefLength kind).runsAlike same).bind fun _ =>
    (((ignoresOptions_liftM _).inField kind _).runsAlike same).bind fun _ =>
    (runsAlike_readFields same child kind kind.layout).bind fun _ => .of_eq rfl

/-- Two runs on a node can be told apart by its children and by the check of its length only. -/
theorem runsAlike_readNode_succ {depth depth' : Nat}
    (child : RunsAlike excused input input' (readNode depth) (readNode depth'))
    (check : ∀ declared? afterTag, RunsAlike excused input input'
      (checkDefLength declared? afterTag) (checkDefLength declared? afterTag)) :
    RunsAlike excused input input' (readNode (depth + 1)) (readNode (depth' + 1)) := by
  rw [readNode_succ, readNode_succ]
  refine ((ignoresOptions_liftM Decoder.readByte).runsAlike same).bind fun tag => ?_
  cases Kind.ofTag? tag with
  | none => exact .of_eq rfl
  | some kind =>
    refine RunsAlike.bind (.of_eq rfl) fun afterTag => ?_
    exact (runsAlike_readBody same child kind).bind fun body =>
      (check body.1 afterTag).bind fun _ => .of_eq rfl

omit same

/-- The check of a length looks at nothing but whether it is asked for. -/
theorem checkDefLength_congr
    (asked : input.options.verifyDefLengths = input'.options.verifyDefLengths)
    (declared? : Option UInt32) (afterTag : Nat) :
    checkDefLength declared? afterTag input = checkDefLength declared? afterTag input' := by
  cases declared? with
  | none => rfl
  | some declared =>
    funext state
    simp only [checkDefLength, bind_apply, position, TreeDecoder.input, asked]
    split <;> rfl

end TwoRuns

/-- A tree decoder does not look at the choice about newlines. -/
def IgnoresMarking (decoder : TreeDecoder α) : Prop :=
  ∀ marks input, decoder (input.marking marks) = decoder input

/-- The reader of nodes does not look at the choice about newlines. -/
theorem ignoresMarking_readNode (depth : Nat) : (readNode depth).IgnoresMarking := by
  intro marks input
  induction depth with
  | zero => rfl
  | succ depth ih =>
    have asked : (input.marking marks).options.verifyDefLengths = input.options.verifyDefLengths :=
      rfl
    have check : ∀ declared? afterTag, RunsAlike (fun _ => False) (input.marking marks) input
        (checkDefLength declared? afterTag) (checkDefLength declared? afterTag) :=
      fun declared? afterTag => .of_eq (checkDefLength_congr asked declared? afterTag)
    exact (runsAlike_readNode_succ (input.sameBytes_marking marks) (.of_eq ih) check).eq

end TreeDecoder

end PrismTree
