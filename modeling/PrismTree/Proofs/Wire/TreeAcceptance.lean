import PrismTree.Proofs.Constants.Reference
import PrismTree.Proofs.Wire.Scalar

/-!
# What a tree decoder accepts

A reader of parts of a tree is described by the forms of each value and by the constants that the
value refers to. It succeeds just where a form of the value stands and all of the references can be
followed, in order; then it stops right behind the form, in the state that the references leave.
-/
namespace PrismTree

namespace TreeState

variable {input : TreeInput} {state state' : TreeState} {stop : Nat}

/-- The references can be followed in order, and lead to a state at the given position. -/
def Follows (input : TreeInput) (ids : List ConstantId) (stop : Nat) (state state' : TreeState) :
    Prop :=
  ∃ after, state.referAll? input ids = some after ∧ state' = after.moveTo stop

@[simp] theorem follows_nil : state.Follows input [] stop state' ↔ state' = state.moveTo stop := by
  simp [Follows, referAll?]

theorem follows_singleton {id : ConstantId} :
    state.Follows input [id] stop state' ↔
      ∃ after, state.refer? input id = some after ∧ state' = after.moveTo stop := by
  simp [Follows, referAll?]

/-- Where one stands between two runs of references makes no difference. -/
theorem follows_append {first second : List ConstantId} (between : Nat) :
    state.Follows input (first ++ second) stop state' ↔
      ∃ middle, state.Follows input first between middle ∧
        middle.Follows input second stop state' := by
  simp only [Follows, referAll?_append, Option.bind_eq_some_iff]
  constructor
  · intro h
    obtain ⟨after, ⟨middle, hfirst, hsecond⟩, rfl⟩ := h
    refine ⟨middle.moveTo between, ⟨middle, hfirst, rfl⟩, after.moveTo between, ?_, rfl⟩
    rw [referAll?_moveTo, hsecond]
    rfl
  · intro h
    obtain ⟨_, ⟨middle, hfirst, rfl⟩, after, hsecond, rfl⟩ := h
    rw [referAll?_moveTo] at hsecond
    obtain ⟨after, hafter, rfl⟩ := Option.map_eq_some_iff.1 hsecond
    exact ⟨after, ⟨middle, hfirst, hafter⟩, rfl⟩

theorem follows_moveTo {ids : List ConstantId} {position : Nat} :
    (state.moveTo position).Follows input ids stop state' ↔
      state.Follows input ids stop state' := by
  simp only [Follows, referAll?_moveTo, Option.map_eq_some_iff]
  constructor
  · intro h
    obtain ⟨_, ⟨after, run, rfl⟩, rfl⟩ := h
    exact ⟨after, run, rfl⟩
  · intro h
    obtain ⟨after, run, rfl⟩ := h
    exact ⟨_, ⟨after, run, rfl⟩, rfl⟩

/-- References can be followed together if each of them can. -/
theorem exists_follows_iff {ids : List ConstantId} :
    (∃ state', state.Follows input ids stop state') ↔
      ∀ id ∈ ids, state.pool.Resolves input.serialized input.source id := by
  rw [← referAll?_isSome_iff, Option.isSome_iff_exists]
  constructor
  · intro h
    obtain ⟨_, after, run, -⟩ := h
    exact ⟨after, run⟩
  · rintro ⟨after, run⟩
    exact ⟨_, after, run, rfl⟩

theorem position_of_follows {ids : List ConstantId} (h : state.Follows input ids stop state') :
    state'.position = stop := by
  obtain ⟨after, -, rfl⟩ := h
  rfl

end TreeState

namespace TreeDecoder

variable {α β : Type} {decoder : TreeDecoder α} {input : TreeInput} {state state' : TreeState}
  {forms : α → Language UInt8} {references : α → List ConstantId}

theorem bind_apply (next : α → TreeDecoder β) (input : TreeInput) (state : TreeState) :
    (decoder >>= next) input state =
      match decoder input state with
      | .ok value reached => next value input reached
      | .error error reached => .error error reached :=
  rfl

protected theorem id_map (decoder : TreeDecoder α) : id <$> decoder = decoder := by
  funext input state
  show (decoder >>= pure) input state = decoder input state
  rw [bind_apply]
  cases decoder input state <;> rfl

protected theorem bind_assoc {γ : Type} (decoder : TreeDecoder α) (f : α → TreeDecoder β)
    (g : β → TreeDecoder γ) : decoder >>= f >>= g = decoder >>= fun value => f value >>= g := by
  funext input state
  simp only [bind, TreeDecoder.bind]
  cases decoder input state <;> rfl

/-- Tree decoders in sequence obey the laws of sequences. -/
instance : LawfulMonad TreeDecoder :=
  .mk' _ TreeDecoder.id_map (fun _ _ => rfl) TreeDecoder.bind_assoc

theorem pure_eq_ok_iff {value result : α} :
    (pure value : TreeDecoder α) input state = .ok result state' ↔
      result = value ∧ state' = state := by
  show (.ok value state : EStateM.Result LoadError TreeState α) = .ok result state' ↔ _
  rw [EStateM.Result.ok.injEq]
  exact and_congr eq_comm eq_comm

theorem bind_eq_ok_iff {next : α → TreeDecoder β} {result : β} :
    (decoder >>= next) input state = .ok result state' ↔
      ∃ value middle, decoder input state = .ok value middle ∧
        next value input middle = .ok result state' := by
  rw [bind_apply]
  cases decoder input state <;> simp

theorem map_eq_ok_iff {f : α → β} {result : β} :
    (f <$> decoder) input state = .ok result state' ↔
      ∃ value, decoder input state = .ok value state' ∧ result = f value := by
  rw [map_eq_pure_bind, bind_eq_ok_iff]
  constructor
  · intro h
    obtain ⟨value, middle, run, finish⟩ := h
    obtain ⟨rfl, rfl⟩ := pure_eq_ok_iff.1 finish
    exact ⟨value, run, rfl⟩
  · intro h
    obtain ⟨value, run, rfl⟩ := h
    exact ⟨value, state', run, pure_eq_ok_iff.2 ⟨rfl, rfl⟩⟩

theorem liftM_apply (decoder : Decoder LoadError α) (input : TreeInput) (state : TreeState) :
    (liftM decoder : TreeDecoder α) input state =
      match decoder.runFrom input.serialized state.position with
      | .ok value stop => .ok value (state.moveTo stop)
      | .error error stop => .error error (state.moveTo stop) :=
  rfl

theorem liftM_eq_ok_iff {decoder : Decoder LoadError α} {value : α} :
    (liftM decoder : TreeDecoder α) input state = .ok value state' ↔
      ∃ stop, decoder.runFrom input.serialized state.position = .ok value stop ∧
        state' = state.moveTo stop := by
  rw [liftM_apply]
  cases decoder.runFrom input.serialized state.position with
  | error error stop => simp
  | ok found stop =>
    simp only [EStateM.Result.ok.injEq]
    constructor
    · rintro ⟨rfl, rfl⟩
      exact ⟨stop, ⟨rfl, rfl⟩, rfl⟩
    · intro h
      obtain ⟨stop, ⟨rfl, rfl⟩, rfl⟩ := h
      exact ⟨rfl, rfl⟩

theorem inField_apply (kind : Kind) (field : String) (input : TreeInput) (state : TreeState) :
    inField kind field decoder input state =
      match decoder input state with
      | .ok value reached => .ok value reached
      | .error error reached =>
        .error (error.within (.inField kind field state.position)) reached :=
  rfl

theorem inField_eq_ok_iff {kind : Kind} {field : String} {value : α} :
    inField kind field decoder input state = .ok value state' ↔
      decoder input state = .ok value state' := by
  rw [inField_apply]
  cases decoder input state <;> simp

/-- Resolving an index follows the reference with that index. -/
theorem resolveConstant_eq_ok_iff {index : UInt32} {id : ConstantId} :
    resolveConstant index input state = .ok id state' ↔
      id.index = index ∧ state.refer? input id = some state' := by
  rw [TreeState.refer?_eq_some_iff]
  constructor
  · intro run
    obtain ⟨_, _, fetched, run⟩ := bind_eq_ok_iff.1 run
    cases fetched
    cases found : state.pool.id? index with
    | none =>
      simp only [found] at run
      cases run
    | some id' =>
      simp only [found] at run
      obtain ⟨same, inside⟩ := ConstantPool.id?_eq_some_iff.1 found
      split at run
      · next kept =>
        obtain ⟨rfl, rfl⟩ := pure_eq_ok_iff.1 run
        exact ⟨same, inside, Or.inl ⟨kept, rfl⟩⟩
      · next missing =>
        obtain ⟨_, _, fetched, run⟩ := bind_eq_ok_iff.1 run
        cases fetched
        obtain ⟨text, _, read, run⟩ := bind_eq_ok_iff.1 run
        obtain ⟨stop, spelled, rfl⟩ := liftM_eq_ok_iff.1 read
        obtain ⟨rfl, known, spells⟩ := ConstantPool.readText_eq_ok_iff.1 spelled
        obtain ⟨_, _, kept, run⟩ := bind_eq_ok_iff.1 run
        cases kept
        obtain ⟨rfl, rfl⟩ := pure_eq_ok_iff.1 run
        refine ⟨same, inside, Or.inr ⟨?_, text, known, spells, rfl⟩⟩
        simpa [ConstantPool.isResolved_eq] using missing
  · intro h
    obtain ⟨same, inside, outcome⟩ := h
    refine bind_eq_ok_iff.2 ⟨state.pool, state, rfl, ?_⟩
    simp only [ConstantPool.id?_eq_some_iff.2 ⟨same, inside⟩]
    obtain ⟨kept, rfl⟩ | ⟨missing, text, known, spells, rfl⟩ := outcome
    · rw [if_pos (by simpa only [ConstantPool.isResolved_eq] using kept)]
      rfl
    · rw [if_neg (by simp [ConstantPool.isResolved_eq, missing])]
      refine bind_eq_ok_iff.2 ⟨input, state, rfl, ?_⟩
      refine bind_eq_ok_iff.2 ⟨text, state, liftM_eq_ok_iff.2 ⟨state.position, ?_, rfl⟩, rfl⟩
      exact ConstantPool.readText_eq_ok_iff.2 ⟨rfl, known, spells⟩

/-- A tree decoder reads exactly these forms of values with these references: it succeeds just where
a form stands and the references can be followed, and then stops right behind the form. -/
def Reads (input : TreeInput) (decoder : TreeDecoder α) (forms : α → Language UInt8)
    (references : α → List ConstantId) : Prop :=
  ∀ state, state.position ≤ input.serialized.size → ∀ value state',
    decoder input state = .ok value state' ↔
      ∃ bytes ∈ forms value, StandsAt bytes input.serialized state.position ∧
        state.Follows input (references value) (state.position + bytes.length) state'

theorem Reads.congr {forms' : α → Language UInt8} (reads : decoder.Reads input forms references)
    (same : ∀ value, forms value = forms' value) : decoder.Reads input forms' references := by
  obtain rfl : forms = forms' := funext same
  exact reads

theorem Reads.congr_references {references' : α → List ConstantId}
    (reads : decoder.Reads input forms references)
    (same : ∀ value, references value = references' value) :
    decoder.Reads input forms references' := by
  obtain rfl : references = references' := funext same
  exact reads

theorem reads_pure (value : α) :
    (pure value : TreeDecoder α).Reads input (fun result => provided (result = value))
      fun _ => [] := by
  intro state inside result state'
  rw [pure_eq_ok_iff]
  constructor
  · rintro ⟨rfl, rfl⟩
    exact ⟨[], ⟨rfl, rfl⟩, standsAt_nil.2 inside, TreeState.follows_nil.2 rfl⟩
  · intro h
    obtain ⟨_, ⟨rfl, rfl⟩, _, follows⟩ := h
    exact ⟨rfl, TreeState.follows_nil.1 follows⟩

/-- What only reads bytes refers to nothing. -/
theorem Reads.ofDecoder {decoder : Decoder LoadError α} (reads : decoder.Reads forms) :
    (liftM decoder : TreeDecoder α).Reads input forms fun _ => [] := by
  intro state inside value state'
  rw [liftM_eq_ok_iff]
  simp only [reads input.serialized state.position inside, TreeState.follows_nil]
  constructor
  · intro h
    obtain ⟨stop, ⟨bytes, form, stands, rfl⟩, rfl⟩ := h
    exact ⟨bytes, form, stands, rfl⟩
  · intro h
    obtain ⟨bytes, form, stands, rfl⟩ := h
    exact ⟨_, ⟨bytes, form, stands, rfl⟩, rfl⟩

theorem Reads.inField {kind : Kind} {field : String}
    (reads : decoder.Reads input forms references) :
    (inField kind field decoder).Reads input forms references := by
  intro state inside value state'
  rw [inField_eq_ok_iff]
  exact reads state inside value state'

theorem reads_fail {cause : LoadError.Cause} :
    (fail cause : TreeDecoder α).Reads input (fun _ => 0) references := by
  intro state _ value state'
  constructor
  · intro run
    cases run
  · intro h
    obtain ⟨bytes, never, -⟩ := h
    exact absurd never (Language.notMem_zero bytes)

/-- In sequence, forms and references are put one after the other. -/
theorem Reads.bind {next : α → TreeDecoder β} {forms' : α → β → Language UInt8}
    {references' : α → β → List ConstantId} {all : β → List ConstantId}
    (first : decoder.Reads input forms references)
    (second : ∀ value, (next value).Reads input (forms' value) (references' value))
    (together : ∀ value result bytes, bytes ∈ forms' value result →
      all result = references value ++ references' value result) :
    (decoder >>= next).Reads input (fun result => ⨆ value, forms value * forms' value result)
      all := by
  intro state inside result state'
  rw [bind_eq_ok_iff]
  constructor
  · intro h
    obtain ⟨value, middle, start, run⟩ := h
    obtain ⟨xs, hx, stands, follows⟩ := (first state inside value middle).1 start
    have here := TreeState.position_of_follows follows
    obtain ⟨ys, hy, stands', follows'⟩ :=
      (second value middle (here ▸ stands.add_length_le) result state').1 run
    rw [here] at stands' follows'
    refine ⟨xs ++ ys, Language.mem_iSup.2 ⟨value, Language.append_mem_mul hx hy⟩, ?_, ?_⟩
    · exact standsAt_append.2 ⟨stands, stands'⟩
    · rw [together value result ys hy, List.length_append, ← Nat.add_assoc]
      exact (TreeState.follows_append _).2 ⟨middle, follows, follows'⟩
  · intro h
    obtain ⟨bytes, sequence, stands, follows⟩ := h
    obtain ⟨value, parts⟩ := Language.mem_iSup.1 sequence
    obtain ⟨xs, hx, ys, hy, rfl⟩ := Language.mem_mul.1 parts
    obtain ⟨stands, stands'⟩ := standsAt_append.1 stands
    rw [together value result ys hy, List.length_append, ← Nat.add_assoc] at follows
    obtain ⟨middle, follows, follows'⟩ :=
      (TreeState.follows_append (state.position + xs.length)).1 follows
    have here := TreeState.position_of_follows follows
    refine ⟨value, middle, (first state inside value middle).2 ⟨xs, hx, stands, follows⟩, ?_⟩
    refine (second value middle (here ▸ stands.add_length_le) result state').2 ⟨ys, hy, ?_⟩
    rw [here]
    exact ⟨stands', follows'⟩

/-- What refers to nothing may go first. -/
theorem Reads.bindAfter {next : α → TreeDecoder β} {forms' : α → β → Language UInt8}
    {references' : β → List ConstantId} (first : decoder.Reads input forms fun _ => [])
    (second : ∀ value, (next value).Reads input (forms' value) references') :
    (decoder >>= next).Reads input (fun result => ⨆ value, forms value * forms' value result)
      references' :=
  first.bind second fun _ _ _ _ => rfl

theorem Reads.map (f : α → β) (references' : β → List ConstantId)
    (reads : decoder.Reads input forms references)
    (same : ∀ value, references' (f value) = references value) :
    (f <$> decoder).Reads input
      (fun result => ⨆ value, provided (result = f value) * forms value) references' := by
  rw [map_eq_pure_bind]
  refine (reads.bind (fun value => reads_pure (f value)) ?_).congr fun result => ?_
  · rintro value result bytes ⟨rfl, -⟩
    rw [same, List.append_nil]
  · ext bytes
    simp only [Language.mem_iSup, mem_mul_provided, mem_provided_mul]

/-- A constructor around a value changes neither its forms nor its references. -/
theorem Reads.wrap {make : α → β} {forms' : β → Language UInt8} {references' : β → List ConstantId}
    (reads : decoder.Reads input forms references) (injective : make.Injective)
    (onto : make.Surjective) (sameForms : ∀ value, forms' (make value) = forms value)
    (sameReferences : ∀ value, references' (make value) = references value) :
    (make <$> decoder).Reads input forms' references' := by
  refine (reads.map make references' sameReferences).congr fun result => ?_
  obtain ⟨value, rfl⟩ := onto result
  simp only [injective.eq_iff, iSup_provided_eq_mul]
  exact (sameForms value).symm

/-- Items in sequence. -/
theorem reads_readMany {item : Nat → TreeDecoder α}
    (reads : ∀ index, (item index).Reads input forms references) (count : Nat) :
    (readMany count item).Reads input
      (fun values => provided (values.length = count) * (values.map forms).prod)
      fun values => values.flatMap references := by
  have from_index : ∀ index, (readManyFrom item index [] count).Reads input
      (fun values => provided (values.length = count) * (values.map forms).prod)
      fun values => values.flatMap references := by
    induction count with
    | zero =>
      intro index state inside values state'
      refine (reads_pure [] state inside values state').trans ?_
      cases values <;> simp
    | succ count ih =>
      intro index
      rw [readManyFrom_succ]
      have rest := fun value : α => (ih (index + 1)).map (value :: ·)
        (fun values => values.tail.flatMap references) fun _ => rfl
      refine ((reads index).bind rest fun value values bytes form => ?_).congr fun values =>
        iSup_mul_items forms count values
      obtain ⟨values, rfl, -⟩ := mem_iSup_provided_mul.1 form
      rfl
  exact from_index 0

/-- Counted items: where all of them stand, there was room for them. -/
theorem reads_counted {counter : Decoder LoadError Nat} {item : Nat → TreeDecoder α}
    {least minSize : Nat} (announces : counter.Announces least minSize)
    (items : ∀ index, (item index).Reads input forms references)
    (smallest : ∀ value, ∀ bytes ∈ forms value, minSize ≤ bytes.length) :
    ((liftM counter : TreeDecoder Nat) >>= fun count => readMany count item).Reads input
      (fun values => provided (least ≤ values.length) * Wire.list Varint.forms forms values)
      fun values => values.flatMap references := by
  intro state inside values state'
  rw [bind_eq_ok_iff]
  constructor
  · intro h
    obtain ⟨count, middle, counted, run⟩ := h
    obtain ⟨stop, announced, rfl⟩ := liftM_eq_ok_iff.1 counted
    obtain ⟨enough, -, xs, hx, stands, rfl⟩ := (announces _ _ inside count stop).1 announced
    obtain ⟨ys, all, stands', follows⟩ :=
      (reads_readMany items count _ stands.add_length_le values state').1 run
    obtain ⟨rfl, hy⟩ := mem_provided_mul.1 all
    refine ⟨xs ++ ys, ?_, standsAt_append.2 ⟨stands, stands'⟩, ?_⟩
    · exact mem_provided_mul.2 ⟨enough, Language.append_mem_mul hx hy⟩
    · rw [List.length_append, ← Nat.add_assoc]
      exact TreeState.follows_moveTo.1 follows
  · intro h
    obtain ⟨bytes, form, stands, follows⟩ := h
    obtain ⟨enough, form⟩ := mem_provided_mul.1 form
    obtain ⟨xs, hx, ys, hy, rfl⟩ := Language.mem_mul.1 form
    obtain ⟨stands, stands'⟩ := standsAt_append.1 stands
    have room := Decoder.length_mul_le_of_mem_prod smallest values hy
    have inside' := stands'.add_length_le
    refine ⟨values.length, state.moveTo (state.position + xs.length), liftM_eq_ok_iff.2
      ⟨_, (announces _ _ inside values.length _).2 ⟨enough, ?_, xs, hx, stands, rfl⟩, rfl⟩, ?_⟩
    · omega
    · rw [List.length_append, ← Nat.add_assoc] at follows
      exact (reads_readMany items _ _ stands.add_length_le values state').2
        ⟨ys, mem_provided_mul.2 ⟨rfl, hy⟩, stands', TreeState.follows_moveTo.2 follows⟩

theorem runFrom_readAbsent (buffer : ByteArray) (position : Nat) :
    Decoder.readAbsent.runFrom buffer position =
      if buffer[position]? = some 0 then
        .ok true (min (position + 1 : Int).toNat buffer.size)
      else .ok false position := by
  simp only [Decoder.readAbsent, Decoder.runFrom, bind, Decoder.bind, Decoder.peek]
  split <;> rfl

theorem readAbsent_eq_ok_iff {buffer : ByteArray} {position stop : Nat} {absent : Bool} :
    Decoder.readAbsent.runFrom buffer position = .ok absent stop ↔
      if absent then StandsAt [0] buffer position ∧ stop = position + 1
      else ¬StandsAt [0] buffer position ∧ stop = position := by
  rw [runFrom_readAbsent, standsAt_singleton]
  by_cases zero : buffer[position]? = some 0
  · have advance : min (position + 1 : Int).toNat buffer.size = position + 1 := by
      have := (standsAt_singleton.2 zero).add_length_le
      simp only [List.length_singleton] at this
      omega
    rw [if_pos zero, advance]
    cases absent <;> simp [zero, eq_comm]
  · rw [if_neg zero]
    cases absent <;> simp [zero, eq_comm]

/-- A zero byte stands for something absent, so what is present must not begin with one. -/
theorem Reads.optional (reads : decoder.Reads input forms references)
    (nonempty : ∀ value, ∀ bytes ∈ forms value, bytes ≠ []) :
    ((liftM Decoder.readAbsent : TreeDecoder Bool) >>= fun absent =>
      if absent then pure none else some <$> decoder).Reads input (Wire.optional forms)
      fun value? => value?.elim [] references := by
  intro state inside value? state'
  rw [bind_eq_ok_iff]
  constructor
  · intro h
    obtain ⟨absent, middle, peeked, run⟩ := h
    obtain ⟨stop, looked, rfl⟩ := liftM_eq_ok_iff.1 peeked
    have looked := readAbsent_eq_ok_iff.1 looked
    cases absent with
    | true =>
      obtain ⟨stands, rfl⟩ := looked
      obtain ⟨rfl, rfl⟩ := pure_eq_ok_iff.1 run
      exact ⟨[0], rfl, stands, TreeState.follows_nil.2 rfl⟩
    | false =>
      obtain ⟨other, rfl⟩ := looked
      obtain ⟨value, read, rfl⟩ := map_eq_ok_iff.1 run
      obtain ⟨bytes, form, stands, follows⟩ := (reads state inside value state').1 read
      refine ⟨bytes, ⟨form, fun zero => other ?_⟩, stands, follows⟩
      obtain ⟨rest, rfl⟩ := List.head?_eq_some_iff.1 zero
      exact (standsAt_cons.1 stands).1
  · intro h
    obtain ⟨bytes, form, stands, follows⟩ := h
    cases value? with
    | none =>
      obtain rfl : bytes = [0] := form
      refine ⟨true, _, liftM_eq_ok_iff.2 ⟨_, readAbsent_eq_ok_iff.2 ⟨stands, rfl⟩, rfl⟩, ?_⟩
      exact pure_eq_ok_iff.2 ⟨rfl, TreeState.follows_nil.1 follows⟩
    | some value =>
      obtain ⟨form, head⟩ := form
      obtain ⟨byte, rest, rfl⟩ := List.exists_cons_of_ne_nil (nonempty value bytes form)
      have other : ¬StandsAt [0] input.serialized state.position := by
        intro zero
        have same := (standsAt_cons.1 stands).1.eq_of_length_eq zero rfl
        exact head (by rw [List.cons.inj same |>.1]; rfl)
      refine ⟨false, _, liftM_eq_ok_iff.2 ⟨_, readAbsent_eq_ok_iff.2 ⟨other, rfl⟩, rfl⟩, ?_⟩
      refine map_eq_ok_iff.2 ⟨value, (reads state inside value state').2 ?_, rfl⟩
      exact ⟨_, form, stands, follows⟩

end TreeDecoder

end PrismTree
