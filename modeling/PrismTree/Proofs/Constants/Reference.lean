import PrismTree.Proofs.Constants.Designation
import PrismTree.TreeDecoder

/-!
# References to constants

A reference to a constant either finds its text already kept or resolves it now. What a list of
references leaves behind does not depend on where the references stand: the pool keeps exactly the
constants that were referred to, each with the text that it spells.
-/
namespace PrismTree

namespace ConstantPool

variable {pool : ConstantPool} {serialized source : ByteArray} {id other : ConstantId}
  {text : String}

/-- The text of a constant, resolved or not, if it has one. -/
def text? (pool : ConstantPool) (serialized source : ByteArray) (id : ConstantId) :
    Option String :=
  match (pool.readText source id).runFrom serialized 0 with
  | .ok text _ => some text
  | .error _ _ => none

theorem text?_eq_some_iff :
    pool.text? serialized source id = some text ↔
      pool.encoding = .utf8 ∧ pool.Spells serialized source id text := by
  unfold text?
  constructor
  · intro found
    cases run : (pool.readText source id).runFrom serialized 0 with
    | error error stop =>
      rw [run] at found
      cases found
    | ok result stop =>
      rw [run] at found
      cases found
      exact (readText_eq_ok_iff.1 run).2
  · intro spelled
    have run : (pool.readText source id).runFrom serialized 0 = .ok text 0 :=
      readText_eq_ok_iff.2 ⟨rfl, spelled⟩
    rw [run]

/-- The text that the pool keeps for a constant. -/
def kept? (pool : ConstantPool) (id : ConstantId) : Option String :=
  pool.constants.get? id

theorem isResolved_eq : pool.isResolved id = (pool.kept? id).isSome :=
  rfl

@[simp] theorem size_keep : (pool.keep id text).size = pool.size := by
  simp [size, keep]

theorem kept?_keep (inside : id.slot < pool.size) :
    (pool.keep id text).kept? other = if other = id then some text else pool.kept? other := by
  simp only [kept?, constants, ConstantTable.get?, keep, Array.getElem?_setIfInBounds]
  by_cases same : other = id
  · subst same
    rw [if_pos rfl, if_pos rfl, if_pos (show other.slot < pool.slots.size from inside)]
    rfl
  · rw [if_neg same, if_neg fun slot => same (ConstantId.slot_injective slot.symm)]

/-- A reference can be followed if the pool has the constant and keeps or finds its text. -/
def Resolves (pool : ConstantPool) (serialized source : ByteArray) (id : ConstantId) : Prop :=
  id.slot < pool.size ∧ ((pool.kept? id).isSome ∨
    pool.encoding = .utf8 ∧ ∃ text, pool.Spells serialized source id text)

/-- Everything that a pool keeps is what the constant spells. -/
def IsFaithful (pool : ConstantPool) (serialized source : ByteArray) : Prop :=
  ∀ id text, pool.kept? id = some text →
    pool.encoding = .utf8 ∧ pool.Spells serialized source id text

end ConstantPool

namespace TreeState

variable {input : TreeInput} {state state' : TreeState} {id other : ConstantId}

/-- The state after a reference to a constant, if the reference can be followed. -/
def refer? (input : TreeInput) (state : TreeState) (id : ConstantId) : Option TreeState :=
  if state.pool.size ≤ id.slot then none
  else if state.pool.isResolved id then some state
  else
    (state.pool.text? input.serialized input.source id).map fun text =>
      { state with
        pool := state.pool.keep id text
        trace := state.trace.push (.constantResolved id.index text) }

/-- The state after references to constants, in order. -/
def referAll? (input : TreeInput) (state : TreeState) (ids : List ConstantId) : Option TreeState :=
  ids.foldlM (refer? input) state

/-- The state with another position. -/
def moveTo (state : TreeState) (position : Nat) : TreeState :=
  { state with position := position }

@[simp] theorem position_moveTo (position : Nat) : (state.moveTo position).position = position :=
  rfl

@[simp] theorem pool_moveTo (position : Nat) : (state.moveTo position).pool = state.pool :=
  rfl

/-- What a reference can do: nothing if the text is kept, else keep the text that is spelled. -/
theorem refer?_eq_some_iff :
    state.refer? input id = some state' ↔ id.slot < state.pool.size ∧
      ((state.pool.kept? id).isSome ∧ state' = state ∨
        state.pool.kept? id = none ∧ ∃ text, state.pool.encoding = .utf8 ∧
          state.pool.Spells input.serialized input.source id text ∧
          state' = ⟨state.position, state.pool.keep id text,
            state.trace.push (.constantResolved id.index text)⟩) := by
  unfold refer?
  by_cases inside : id.slot < state.pool.size
  · rw [if_neg (Nat.not_le.2 inside), ConstantPool.isResolved_eq]
    cases kept : state.pool.kept? id with
    | some text =>
      simp only [Option.isSome_some, if_true, Option.some_inj, inside, true_and, reduceCtorEq,
        false_and, or_false]
      exact eq_comm
    | none =>
      simp only [Option.isSome_none, Bool.false_eq_true, if_false, inside, true_and, false_and,
        false_or, Option.map_eq_some_iff, ConstantPool.text?_eq_some_iff, and_assoc]
      simp only [@eq_comm _ state']
  · rw [if_pos (Nat.not_lt.1 inside)]
    simp [inside]

/-- A reference leaves everything about the pool but the texts that it keeps. -/
structure SamePool (pool pool' : ConstantPool) : Prop where
  encoding : pool'.encoding = pool.encoding
  tableOffset : pool'.tableOffset = pool.tableOffset
  size : pool'.size = pool.size

theorem SamePool.refl (pool : ConstantPool) : SamePool pool pool :=
  ⟨rfl, rfl, rfl⟩

theorem SamePool.trans {first second third : ConstantPool} (h : SamePool first second)
    (h' : SamePool second third) : SamePool first third :=
  ⟨h'.encoding.trans h.encoding, h'.tableOffset.trans h.tableOffset, h'.size.trans h.size⟩

theorem SamePool.spells_iff {pool pool' : ConstantPool} (same : SamePool pool pool')
    {serialized source : ByteArray} {text : String} :
    pool'.Spells serialized source id text ↔ pool.Spells serialized source id text := by
  simp only [ConstantPool.Spells, ConstantPool.HasDescriptor, same.tableOffset]

theorem samePool_of_refer? (run : state.refer? input id = some state') :
    SamePool state.pool state'.pool := by
  obtain ⟨-, ⟨-, rfl⟩ | ⟨-, text, -, -, rfl⟩⟩ := refer?_eq_some_iff.1 run
  · exact .refl _
  · exact ⟨rfl, rfl, ConstantPool.size_keep⟩

theorem position_of_refer? (run : state.refer? input id = some state') :
    state'.position = state.position := by
  obtain ⟨-, ⟨-, rfl⟩ | ⟨-, text, -, -, rfl⟩⟩ := refer?_eq_some_iff.1 run
  · rfl
  · rfl

theorem refer?_moveTo (position : Nat) :
    (state.moveTo position).refer? input id = (state.refer? input id).map (moveTo · position) := by
  by_cases outside : state.pool.size ≤ id.slot
  · rw [refer?, refer?, if_pos outside,
      if_pos (show (state.moveTo position).pool.size ≤ _ from outside)]
    rfl
  · rw [refer?, refer?, if_neg outside,
      if_neg (show ¬(state.moveTo position).pool.size ≤ _ from outside)]
    by_cases resolved : state.pool.isResolved id
    · rw [if_pos resolved, if_pos (show (state.moveTo position).pool.isResolved id from resolved)]
      rfl
    · rw [if_neg resolved, if_neg (show ¬(state.moveTo position).pool.isResolved id from resolved),
        Option.map_map]
      rfl

/-- A reference keeps the constant that it refers to, and no other. -/
theorem kept?_of_refer? (run : state.refer? input id = some state') :
    (state'.pool.kept? id).isSome ∧
      ∀ other, other ≠ id → state'.pool.kept? other = state.pool.kept? other := by
  obtain ⟨inside, ⟨kept, rfl⟩ | ⟨-, text, -, -, rfl⟩⟩ := refer?_eq_some_iff.1 run
  · exact ⟨kept, fun _ _ => rfl⟩
  · constructor
    · rw [ConstantPool.kept?_keep inside, if_pos rfl]
      rfl
    · intro other different
      rw [ConstantPool.kept?_keep inside, if_neg different]

/-- A text that is kept stays. -/
theorem kept?_stays_of_refer? (run : state.refer? input id = some state') {text : String}
    (kept : state.pool.kept? other = some text) : state'.pool.kept? other = some text := by
  obtain ⟨-, ⟨-, rfl⟩ | ⟨missing, new, -, -, rfl⟩⟩ := refer?_eq_some_iff.1 run
  · exact kept
  · have different : other ≠ id := by
      rintro rfl
      rw [missing] at kept
      cases kept
    rwa [(kept?_of_refer? run).2 other different]

theorem isFaithful_of_refer? (run : state.refer? input id = some state')
    (faithful : state.pool.IsFaithful input.serialized input.source) :
    state'.pool.IsFaithful input.serialized input.source := by
  have same := samePool_of_refer? run
  intro other text kept
  rw [same.spells_iff, same.encoding]
  obtain ⟨inside, ⟨-, rfl⟩ | ⟨-, new, known, spells, rfl⟩⟩ := refer?_eq_some_iff.1 run
  · exact faithful other text kept
  · rw [ConstantPool.kept?_keep inside] at kept
    split at kept
    · next here =>
      cases kept
      exact ⟨known, here ▸ spells⟩
    · exact faithful other text kept

/-- Following a reference changes nothing about which references can be followed. -/
theorem resolves_iff_of_refer? (run : state.refer? input id = some state') :
    state'.pool.Resolves input.serialized input.source other ↔
      state.pool.Resolves input.serialized input.source other := by
  have same := samePool_of_refer? run
  rw [ConstantPool.Resolves, ConstantPool.Resolves, same.size, same.encoding]
  simp only [same.spells_iff]
  refine and_congr_right fun _ => ?_
  by_cases here : other = id
  · subst here
    obtain ⟨-, ⟨kept, -⟩ | ⟨-, text, known, spells, -⟩⟩ := refer?_eq_some_iff.1 run
    · simp only [(kept?_of_refer? run).1, kept]
    · simp only [(kept?_of_refer? run).1, true_or, true_iff]
      exact Or.inr ⟨known, text, spells⟩
  · rw [(kept?_of_refer? run).2 other here]

theorem refer?_isSome_iff :
    (state.refer? input id).isSome ↔
      state.pool.Resolves input.serialized input.source id := by
  rw [Option.isSome_iff_exists, ConstantPool.Resolves]
  constructor
  · rintro ⟨state', run⟩
    obtain ⟨inside, ⟨kept, -⟩ | ⟨-, text, known, spells, -⟩⟩ := refer?_eq_some_iff.1 run
    · exact ⟨inside, Or.inl kept⟩
    · exact ⟨inside, Or.inr ⟨known, text, spells⟩⟩
  · rintro ⟨inside, found⟩
    cases kept : state.pool.kept? id with
    | some text => exact ⟨state, refer?_eq_some_iff.2 ⟨inside, Or.inl ⟨by rw [kept]; rfl, rfl⟩⟩⟩
    | none =>
      obtain found | ⟨known, text, spells⟩ := found
      · rw [kept] at found
        cases found
      · exact ⟨_, refer?_eq_some_iff.2 ⟨inside, Or.inr ⟨kept, text, known, spells, rfl⟩⟩⟩

variable {ids : List ConstantId}

theorem referAll?_cons :
    state.referAll? input (id :: ids) = (state.refer? input id).bind (referAll? input · ids) :=
  rfl

theorem referAll?_append {first second : List ConstantId} :
    state.referAll? input (first ++ second) =
      (state.referAll? input first).bind (referAll? input · second) :=
  List.foldlM_append

theorem referAll?_moveTo (position : Nat) :
    (state.moveTo position).referAll? input ids =
      (state.referAll? input ids).map (moveTo · position) := by
  induction ids generalizing state with
  | nil => rfl
  | cons id ids ih =>
    rw [referAll?_cons, referAll?_cons, refer?_moveTo]
    cases state.refer? input id with
    | none => rfl
    | some middle => exact ih

/-- What every step of a run of references preserves, the run preserves. -/
theorem referAll?_induction (invariant : TreeState → Prop)
    (step : ∀ id state state', state.refer? input id = some state' → invariant state →
      invariant state')
    (run : state.referAll? input ids = some state') (holds : invariant state) :
    invariant state' := by
  induction ids generalizing state with
  | nil =>
    cases run
    exact holds
  | cons id ids ih =>
    rw [referAll?_cons] at run
    obtain ⟨middle, first, rest⟩ := Option.bind_eq_some_iff.1 run
    exact ih rest (step id state middle first holds)

theorem samePool_of_referAll? (run : state.referAll? input ids = some state') :
    SamePool state.pool state'.pool :=
  referAll?_induction (fun reached => SamePool state.pool reached.pool)
    (fun _ _ _ step holds => holds.trans (samePool_of_refer? step)) run (.refl _)

theorem isFaithful_of_referAll? (run : state.referAll? input ids = some state')
    (faithful : state.pool.IsFaithful input.serialized input.source) :
    state'.pool.IsFaithful input.serialized input.source :=
  referAll?_induction (fun reached => reached.pool.IsFaithful _ _)
    (fun _ _ _ step holds => isFaithful_of_refer? step holds) run faithful

/-- After a run of references the pool keeps what it kept before and what was referred to. -/
theorem kept?_isSome_of_referAll? (run : state.referAll? input ids = some state') :
    (state'.pool.kept? other).isSome ↔ (state.pool.kept? other).isSome ∨ other ∈ ids := by
  induction ids generalizing state with
  | nil =>
    cases run
    simp
  | cons id ids ih =>
    rw [referAll?_cons] at run
    obtain ⟨middle, first, rest⟩ := Option.bind_eq_some_iff.1 run
    obtain ⟨here, elsewhere⟩ := kept?_of_refer? first
    rw [ih rest, List.mem_cons]
    by_cases same : other = id
    · subst same
      simp [here]
    · rw [elsewhere other same]
      simp [same]

/-- A run of references can be followed if each reference alone can. -/
theorem referAll?_isSome_iff :
    (state.referAll? input ids).isSome ↔
      ∀ id ∈ ids, state.pool.Resolves input.serialized input.source id := by
  induction ids generalizing state with
  | nil => simp [referAll?]
  | cons id ids ih =>
    rw [referAll?_cons, List.forall_mem_cons, ← refer?_isSome_iff]
    cases run : state.refer? input id with
    | none => simp
    | some middle =>
      simp only [Option.bind_some, Option.isSome_some, true_and, ih]
      exact forall₂_congr fun other _ => resolves_iff_of_refer? run

end TreeState

namespace ConstantPool

theorem id?_eq_some_iff {pool : ConstantPool} {index : UInt32} {id : ConstantId} :
    pool.id? index = some id ↔ id.index = index ∧ id.slot < pool.size := by
  rw [id?, Option.filter_eq_some_iff, ConstantId.ofIndex?_eq_some_iff, decide_eq_true_iff]

end ConstantPool

end PrismTree
