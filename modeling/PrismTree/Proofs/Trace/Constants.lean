import Mathlib.Data.List.Forall2
import PrismTree.Proofs.Constants.Memoisation

/-!
# The constants in a trace

Following references notes each constant at the first reference to it, with the text that the pool
keeps from then on. So what references add to the trace are the constants that were not kept before,
without repetition, in the order of the first references, and the pool counts them.
-/
namespace PrismTree

/-- The index of the constant that an event resolves. -/
def Event.resolved? : Event → Option UInt32
  | .constantResolved index _ => some index
  | _ => none

/-- The event tells that a constant was resolved, with the text that the table has for it. -/
def ConstantTable.Tells (constants : ConstantTable) (id : ConstantId) (event : Event) : Prop :=
  ∃ text, constants.get? id = some text ∧ event = .constantResolved id.index text

/-- Removing repetitions keeps the first of each. -/
theorem nodup_eraseDups {α : Type} [DecidableEq α] : (items : List α) → items.eraseDups.Nodup
  | [] => List.nodup_nil
  | first :: rest => by
    have := List.length_filter_le (fun item => !item == first) rest
    rw [List.eraseDups_cons, List.nodup_cons, List.mem_eraseDups, List.mem_filter]
    exact ⟨fun member => by simpa using member.2,
      nodup_eraseDups (rest.filter fun item => !item == first)⟩
  termination_by items => items.length

section Events

variable {constants constants' : ConstantTable} {ids : List ConstantId} {events : List Event}

theorem resolved?_of_tells (told : List.Forall₂ constants.Tells ids events) :
    events.filterMap Event.resolved? = ids.map ConstantId.index := by
  induction told with
  | nil => rfl
  | cons first _ ih =>
    obtain ⟨text, -, rfl⟩ := first
    rw [List.filterMap_cons, List.map_cons, ← ih]
    rfl

/-- Of constants without repetition no index is told twice. -/
theorem nodup_resolved? (told : List.Forall₂ constants.Tells ids.eraseDups events) :
    (events.filterMap Event.resolved?).Nodup := by
  rw [resolved?_of_tells told]
  refine (nodup_eraseDups ids).map fun id id' same => ?_
  obtain ⟨index, _⟩ := id
  obtain ⟨index', _⟩ := id'
  cases same
  rfl

/-- Each event is told of some constant. -/
theorem exists_tells (told : List.Forall₂ constants.Tells ids events) :
    ∀ event ∈ events, ∃ id, constants.Tells id event := by
  induction told with
  | nil => exact List.forall_mem_nil _
  | cons first _ ih => exact List.forall_mem_cons.2 ⟨⟨_, first⟩, ih⟩

end Events

namespace TreeState

variable {input : TreeInput} {state state' : TreeState} {ids : List ConstantId} {id : ConstantId}
  {text : String} {stop : Nat}

theorem kept?_stays_of_referAll? (run : state.referAll? input ids = some state')
    (kept : state.pool.kept? id = some text) : state'.pool.kept? id = some text :=
  referAll?_induction (fun reached => reached.pool.kept? id = some text)
    (fun _ _ _ step holds => kept?_stays_of_refer? step holds) run kept

/-- What references add to the trace, and to the count of the pool. -/
theorem exists_events_of_referAll? (run : state.referAll? input ids = some state') :
    ∃ events, state'.trace.toList = state.trace.toList ++ events ∧
      List.Forall₂ state'.pool.constants.Tells
        (ids.filter fun id => (state.pool.kept? id).isNone).eraseDups events ∧
      state'.pool.resolutions = state.pool.resolutions + events.length := by
  induction ids generalizing state with
  | nil =>
    cases run
    exact ⟨[], (List.append_nil _).symm, .nil, rfl⟩
  | cons id ids ih =>
    rw [referAll?_cons] at run
    obtain ⟨middle, first, rest⟩ := Option.bind_eq_some_iff.1 run
    obtain ⟨events, added, told, counted⟩ := ih rest
    obtain ⟨inside, ⟨kept, rfl⟩ | ⟨missing, text, -, -, rfl⟩⟩ := refer?_eq_some_iff.1 first
    · refine ⟨events, added, ?_, counted⟩
      rwa [List.filter_cons_of_neg (by simpa [Option.isSome_iff_ne_none] using kept)]
    · have here : state'.pool.kept? id = some text :=
        kept?_stays_of_referAll? rest (by rw [ConstantPool.kept?_keep inside, if_pos rfl])
      have others : (ids.filter fun other =>
          ((state.pool.keep id text).kept? other).isNone) =
            (ids.filter fun other => (state.pool.kept? other).isNone).filter
              fun other => !other == id := by
        rw [List.filter_filter]
        refine List.filter_congr fun other _ => ?_
        rw [ConstantPool.kept?_keep inside]
        by_cases same : other = id <;> simp [same]
      refine ⟨.constantResolved id.index text :: events, ?_, ?_, ?_⟩
      · rw [added, Array.toList_push, List.append_assoc]
        rfl
      · rw [List.filter_cons_of_pos (by rw [missing]; rfl), List.eraseDups_cons, ← others]
        exact .cons ⟨text, here, rfl⟩ told
      · rw [counted, List.length_cons]
        show state.pool.resolutions + 1 + events.length = _
        omega

/-- From a pool that keeps nothing, references add each constant once, in the order of the first
references, and fill as many slots. -/
theorem exists_events_of_follows {encoding : Encoding} {header : PoolHeader}
    (fresh : state.pool = .fresh encoding header) (follows : state.Follows input ids stop state') :
    ∃ events, state'.trace.toList = state.trace.toList ++ events ∧
      List.Forall₂ state'.pool.constants.Tells ids.eraseDups events ∧
      state'.pool.resolutions = events.length ∧ state'.pool.filled = events.length := by
  obtain ⟨after, run, rfl⟩ := follows
  obtain ⟨events, added, told, counted⟩ := exists_events_of_referAll? run
  have memo : after.pool.Memoises (.fresh encoding header) input.serialized input.source :=
    referAll?_induction (fun reached => reached.pool.Memoises _ _ _)
      (fun _ _ _ step holds => holds.of_refer? step) run (fresh ▸ ConstantPool.memoises_fresh)
  have nothing : (ids.filter fun id => (state.pool.kept? id).isNone) = ids := by
    refine List.filter_eq_self.2 fun id _ => ?_
    rw [fresh, ConstantPool.kept?_fresh]
    rfl
  rw [nothing] at told
  rw [fresh] at counted
  have counted := counted.trans (Nat.zero_add _)
  exact ⟨events, added, told, counted, memo.counted.symm.trans counted⟩

end TreeState

end PrismTree
