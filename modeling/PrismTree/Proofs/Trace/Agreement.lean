import PrismTree.Proofs.Failure.Load
import PrismTree.Proofs.Load.Constants
import PrismTree.Proofs.Trace.Constants
import PrismTree.Proofs.Trace.References
import PrismTree.Proofs.Trace.Scopes

/-!
# Traces that agree with a load

The trace of a load falls into four parts: what stands in front of the tree, the constants that are
resolved while the tree is read, the scopes of the marking, and the end. Each part agrees with how
the load ends. A load that fails leaves out what would have come later, but not the end of a scope.
-/
namespace PrismTree

/-- Is an event about what stands in front of the tree? -/
def Event.IsFront : Event → Prop
  | .loadStarted .. | .headingRead .. | .remarksRead .. => True
  | _ => False

/-- How a trace ends after a number of constants was resolved: the tree is there or was skipped. A
load that fails adds nothing. -/
def LoadOutcome.ending (outcome : LoadOutcome) (resolved : Nat) : List Event :=
  match outcome.result with
  | .error _ => []
  | .ok result =>
    match result.root with
    | none => [.treeSkipped]
    | some root => [.treeDecoded root.count result.constants.size resolved]

section Ending

variable {outcome : LoadOutcome} {resolved : Nat}

theorem decoded_mem_ending {result : ParseResult} {root : Node}
    (ok : outcome.result = .ok result) (tree : result.root = some root) :
    .treeDecoded root.count result.constants.size resolved ∈ outcome.ending resolved := by
  unfold LoadOutcome.ending
  simp only [ok, tree, List.mem_singleton]

theorem decoded_mem_ending_iff :
    (∃ nodes size count, .treeDecoded nodes size count ∈ outcome.ending resolved) ↔
      ∃ result root, outcome.result = .ok result ∧ result.root = some root := by
  constructor
  · intro h
    obtain ⟨nodes, size, number, member⟩ := h
    unfold LoadOutcome.ending at member
    split at member
    · cases member
    · next result ok =>
      split at member
      · cases List.mem_singleton.1 member
      · next root tree => exact ⟨result, root, ok, tree⟩
  · intro h
    obtain ⟨result, root, ok, tree⟩ := h
    exact ⟨_, _, _, decoded_mem_ending ok tree⟩

theorem skipped_mem_ending_iff :
    .treeSkipped ∈ outcome.ending resolved ↔
      ∃ result, outcome.result = .ok result ∧ result.root = none := by
  constructor
  · intro member
    unfold LoadOutcome.ending at member
    split at member
    · cases member
    · next result ok =>
      split at member
      · next none => exact ⟨result, ok, none⟩
      · cases List.mem_singleton.1 member
  · intro h
    obtain ⟨result, ok, none⟩ := h
    unfold LoadOutcome.ending
    simp only [ok, none, List.mem_singleton]

end Ending

/-- A load comes to the marking of the newlines of a tree. -/
structure ComesToMarking (input : TreeInput) (preamble : Preamble) (root : Node) : Prop where
  asked : input.options.markNewlines
  read : ∃ start reached, ComesToTree input preamble start ∧
    TreeDecoder.readNode input.options.maxDepth input (preamble.treeState input start) =
      .ok root reached ∧ reached.position = preamble.pool.offset.toNat

/-- The constants in a trace agree with the load: references in the tree were followed, as far as
the tree was read, and a table of constants was filled. -/
structure ConstantsAgree (input : TreeInput) (outcome : LoadOutcome) (front constants : List Event)
    (ids : List ConstantId) (table : ConstantTable) : Prop where
  /-- The references are those of a beginning of the tree, and all that stands in front of the tree
  is noted before. -/
  inTree : ∀ preamble start, ComesToTree input preamble start →
    front = (preamble.trace input).toList ∧ NodeRefers input start ids
  outside : (∀ preamble start, ¬ComesToTree input preamble start) → ids = []
  /-- Each constant is noted at the first reference to it, and not again. -/
  told : List.Forall₂ table.Tells ids.eraseDups constants
  /-- What the table has for a constant is what the descriptor of the constant designates. -/
  spelled : ∀ id text, table.get? id = some text → ∃ preamble start,
    Decoder.readFront.runFrom input.serialized 0 = .ok preamble start ∧
    (ConstantPool.fresh preamble.heading.encoding preamble.pool).Spells input.serialized
      input.source id text
  /-- As many slots are filled as constants are noted. -/
  filled : table.slots.countP Option.isSome = constants.length
  /-- The result of a load has this table, and a tree with these references. -/
  kept : ∀ result, outcome.result = .ok result →
    result.references = ids ∧ result.constants = table

/-- The scopes in a trace agree with the load. -/
structure ScopesAgree (input : TreeInput) (outcome : LoadOutcome) (scopes : List Event) :
    Prop where
  /-- Each scope is left, the innermost first, whether a lookup fails or not. -/
  balanced : IsBalanced scopes
  /-- The blocks and lambdas are entered that the marking comes to. -/
  entered : ∀ preamble root, ComesToMarking input preamble root →
    scopes.filterMap Event.entered? =
      Occurrence.opened (preamble.source input.source) root.allOccurrences
  unmarked : (∀ preamble root, ¬ComesToMarking input preamble root) → scopes = []
  /-- In a result these are all of its blocks and lambdas, if newlines are marked. -/
  closures : ∀ result root, outcome.result = .ok result → result.root = some root →
    scopes.filterMap Event.entered? =
      if input.options.markNewlines then Node.closures root.preorder else []

/-- A load leaves a trace that agrees with how it ended. -/
def LoadOutcome.Agrees (outcome : LoadOutcome) (input : TreeInput) : Prop :=
  ∃ front constants scopes ids table,
    outcome.trace.toList = front ++ constants ++ scopes ++ outcome.ending constants.length ∧
    (∀ event ∈ front, event.IsFront) ∧
    ConstantsAgree input outcome front constants ids table ∧ ScopesAgree input outcome scopes

section Parts

variable {input : TreeInput} {preamble preamble' : Preamble} {start start' : Nat}

theorem Preamble.isFront_of_mem_trace :
    ∀ event ∈ (preamble.trace input).toList, event.IsFront := by
  simp [Preamble.trace, Event.IsFront]

/-- A load comes to one tree only. -/
theorem ComesToTree.unique (comes : ComesToTree input preamble start)
    (comes' : ComesToTree input preamble' start') : preamble = preamble' ∧ start = start' := by
  have same := comes.front.symm.trans comes'.front
  rw [EStateM.Result.ok.injEq] at same
  exact same

theorem ComesToMarking.unique {root root' : Node} (comes : ComesToMarking input preamble root)
    (comes' : ComesToMarking input preamble' root') : preamble = preamble' ∧ root = root' := by
  obtain ⟨-, start, reached, tree, read, -⟩ := comes
  obtain ⟨-, start', reached', tree', read', -⟩ := comes'
  obtain ⟨rfl, rfl⟩ := tree.unique tree'
  rw [read, EStateM.Result.ok.injEq] at read'
  exact ⟨rfl, read'.1⟩

/-- Without a tree there is nothing to mark. -/
theorem not_comesToMarking (never : ∀ preamble start, ¬ComesToTree input preamble start)
    (preamble : Preamble) (root : Node) : ¬ComesToMarking input preamble root := by
  rintro ⟨-, start, reached, comes, -⟩
  exact never preamble start comes

/-- Where newlines are not marked there are no scopes. -/
theorem scopesAgree_nil {outcome : LoadOutcome}
    (never : ∀ preamble root, ¬ComesToMarking input preamble root)
    (unasked : ∀ result root, outcome.result = .ok result → result.root = some root →
      input.options.markNewlines = false) : ScopesAgree input outcome [] := by
  refine ⟨.nil, fun preamble root comes => absurd comes (never preamble root), fun _ => rfl,
    fun result root ok tree => ?_⟩
  rw [unasked result root ok tree]
  rfl

/-- A marking that succeeds enters all blocks and lambdas of the tree. -/
theorem opened_of_marked {source : Source} {root root' : Node}
    (marked : root.marked source = .ok root') :
    Occurrence.opened source root.allOccurrences = Node.closures root'.preorder := by
  have fine : Occurrence.firstFailure? source root.allOccurrences = none := by
    cases failure : Occurrence.firstFailure? source root.allOccurrences with
    | none => rfl
    | some error =>
      rw [Node.marked_eq_error failure] at marked
      cases marked
  have nodes : root.allOccurrences.map (·.node) = root.preorder :=
    root.map_node_occurrences none false 0
  rw [opened_of_fine fine, nodes, ← root.closures_unmark, ← Node.unmark_of_marked marked,
    root'.closures_unmark]

/-- How the scopes of a tree that was read agree with the load. -/
theorem ComesToTree.scopesAgree {outcome : LoadOutcome} {root : Node} {reached : TreeState}
    {scopes : List Event} (comes : ComesToTree input preamble start)
    (read : TreeDecoder.readNode input.options.maxDepth input (preamble.treeState input start) =
      .ok root reached) (ends : reached.position = preamble.pool.offset.toNat)
    (balanced : IsBalanced scopes)
    (entered : scopes.filterMap Event.entered? = if input.options.markNewlines then
      Occurrence.opened (preamble.source input.source) root.allOccurrences else [])
    (kept : ∀ result root', outcome.result = .ok result → result.root = some root' →
      root.finished input.options (preamble.source input.source) = .ok root') :
    ScopesAgree input outcome scopes := by
  refine ⟨balanced, fun preamble' root' comes' => ?_, fun never => ?_,
    fun result root' ok tree => ?_⟩
  · have here : input.options.markNewlines → ComesToMarking input preamble root :=
      fun asked => ⟨asked, start, reached, comes, read, ends⟩
    obtain ⟨rfl, rfl⟩ := (here comes'.asked).unique comes'
    rw [entered, if_pos comes'.asked]
  · refine balanced.eq_nil (entered.trans (if_neg fun asked => ?_))
    exact never preamble root ⟨asked, start, reached, comes, read, ends⟩
  · have finished := kept result root' ok tree
    rw [entered]
    by_cases asked : input.options.markNewlines = true
    · rw [if_pos asked, if_pos asked]
      rw [Node.finished, if_pos asked] at finished
      cases marked : root.marked (preamble.source input.source) with
      | error error =>
        rw [marked] at finished
        cases finished
      | ok marks =>
        rw [marked] at finished
        cases finished
        exact opened_of_marked marked
    · rw [if_neg asked, if_neg asked]

/-- How the references that a tree is read with, and the constants that are noted on the way, agree
with a load that stops there. -/
theorem ComesToTree.exists_constants {ids : List ConstantId} {stop : Nat} {reached : TreeState}
    (comes : ComesToTree input preamble start) (refers : NodeRefers input start ids)
    (follows : (preamble.treeState input start).Follows input ids stop reached) :
    ∃ constants, reached.trace.toList = (preamble.trace input).toList ++ constants ∧
      reached.pool.resolutions = constants.length ∧
      ∀ outcome : LoadOutcome, (∀ result, outcome.result = .ok result →
        result.references = ids ∧ result.constants = reached.pool.constants) →
      ConstantsAgree input outcome (preamble.trace input).toList constants ids
        reached.pool.constants := by
  obtain ⟨constants, added, told, counted, filled⟩ :=
    TreeState.exists_events_of_follows rfl follows
  obtain ⟨-, -, spelled⟩ := TreeState.kept?_of_follows rfl follows
  refine ⟨constants, added, counted, fun outcome kept =>
    ⟨fun preamble' start' comes' => ?_, fun never => absurd comes (never preamble start), told,
      fun id text found => ⟨preamble, start, comes.front, (spelled id text found).2⟩, filled,
      kept⟩⟩
  obtain ⟨rfl, rfl⟩ := comes.unique comes'
  exact ⟨rfl, refers⟩

end Parts

section Events

variable {input : TreeInput} {outcome : LoadOutcome} {front constants scopes : List Event}
  {ids : List ConstantId} {table : ConstantTable}

variable (only : ∀ event ∈ front, event.IsFront)
  (told : List.Forall₂ table.Tells ids constants) (balanced : IsBalanced scopes)

include only balanced

/-- Constants are noted in the second part of a trace. -/
theorem mem_constants_of_mem_parts {index : UInt32} {text : String} {resolved : Nat}
    (member : .constantResolved index text ∈
      front ++ constants ++ scopes ++ outcome.ending resolved) :
    .constantResolved index text ∈ constants := by
  simp only [List.mem_append] at member
  obtain ((inFront | inConstants) | inScopes) | atEnd := member
  · exact (only _ inFront).elim
  · exact inConstants
  · obtain ⟨id, same | same⟩ := balanced.isScope _ inScopes <;> cases same
  · unfold LoadOutcome.ending at atEnd
    split at atEnd
    · cases atEnd
    · split at atEnd <;> cases List.mem_singleton.1 atEnd

theorem resolved?_of_parts (resolved : Nat) :
    (front ++ constants ++ scopes ++ outcome.ending resolved).filterMap Event.resolved? =
      constants.filterMap Event.resolved? := by
  have front_none : front.filterMap Event.resolved? = [] := by
    refine List.filterMap_eq_nil_iff.2 fun event member => ?_
    have isFront := only event member
    cases event with
    | constantResolved index text => exact isFront.elim
    | _ => rfl
  have scopes_none : scopes.filterMap Event.resolved? = [] := by
    refine List.filterMap_eq_nil_iff.2 fun event member => ?_
    obtain ⟨id, rfl | rfl⟩ := balanced.isScope event member <;> rfl
  have ending_none : (outcome.ending resolved).filterMap Event.resolved? = [] := by
    unfold LoadOutcome.ending
    split
    · rfl
    · split <;> rfl
  simp only [List.filterMap_append, front_none, scopes_none, ending_none, List.nil_append,
    List.append_nil]

include told

/-- Only the end of a trace tells what became of the tree. -/
theorem mem_parts_iff {event : Event}
    (ends : event = .treeSkipped ∨ ∃ nodes size count, event = .treeDecoded nodes size count)
    (resolved : Nat) :
    event ∈ front ++ constants ++ scopes ++ outcome.ending resolved ↔
      event ∈ outcome.ending resolved := by
  have not_front : event ∉ front := by
    intro member
    have isFront := only event member
    obtain rfl | ⟨nodes, size, count, rfl⟩ := ends <;> exact isFront
  have not_constant : event ∉ constants := by
    intro member
    obtain ⟨id, text, -, rfl⟩ := exists_tells told event member
    obtain same | ⟨nodes, size, count, same⟩ := ends <;> cases same
  have not_scope : event ∉ scopes := by
    intro member
    obtain ⟨id, rfl | rfl⟩ := balanced.isScope event member <;>
      obtain same | ⟨nodes, size, count, same⟩ := ends <;> cases same
  simp only [List.mem_append, not_front, not_constant, not_scope, false_or]

end Events

end PrismTree
