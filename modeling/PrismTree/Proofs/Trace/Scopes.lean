import PrismTree.Proofs.Newline.Specification

/-!
# The scopes in a trace

A marking notes each block and each lambda that it enters and leaves. It leaves what it has entered,
the innermost first, also if a lookup fails on the way; and what it enters are the blocks and
lambdas of the tree in pre-order, as far as it comes.
-/
namespace PrismTree

open Occurrence

/-- Scopes that are entered and left in pairs: each is left, by its id, behind what is inside. -/
inductive IsBalanced : List Event → Prop
  | nil : IsBalanced []
  | scope {id : UInt32} {inside behind : List Event} (inner : IsBalanced inside)
    (rest : IsBalanced behind) :
    IsBalanced (.scopeEntered id :: (inside ++ .scopeLeft id :: behind))

/-- The scope that an event enters. -/
def Event.entered? : Event → Option UInt32
  | .scopeEntered id => some id
  | _ => none

theorem IsBalanced.append {events events' : List Event} (first : IsBalanced events)
    (second : IsBalanced events') : IsBalanced (events ++ events') := by
  induction first with
  | nil => exact second
  | scope inner _ _ ih =>
    rw [List.cons_append, List.append_assoc, List.cons_append]
    exact .scope inner ih

theorem IsBalanced.isScope {events : List Event} (balanced : IsBalanced events) :
    ∀ event ∈ events, ∃ id, event = .scopeEntered id ∨ event = .scopeLeft id := by
  induction balanced with
  | nil => exact List.forall_mem_nil _
  | @scope id inside behind _ _ inner rest =>
    refine List.forall_mem_cons.2 ⟨⟨id, Or.inl rfl⟩, List.forall_mem_append.2 ⟨inner, ?_⟩⟩
    exact List.forall_mem_cons.2 ⟨⟨id, Or.inr rfl⟩, rest⟩

/-- Where nothing is entered, nothing is left. -/
theorem IsBalanced.eq_nil {events : List Event} (balanced : IsBalanced events)
    (nothing : events.filterMap Event.entered? = []) : events = [] := by
  cases balanced with
  | nil => rfl
  | scope inner rest => cases nothing

/-- The scopes that a marking enters: the blocks and lambdas in front of the first lookup that
fails. -/
def Occurrence.opened (source : Source) (occurrences : List Occurrence) : List UInt32 :=
  ((occurrences.takeWhile fun occurrence => (occurrence.failure? source).isNone).filter
    (·.node.kind.isClosure)).map (·.node.id)

section Opened

variable {source : Source} {occurrence : Occurrence} {xs ys : List Occurrence}

theorem opened_cons_of_failure {error : LineError}
    (fails : occurrence.failure? source = some error) :
    opened source (occurrence :: xs) = [] := by
  rw [opened, List.takeWhile_cons, fails]
  rfl

theorem opened_cons (fine : occurrence.failure? source = none) :
    opened source (occurrence :: xs) =
      (if occurrence.node.kind.isClosure then [occurrence.node.id] else []) ++
        opened source xs := by
  rw [opened, List.takeWhile_cons, if_pos (by rw [fine]; rfl), List.filter_cons]
  split <;> rfl

/-- Behind a lookup that fails nothing is entered. -/
theorem opened_append (xs ys : List Occurrence) :
    opened source (xs ++ ys) =
      opened source xs ++ if (firstFailure? source xs).isSome then [] else opened source ys := by
  induction xs with
  | nil => rfl
  | cons occurrence rest ih =>
    rw [List.cons_append, firstFailure?, List.findSome?_cons]
    cases failure : occurrence.failure? source with
    | some error =>
      rw [opened_cons_of_failure failure, opened_cons_of_failure failure]
      rfl
    | none =>
      rw [opened_cons failure, opened_cons failure, ih, List.append_assoc]
      rfl

theorem isSome_firstFailure?_append (xs ys : List Occurrence) :
    (firstFailure? source (xs ++ ys)).isSome =
      ((firstFailure? source xs).isSome || (firstFailure? source ys).isSome) := by
  rw [firstFailure?, List.findSome?_append, Option.isSome_or]
  rfl

end Opened

namespace Marking

variable {source : Source} {marking middle marking' : Marking} {xs ys : List Occurrence}

/-- Between two states of a marking, it goes over occurrences: it adds to the trace the scopes that
they open, and fails if one of them does. -/
structure GoesOver (source : Source) (occurrences : List Occurrence) (marking marking' : Marking) :
    Prop where
  events : ∃ events, marking'.trace.toList = marking.trace.toList ++ events ∧ IsBalanced events ∧
    events.filterMap Event.entered? = opened source occurrences
  failed : marking'.failed = (firstFailure? source occurrences).isSome

theorem goesOver_nil (fine : marking.failed = false) : GoesOver source [] marking marking :=
  ⟨⟨[], (List.append_nil _).symm, .nil, rfl⟩, fine⟩

/-- A marking that has not failed goes on with the rest; one that has failed stays as it is. -/
theorem GoesOver.append (first : GoesOver source xs marking middle)
    (ended : middle.failed = true → marking' = middle)
    (second : middle.failed = false → GoesOver source ys middle marking') :
    GoesOver source (xs ++ ys) marking marking' := by
  obtain ⟨events, added, balanced, entered⟩ := first.events
  cases stopped : middle.failed with
  | true =>
    obtain rfl := ended stopped
    have fails := first.failed.symm.trans stopped
    refine ⟨⟨events, added, balanced, ?_⟩, ?_⟩
    · rw [opened_append, if_pos fails, List.append_nil, entered]
    · rw [isSome_firstFailure?_append, fails, stopped, Bool.true_or]
  | false =>
    have fine := first.failed.symm.trans stopped
    obtain ⟨⟨events', added', balanced', entered'⟩, failed⟩ := second stopped
    refine ⟨⟨events ++ events', ?_, balanced.append balanced', ?_⟩, ?_⟩
    · rw [added', added, List.append_assoc]
    · rw [List.filterMap_append, opened_append, fine, entered, entered']
      rfl
    · rw [isSome_firstFailure?_append, fine, failed, Bool.false_or]

/-- A claim fails exactly if the lookup of its occurrence does, and notes nothing. -/
theorem claim_spec (source : Source) (fine : marking.failed = false) (occurrence : Occurrence) :
    let claimed := (marking.claim source occurrence.isCandidate occurrence.node.location.start
      occurrence.node.newline).2
    claimed.trace = marking.trace ∧ claimed.failed = (occurrence.failure? source).isSome := by
  dsimp only
  unfold Marking.claim
  by_cases candidate : occurrence.isCandidate = true
  · rw [failure?, if_pos candidate, if_pos candidate, slot]
    cases source.lineSlot occurrence.node.location.start with
    | ok line => exact ⟨rfl, fine⟩
    | error error => exact ⟨rfl, rfl⟩
  · rw [failure?, if_neg candidate, if_neg candidate]
    exact ⟨rfl, fine⟩

variable {occurrence : Occurrence}

/-- A node opens no scope if it is neither block nor lambda, or if its lookup fails. -/
theorem goesOver_singleton (quiet : middle.trace = marking.trace)
    (failed : middle.failed = (occurrence.failure? source).isSome)
    (plain : middle.failed = false → occurrence.node.kind.isClosure = false) :
    GoesOver source [occurrence] marking middle := by
  refine ⟨⟨[], by rw [quiet, List.append_nil], .nil, ?_⟩, ?_⟩
  · cases failure : occurrence.failure? source with
    | some error => rw [opened_cons_of_failure failure, List.filterMap_nil]
    | none =>
      have plain := plain (failed.trans (by rw [failure]; rfl))
      rw [opened_cons failure, plain, List.filterMap_nil]
      rfl
  · rw [firstFailure?_singleton, failed]

/-- A block or lambda is entered before what is inside, and left behind it. -/
theorem GoesOver.scope {table : LineTable} (quiet : middle.trace = marking.trace)
    (fine : occurrence.failure? source = none) (closure : occurrence.node.kind.isClosure = true)
    (inner : GoesOver source xs (middle.enter source occurrence.node.id) marking') :
    GoesOver source (occurrence :: xs) marking (marking'.leave table occurrence.node.id) := by
  obtain ⟨⟨events, added, balanced, entered⟩, failed⟩ := inner
  refine ⟨⟨.scopeEntered occurrence.node.id :: (events ++ [.scopeLeft occurrence.node.id]), ?_,
    .scope balanced .nil, ?_⟩, ?_⟩
  · show (marking'.trace.push _).toList = _
    rw [Array.toList_push, added]
    show (middle.trace.push _).toList ++ events ++ _ = _
    rw [Array.toList_push, quiet]
    simp only [List.append_assoc, List.cons_append, List.nil_append]
  · rw [opened_cons fine, if_pos closure, ← entered]
    simp [List.filterMap_append, Event.entered?]
  · show marking'.failed = _
    rw [failed, firstFailure?, firstFailure?, List.findSome?_cons, fine]

end Marking

open Marking

mutual

/-- Marking a tree goes over its occurrences. -/
theorem Node.goesOver_mark (source : Source) (isListed : Bool) : (node : Node) →
    {scope : Option Nat} → {position : Nat} → {marking : Marking} → marking.failed = false →
    GoesOver source (node.occurrences scope isListed position) marking
      (node.mark source isListed marking).2
  | ⟨kind, id, location, flags, newline, fields⟩, scope, position, marking, fine => by
    obtain ⟨quiet, failed⟩ :=
      claim_spec source fine ⟨⟨kind, id, location, flags, newline, fields⟩, scope, isListed⟩
    rw [Node.mark_mk, if_neg (by rw [fine]; exact Bool.false_ne_true), Node.occurrences]
    dsimp only [isCandidate] at quiet failed ⊢
    generalize marking.claim source (isListed || kind.isConditional) location.start newline =
      claimed at quiet failed
    by_cases closure : kind.isClosure = true
    · rw [if_pos closure, if_pos closure]
      cases stopped : claimed.2.failed with
      | true =>
        rw [if_pos rfl]
        refine (goesOver_singleton quiet failed ?_).append (fun _ => rfl) ?_
        · rw [stopped]
          nofun
        · rw [stopped]
          nofun
      | false =>
        rw [if_neg Bool.false_ne_true]
        have found := Option.isSome_eq_false_iff.1 (failed.symm.trans stopped)
        exact .scope quiet (Option.isNone_iff_eq_none.1 found) closure
          (fields.goesOver_mark source _ stopped)
    · rw [if_neg closure, if_neg closure]
      exact (goesOver_singleton quiet failed fun _ => Bool.eq_false_iff.2 closure).append
        (fun failed => congrArg Prod.snd (fields.mark_of_failed failed))
        fun fine' => fields.goesOver_mark source _ fine'

theorem Fields.goesOver_mark (source : Source) (isListed : Bool) : {layout : List Field} →
    (fields : Fields layout) → {scope : Option Nat} → {position : Nat} → {marking : Marking} →
    marking.failed = false →
    GoesOver source (fields.occurrences scope isListed position) marking
      (fields.mark source isListed marking).2
  | _, .nil, _, _, _, fine => goesOver_nil fine
  | _, .cons value rest, _, _, _, fine => by
    rw [Fields.occurrences, Fields.mark_cons]
    exact (value.goesOver_mark source isListed fine).append
      (fun failed => congrArg Prod.snd (rest.mark_of_failed failed))
      fun fine' => rest.goesOver_mark source isListed fine'

theorem Value.goesOver_mark (source : Source) (isListed : Bool) : {kind : FieldKind} →
    (value : Value kind) → {scope : Option Nat} → {position : Nat} → {marking : Marking} →
    marking.failed = false →
    GoesOver source (value.occurrences scope isListed position) marking
      (value.mark source isListed marking).2
  | _, .node child, _, _, _, fine => child.goesOver_mark source isListed fine
  | _, .optNode none, _, _, _, fine => goesOver_nil fine
  | _, .optNode (some child), _, _, _, fine => child.goesOver_mark source isListed fine
  | _, .nodes children, _, _, _, fine => Node.goesOver_markAll source isListed children fine
  | _, .datum _, _, _, _, fine => goesOver_nil fine

theorem Node.goesOver_markAll (source : Source) (isListed : Bool) : (nodes : List Node) →
    {scope : Option Nat} → {position : Nat} → {marking : Marking} → marking.failed = false →
    GoesOver source (Node.occurrencesAll scope isListed position nodes) marking
      (Node.markAll source isListed nodes marking).2
  | [], _, _, _, fine => goesOver_nil fine
  | node :: rest, _, _, _, fine => by
    rw [Node.occurrencesAll, Node.markAll]
    exact (node.goesOver_mark source isListed fine).append
      (fun failed => congrArg Prod.snd (Node.markAll_of_failed failed rest))
      fun fine' => Node.goesOver_markAll source isListed rest fine'

end

/-- The ids of the blocks and lambdas among nodes. -/
def Node.closures (nodes : List Node) : List UInt32 :=
  (nodes.filter (·.kind.isClosure)).map (·.id)

/-- Newline marks do not tell which nodes are blocks or lambdas. -/
theorem Node.closures_unmark (node : Node) :
    Node.closures node.unmark.preorder = Node.closures node.preorder := by
  have kind : (fun node : Node => node.kind.isClosure) ∘ unmark = fun node =>
      node.kind.isClosure := by
    funext node
    cases node
    rfl
  have id : (fun node : Node => node.id) ∘ unmark = fun node => node.id := by
    funext node
    cases node
    rfl
  rw [closures, closures, node.preorder_unmark, List.filter_map, List.map_map, kind, id]

/-- A marking that does not fail enters all blocks and lambdas on its way. -/
theorem opened_of_fine {source : Source} {occurrences : List Occurrence}
    (fine : firstFailure? source occurrences = none) :
    opened source occurrences = Node.closures (occurrences.map (·.node)) := by
  induction occurrences with
  | nil => rfl
  | cons occurrence rest ih =>
    obtain ⟨here, others⟩ :=
      List.forall_mem_cons.1 (List.findSome?_eq_none_iff.1 fine)
    rw [opened_cons here, ih (List.findSome?_eq_none_iff.2 others), List.map_cons, Node.closures,
      Node.closures, List.filter_cons]
    split <;> rfl

/-- What a marking of a whole tree adds to the trace. -/
theorem Node.exists_scopes_markNewlines (source : Source) (root : Node) (trace : Trace) :
    ∃ scopes, (root.markNewlines source trace).2.trace.toList = trace.toList ++ scopes ∧
      IsBalanced scopes ∧
      scopes.filterMap Event.entered? = opened source root.allOccurrences :=
  (root.goesOver_mark source false
    (show Marking.failed ⟨LineTable.free source, trace, none⟩ = false from rfl)).events

end PrismTree
