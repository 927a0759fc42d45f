import PrismTree.Proofs.Newline.Claims

/-!
# The run of a marking

Marking a tree makes the claims of its occurrences, one after the other, and stops at the first
lookup that fails. What one claim preserves is preserved by whole trees, field by field; a block or
lambda starts with an empty table, and the table outside has missed nothing when it is taken up
again, since the claims inside were made in scopes of their own.
-/
namespace PrismTree

open Occurrence

namespace Marking

variable {source : Source} {scope : Option Nat} {position : Nat} {claimed : List Claim}
  {marking marking' : Marking} {xs ys : List Occurrence} {flags flags' : List Bool}

/-- A marking that is about to go on at a position: no lookup has failed, the table stands for the
claims in the current scope, and every scope so far was opened before. -/
structure Holds (source : Source) (scope : Option Nat) (position : Nat) (claimed : List Claim)
    (marking : Marking) : Prop where
  failure : marking.failure = none
  represents : marking.table.Represents source scope claimed
  scope_before : IsBefore scope position
  claims_before : ∀ claim ∈ claimed, IsBefore claim.1 position

theorem Holds.not_failed (holds : marking.Holds source scope position claimed) :
    ¬marking.failed = true := by
  simp [failed, holds.failure]

/-- A run over occurrences has ended with the first failure, or it has made all claims and set the
marks that go with them. -/
def Runs (source : Source) (scope : Option Nat) (position : Nat) (claimed : List Claim)
    (occurrences : List Occurrence) (flags : List Bool) (marking : Marking) : Prop :=
  (∃ error, firstFailure? source occurrences = some error ∧ marking.failure = some error) ∨
  (firstFailure? source occurrences = none ∧
    marking.Holds source scope (position + occurrences.length)
      (claimed ++ claims source occurrences) ∧
    flags = marks source claimed occurrences)

theorem Holds.runs_nil (holds : marking.Holds source scope position claimed) :
    Runs source scope position claimed [] [] marking := by
  refine Or.inr ⟨rfl, ?_, rfl⟩
  simpa [claims] using holds

theorem Runs.append (first : Runs source scope position claimed xs flags marking)
    (ended : marking.failed = true → marking' = marking)
    (second : marking.Holds source scope (position + xs.length) (claimed ++ claims source xs) →
      Runs source scope (position + xs.length) (claimed ++ claims source xs) ys flags' marking') :
    Runs source scope position claimed (xs ++ ys) (flags ++ flags') marking' := by
  rw [Runs, firstFailure?, List.findSome?_append]
  obtain ⟨error, failure, reached⟩ | ⟨fine, holds, rfl⟩ := first
  · unfold firstFailure? at failure
    refine Or.inl ⟨error, by rw [failure]; rfl, ?_⟩
    rw [ended (by rw [failed, reached]; rfl), reached]
  · unfold firstFailure? at fine
    rw [fine, Option.none_or, List.length_append, ← Nat.add_assoc, marks_append, claims,
      List.filterMap_append, ← List.append_assoc]
    obtain ⟨error, failure, reached⟩ | ⟨fine', holds', rfl⟩ := second holds
    · exact Or.inl ⟨error, failure, reached⟩
    · exact Or.inr ⟨fine', holds', rfl⟩

/-- A run that has failed fails whatever follows. -/
theorem Runs.of_failed (first : Runs source scope position claimed xs flags marking)
    (failed : marking.failed = true) :
    Runs source scope position claimed (xs ++ ys) flags' marking := by
  obtain ⟨error, failure, reached⟩ | ⟨-, holds, -⟩ := first
  · refine Or.inl ⟨error, ?_, reached⟩
    unfold firstFailure? at failure
    rw [firstFailure?, List.findSome?_append, failure]
    rfl
  · exact absurd failed holds.not_failed

theorem represents_take {table : LineTable} {slot : Nat}
    (represents : table.Represents source scope claimed) :
    (table.take slot).Represents source scope (claimed ++ [(scope, slot)]) := by
  intro other inside
  rw [LineTable.isFree_take, Bool.and_eq_true, represents other inside]
  simp

/-- A run over one occurrence that does not fail. -/
theorem Runs.singleton {occurrence : Occurrence} {flag : Bool}
    (fine : occurrence.failure? source = none)
    (holds : marking.Holds source scope (position + 1)
      (claimed ++ (occurrence.claim? source).toList))
    (mark : flag = (occurrence.node.newline || (occurrence.claim? source).any (· ∉ claimed))) :
    Runs source scope position claimed [occurrence] [flag] marking := by
  have all : claims source [occurrence] = (occurrence.claim? source).toList := claims_singleton
  refine Or.inr ⟨firstFailure?_singleton.trans fine, all ▸ holds, ?_⟩
  rw [mark]
  rfl

/-- What one claim does: it fails, or marks the node if its line is free and takes the line. -/
theorem Holds.claim (holds : marking.Holds source scope position claimed) (occurrence : Occurrence)
    (here : occurrence.scope = scope) :
    let claimed' := marking.claim source occurrence.isCandidate occurrence.node.location.start
      occurrence.node.newline
    Runs source scope position claimed [occurrence] [claimed'.1] claimed'.2 := by
  dsimp only
  have later := holds.scope_before.mono (Nat.le_succ position)
  have before : ∀ claim ∈ claimed, IsBefore claim.1 (position + 1) :=
    fun claim member => (holds.claims_before claim member).mono (Nat.le_succ position)
  have slot : occurrence.slot source = source.lineSlot occurrence.node.location.start := rfl
  unfold Marking.claim
  by_cases candidate : occurrence.isCandidate = true
  · rw [if_pos candidate]
    cases found : source.lineSlot occurrence.node.location.start with
    | error error =>
      have failure : occurrence.failure? source = some error := by
        rw [failure?, if_pos candidate, slot, found]
      exact Or.inl ⟨error, firstFailure?_singleton.trans failure, rfl⟩
    | ok line =>
      have fine : occurrence.failure? source = none := by
        rw [failure?, if_pos candidate, slot, found]
      have claim : occurrence.claim? source = some (scope, line) :=
        claim?_eq_some_iff.2 ⟨candidate, here, found⟩
      have free : marking.table.isFree line = decide ((scope, line) ∉ claimed) :=
        Bool.eq_iff_iff.2 ((holds.represents line (source.lineSlot_le found)).trans
          decide_eq_true_iff.symm)
      refine Runs.singleton fine ?_ ?_
      · rw [claim, Option.toList_some]
        refine ⟨holds.failure, represents_take holds.represents, later, fun claim member => ?_⟩
        obtain old | new := List.mem_append.1 member
        · exact before claim old
        · obtain rfl := List.mem_singleton.1 new
          exact later
      · rw [claim, Option.any_some, ← free]
  · rw [if_neg candidate]
    have fine : occurrence.failure? source = none := by rw [failure?, if_neg candidate]
    have claim : occurrence.claim? source = none := by rw [claim?, if_neg candidate]
    refine Runs.singleton fine ?_ ?_
    · rw [claim, Option.toList_none, List.append_nil]
      exact ⟨holds.failure, holds.represents, later, before⟩
    · rw [claim, Option.any_none, Bool.or_false]

/-- A block or lambda opens a scope in which nothing is claimed. -/
theorem Holds.enter (holds : marking.Holds source scope (position + 1) claimed) (id : UInt32)
    (outside : ∀ claim ∈ claimed, claim.1 ≠ some position) :
    (marking.enter source id).Holds source (some position) (position + 1) claimed := by
  refine ⟨holds.failure, fun slot inside => ?_, isBefore_some.2 (Nat.lt_succ_self _),
    holds.claims_before⟩
  show LineTable.isFree (LineTable.free source) slot = true ↔ _
  rw [LineTable.isFree_free, decide_eq_true_eq]
  exact iff_of_true inside fun member => outside _ member rfl

/-- When a block or lambda is left, the table outside still stands for the claims in its scope. -/
theorem Runs.leave {outer : Marking} {id : UInt32}
    (run : Runs source (some position) (position + 1) claimed xs flags marking)
    (holds : outer.Holds source scope (position + 1) claimed) (before : IsBefore scope position)
    (scopes : ∀ occurrence ∈ xs, IsOpenedFrom occurrence.scope position) :
    Runs source scope (position + 1) claimed xs flags (marking.leave outer.table id) := by
  obtain ⟨error, failure, reached⟩ | ⟨fine, inner, rfl⟩ := run
  · exact Or.inl ⟨error, failure, reached⟩
  · refine Or.inr ⟨fine, ⟨inner.failure, fun slot inside => ?_, ?_, inner.claims_before⟩, rfl⟩
    · show LineTable.isFree outer.table slot = true ↔ _
      rw [holds.represents slot inside, List.mem_append, not_or]
      refine (and_iff_left fun member => ?_).symm
      obtain ⟨occurrence, listed, claim⟩ := List.mem_filterMap.1 member
      exact (scopes occurrence listed).ne before (claim?_eq_some_iff.1 claim).2.1
    · exact holds.scope_before.mono (Nat.le_add_right _ _)

end Marking

open Marking

/-- The newline marks of nodes. -/
def Node.newlineMarks (nodes : List Node) : List Bool :=
  nodes.map (·.newline)

mutual

/-- Marking a tree runs over its occurrences. -/
theorem Node.runs_mark (source : Source) (isListed : Bool) : (node : Node) →
    {scope : Option Nat} → {position : Nat} → {claimed : List Claim} → {marking : Marking} →
    marking.Holds source scope position claimed →
    Runs source scope position claimed (node.occurrences scope isListed position)
      (Node.newlineMarks (node.mark source isListed marking).1.preorder)
      (node.mark source isListed marking).2
  | ⟨kind, id, location, flags, newline, fields⟩, scope, position, claimed, marking, holds => by
    have first := holds.claim ⟨⟨kind, id, location, flags, newline, fields⟩, scope, isListed⟩ rfl
    rw [Node.mark_mk, if_neg holds.not_failed, Node.occurrences]
    dsimp only [isCandidate] at first ⊢
    by_cases closure : kind.isClosure = true
    · rw [if_pos closure, if_pos closure]
      by_cases failed : (marking.claim source (isListed || kind.isConditional) location.start
          newline).2.failed = true
      · rw [if_pos failed]
        exact first.of_failed failed
      · rw [if_neg failed, Node.preorder, Node.pruned_mk, if_neg Bool.false_ne_true,
          Node.newlineMarks, List.map_cons]
        refine first.append (fun stopped => absurd stopped failed) fun holds' => ?_
        refine (fields.runs_mark source _ (holds'.enter id ?_)).leave holds' holds.scope_before ?_
        · intro claim member
          obtain old | new := List.mem_append.1 member
          · exact (holds.claims_before claim old).ne_some
          · obtain ⟨occurrence, listed, made⟩ := List.mem_filterMap.1 new
            obtain rfl := List.mem_singleton.1 listed
            rw [← (claim?_eq_some_iff.1 made).2.1]
            exact holds.scope_before.ne_some
        · intro occurrence member
          obtain same | opened := fields.scope_of_mem_occurrences member
          · exact ⟨position, same, Nat.le_refl _⟩
          · exact opened.mono (Nat.le_succ _)
    · rw [if_neg closure, if_neg closure, Node.preorder, Node.pruned_mk,
        if_neg Bool.false_ne_true, Node.newlineMarks, List.map_cons]
      exact first.append (fun failed => congrArg Prod.snd (fields.mark_of_failed failed))
        fun holds' => fields.runs_mark source _ holds'

theorem Fields.runs_mark (source : Source) (isListed : Bool) : {layout : List Field} →
    (fields : Fields layout) → {scope : Option Nat} → {position : Nat} → {claimed : List Claim} →
    {marking : Marking} → marking.Holds source scope position claimed →
    Runs source scope position claimed (fields.occurrences scope isListed position)
      (Node.newlineMarks ((fields.mark source isListed marking).1.pruned fun _ => false))
      (fields.mark source isListed marking).2
  | _, .nil, _, _, _, _, holds => holds.runs_nil
  | _, .cons value rest, _, _, _, _, holds => by
    rw [Fields.occurrences, Fields.mark_cons, Fields.pruned_cons, Node.newlineMarks,
      List.map_append]
    exact (value.runs_mark source isListed holds).append
      (fun failed => congrArg Prod.snd (rest.mark_of_failed failed))
      fun holds' => rest.runs_mark source isListed holds'

theorem Value.runs_mark (source : Source) (isListed : Bool) : {kind : FieldKind} →
    (value : Value kind) → {scope : Option Nat} → {position : Nat} → {claimed : List Claim} →
    {marking : Marking} → marking.Holds source scope position claimed →
    Runs source scope position claimed (value.occurrences scope isListed position)
      (Node.newlineMarks ((value.mark source isListed marking).1.pruned fun _ => false))
      (value.mark source isListed marking).2
  | _, .node child, _, _, _, _, holds => child.runs_mark source isListed holds
  | _, .optNode none, _, _, _, _, holds => holds.runs_nil
  | _, .optNode (some child), _, _, _, _, holds => child.runs_mark source isListed holds
  | _, .nodes children, _, _, _, _, holds => Node.runs_markAll source isListed children holds
  | _, .datum _, _, _, _, _, holds => holds.runs_nil

theorem Node.runs_markAll (source : Source) (isListed : Bool) : (nodes : List Node) →
    {scope : Option Nat} → {position : Nat} → {claimed : List Claim} → {marking : Marking} →
    marking.Holds source scope position claimed →
    Runs source scope position claimed (Node.occurrencesAll scope isListed position nodes)
      (Node.newlineMarks
        (Node.prunedAll (fun _ => false) (Node.markAll source isListed nodes marking).1))
      (Node.markAll source isListed nodes marking).2
  | [], _, _, _, _, holds => holds.runs_nil
  | node :: rest, _, _, _, _, holds => by
    rw [Node.occurrencesAll, Node.markAll]
    dsimp only
    rw [Node.prunedAll_cons, Node.newlineMarks, List.map_append]
    exact (node.runs_mark source isListed holds).append
      (fun failed => congrArg Prod.snd (Node.markAll_of_failed failed rest))
      fun holds' => Node.runs_markAll source isListed rest holds'

end

end PrismTree
