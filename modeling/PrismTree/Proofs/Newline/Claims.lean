import PrismTree.Proofs.Newline.Frame
import PrismTree.Proofs.Newline.Occurrence

/-!
# Claims on lines

A candidate claims its line in its scope, and the first claim wins. The marking is a run over the
occurrences of a tree; what carries it is that the table of the current scope says of each line
whether it was claimed, while the claims made so far come from scopes that were opened before.
-/
namespace PrismTree

/-- A line slot in a scope. -/
abbrev Claim : Type := Option Nat × Nat

namespace Occurrence

/-- Candidates are the direct elements of lists of statements, and all conditionals. -/
def isCandidate (occurrence : Occurrence) : Bool :=
  occurrence.isListed || occurrence.node.kind.isConditional

/-- The slot of the line on which the node starts. -/
def slot (source : Source) (occurrence : Occurrence) : Except LineError Nat :=
  source.lineSlot occurrence.node.location.start

/-- The failed lookup of a candidate, if it fails. -/
def failure? (source : Source) (occurrence : Occurrence) : Option LineError :=
  if occurrence.isCandidate then
    match occurrence.slot source with
    | .ok _ => none
    | .error error => some error
  else none

/-- What a candidate claims. -/
def claim? (source : Source) (occurrence : Occurrence) : Option Claim :=
  if occurrence.isCandidate then
    match occurrence.slot source with
    | .ok slot => some (occurrence.scope, slot)
    | .error _ => none
  else none

/-- The newline marks of nodes in pre-order, after the claims that were made before them. -/
def marks (source : Source) (claimed : List Claim) : List Occurrence → List Bool
  | [] => []
  | occurrence :: rest =>
    (occurrence.node.newline || (occurrence.claim? source).any (· ∉ claimed)) ::
      marks source (claimed ++ (occurrence.claim? source).toList) rest

/-- The claims of occurrences, in order. -/
def claims (source : Source) (occurrences : List Occurrence) : List Claim :=
  occurrences.filterMap (claim? source)

variable {source : Source} {claimed : List Claim} {occurrences : List Occurrence}

theorem claims_cons {occurrence : Occurrence} :
    claims source (occurrence :: occurrences) =
      (occurrence.claim? source).toList ++ claims source occurrences := by
  rw [claims, List.filterMap_cons]
  cases occurrence.claim? source <;> rfl

theorem claims_singleton {occurrence : Occurrence} :
    claims source [occurrence] = (occurrence.claim? source).toList := by
  rw [claims_cons, claims, List.filterMap_nil, List.append_nil]

theorem marks_append {others : List Occurrence} :
    marks source claimed (occurrences ++ others) =
      marks source claimed occurrences ++ marks source (claimed ++ claims source occurrences)
        others := by
  induction occurrences generalizing claimed with
  | nil => simp [marks, claims]
  | cons occurrence rest ih =>
    simp only [List.cons_append, marks, ih, claims_cons, List.append_assoc]

theorem marks_getElem? (index : Nat) :
    (marks source claimed occurrences)[index]? = occurrences[index]?.map fun occurrence =>
      occurrence.node.newline || (occurrence.claim? source).any
        (· ∉ claimed ++ claims source (occurrences.take index)) := by
  induction occurrences generalizing claimed index with
  | nil => rfl
  | cons first rest ih =>
    cases index with
    | zero => simp [marks, claims]
    | succ index =>
      simp only [marks, List.getElem?_cons_succ, ih, List.take_succ_cons, claims_cons,
        List.append_assoc]

theorem mem_claims_take_iff {claim : Claim} {index : Nat} :
    claim ∈ claims source (occurrences.take index) ↔ ∃ earlier < index, ∃ other,
      occurrences[earlier]? = some other ∧ other.claim? source = some claim := by
  rw [claims, List.mem_filterMap]
  simp only [List.mem_iff_getElem?, List.getElem?_take]
  constructor
  · intro h
    obtain ⟨other, ⟨earlier, found⟩, claimed⟩ := h
    split at found
    · next less => exact ⟨earlier, less, other, found, claimed⟩
    · cases found
  · intro h
    obtain ⟨earlier, less, other, found, claimed⟩ := h
    exact ⟨other, ⟨earlier, by rwa [if_pos less]⟩, claimed⟩

theorem claim?_eq_some_iff {occurrence : Occurrence} {claim : Claim} :
    occurrence.claim? source = some claim ↔ occurrence.isCandidate = true ∧
      occurrence.scope = claim.1 ∧ occurrence.slot source = .ok claim.2 := by
  obtain ⟨scope, slot⟩ := claim
  unfold claim?
  split
  · next candidate =>
    cases occurrence.slot source with
    | error error => simp
    | ok found => simp [candidate]
  · next other => simp [other]

/-- A candidate is first if no earlier one has the same scope and the same slot. -/
def IsFirst (source : Source) (occurrences : List Occurrence) (index : Nat)
    (occurrence : Occurrence) : Prop :=
  occurrence.isCandidate = true ∧
    ∀ earlier < index, ∀ other, occurrences[earlier]? = some other → other.isCandidate = true →
      ¬(other.scope = occurrence.scope ∧ other.slot source = occurrence.slot source)

/-- The first failed lookup among candidates, if one fails. -/
def firstFailure? (source : Source) (occurrences : List Occurrence) : Option LineError :=
  occurrences.findSome? (failure? source)

theorem failure?_eq_none_iff {occurrence : Occurrence} :
    occurrence.failure? source = none ↔
      (occurrence.isCandidate = true → ∃ slot, occurrence.slot source = .ok slot) := by
  unfold failure?
  split
  · next candidate =>
    cases occurrence.slot source with
    | error error => simp [candidate]
    | ok slot => simp
  · next other => simp [other]

theorem firstFailure?_singleton {occurrence : Occurrence} :
    firstFailure? source [occurrence] = occurrence.failure? source := by
  simp [firstFailure?]

/-- No lookup fails if every candidate finds its line. -/
theorem firstFailure?_eq_none_iff :
    firstFailure? source occurrences = none ↔ ∀ occurrence ∈ occurrences,
      occurrence.isCandidate = true → ∃ slot, occurrence.slot source = .ok slot := by
  simp only [firstFailure?, List.findSome?_eq_none_iff, failure?_eq_none_iff]

/-- Without a failed lookup, to be first among the candidates is to be marked. -/
theorem marks_getElem?_eq_some_iff (fine : firstFailure? source occurrences = none) {index : Nat}
    {occurrence : Occurrence} (here : occurrences[index]? = some occurrence) :
    ∃ mark, (marks source [] occurrences)[index]? = some mark ∧
      (mark = true ↔ occurrence.node.newline = true ∨
        occurrence.IsFirst source occurrences index) := by
  refine ⟨_, by rw [marks_getElem?, here, Option.map_some], ?_⟩
  have slots := firstFailure?_eq_none_iff.1 fine occurrence (List.mem_of_getElem? here)
  rw [Bool.or_eq_true, IsFirst, List.nil_append]
  refine or_congr_right ?_
  simp only [Option.any_eq_true, decide_eq_true_eq, mem_claims_take_iff, claim?_eq_some_iff]
  constructor
  · intro h
    obtain ⟨claim, ⟨candidate, scope, slot⟩, first⟩ := h
    refine ⟨candidate, fun earlier less other found candidate' same =>
      first ⟨earlier, less, other, found, candidate', ?_, ?_⟩⟩
    · exact same.1.trans scope
    · exact same.2.trans slot
  · rintro ⟨candidate, first⟩
    obtain ⟨slot, found⟩ := slots candidate
    refine ⟨(occurrence.scope, slot), ⟨candidate, rfl, found⟩, ?_⟩
    intro h
    obtain ⟨earlier, less, other, there, candidate', scope, slot'⟩ := h
    exact first earlier less other there candidate' ⟨scope, slot'.trans found.symm⟩

end Occurrence

theorem Source.lt_of_startsBy {lineOffsets : Array UInt32} {offset : UInt32} {index : Nat}
    (starts : Source.startsBy lineOffsets offset index = true) : index < lineOffsets.size := by
  refine Nat.lt_of_not_le fun outside => ?_
  rw [startsBy, Array.getElem?_eq_none outside] at starts
  cases starts

theorem Source.searchLine_le (lineOffsets : Array UInt32) (offset : UInt32) (base size : Nat) :
    searchLine lineOffsets offset base size ≤ base + size := by
  fun_induction searchLine lineOffsets offset base size with
  | case1 base size more half middle ih =>
    have fits : half ≤ size := Nat.div_le_self size 2
    refine Nat.le_trans ih ?_
    split
    · omega
    · omega
  | case2 base size one => exact Nat.le_add_right base size

/-- The slot of a line is inside every table, also if the lines are not in order. -/
theorem Source.lineSlot_le {source : Source} {offset : UInt32} {slot : Nat}
    (found : source.lineSlot offset = .ok slot) : slot ≤ source.lineCount := by
  have bounded : linesBy source.lineOffsets (source.clamp offset) ≤ source.lineCount := by
    rw [linesBy]
    split
    · next starts => exact lt_of_startsBy starts
    · exact Nat.zero_add source.lineCount ▸ searchLine_le _ _ 0 _
  rw [lineSlot, findLine] at found
  cases lines : linesBy source.lineOffsets (source.clamp offset) with
  | zero =>
    simp only [lines] at found
    cases first : source.lineOffsets[0]? <;> rw [first] at found <;> cases found
  | succ index =>
    simp only [lines] at found
    cases found
    exact lines ▸ bounded

namespace LineTable

theorem isFree_free (source : Source) (slot : Nat) :
    (free source).isFree slot = decide (slot ≤ source.lineCount) := by
  rw [isFree, free, Array.getElem?_replicate]
  split
  · next inside => simp [Nat.le_of_lt_succ (Nat.add_comm 1 _ ▸ inside)]
  · next outside =>
    have : ¬slot ≤ source.lineCount := by omega
    simp [this]

theorem isFree_take (table : LineTable) (taken slot : Nat) :
    (table.take taken).isFree slot = (table.isFree slot && decide (slot ≠ taken)) := by
  rw [isFree, isFree, take, Array.getElem?_setIfInBounds]
  by_cases same : taken = slot
  · subst same
    rw [if_pos rfl]
    split <;> simp
  · rw [if_neg same]
    have : slot ≠ taken := Ne.symm same
    simp [this]

/-- In a table that stands for the claims in a scope the free lines are those not claimed. -/
def Represents (source : Source) (scope : Option Nat) (claimed : List Claim) (table : LineTable) :
    Prop :=
  ∀ slot ≤ source.lineCount, table.isFree slot = true ↔ (scope, slot) ∉ claimed

end LineTable

end PrismTree
