import PrismTree.Proofs.Newline.Run

/-!
# What a marking is

A marking succeeds if no candidate fails to look up its line; then a node is marked exactly if it
is the first candidate in its scope on its line, and nothing else of the tree has changed. If a
lookup fails, the marking ends with the first failure in pre-order.
-/
namespace PrismTree

variable {source : Source} {root root' : Node}

/-- The occurrences in a whole tree. -/
def Node.allOccurrences (root : Node) : List Occurrence :=
  root.occurrences none false 0

/-- The second tree is the first with a newline mark on each first candidate. -/
structure Node.IsMarking (source : Source) (root root' : Node) : Prop where
  unmark_eq : root'.unmark = root.unmark
  newline_iff : ∀ (index : Nat) (occurrence : Occurrence),
    root.allOccurrences[index]? = some occurrence →
      ∃ node : Node, root'.preorder[index]? = some node ∧
        (node.newline = true ↔ occurrence.node.newline = true ∨
          occurrence.IsFirst source root.allOccurrences index)

/-- At the start of a marking nothing is claimed. -/
theorem Marking.holds_start (source : Source) (trace : Trace) :
    Marking.Holds source none 0 [] ⟨LineTable.free source, trace, none⟩ := by
  refine ⟨rfl, fun slot inside => ?_, isBefore_none 0, fun claim member => ?_⟩
  · simp [LineTable.isFree_free, inside]
  · cases member

/-- The marking of a whole tree does what the rule says. -/
theorem Node.markNewlines_spec (source : Source) (root : Node) (trace : Trace) :
    (root.markNewlines source trace).2.failure =
        Occurrence.firstFailure? source root.allOccurrences ∧
      (Occurrence.firstFailure? source root.allOccurrences = none →
        root.IsMarking source (root.markNewlines source trace).1) := by
  have run := root.runs_mark source false (Marking.holds_start source trace)
  obtain ⟨error, failure, reached⟩ | ⟨fine, holds, flags⟩ := run
  · refine ⟨reached.trans failure.symm, fun fine => ?_⟩
    rw [allOccurrences, failure] at fine
    cases fine
  · refine ⟨holds.failure.trans fine.symm, fun _ => ⟨root.unmark_mark source false _, ?_⟩⟩
    intro index occurrence here
    obtain ⟨mark, there, rule⟩ := Occurrence.marks_getElem?_eq_some_iff fine here
    rw [← flags, newlineMarks, List.getElem?_map, Option.map_eq_some_iff] at there
    obtain ⟨node, found, rfl⟩ := there
    exact ⟨node, found, rule⟩

theorem Node.marked_eq_ok (fine : Occurrence.firstFailure? source root.allOccurrences = none) :
    ∃ root', root.marked source = .ok root' ∧ root.IsMarking source root' := by
  obtain ⟨failure, marking⟩ := root.markNewlines_spec source #[]
  refine ⟨(root.markNewlines source #[]).1, ?_, marking fine⟩
  rw [marked_eq source root #[], failure, fine]

theorem Node.marked_eq_error {error : LineError}
    (fails : Occurrence.firstFailure? source root.allOccurrences = some error) :
    root.marked source = .error error := by
  rw [marked_eq source root #[], (root.markNewlines_spec source #[]).1, fails]

end PrismTree
