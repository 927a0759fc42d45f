import PrismTree.Proofs.Load.Success
import PrismTree.Proofs.Newline.Specification
import PrismTree.Proofs.Wire.Options

/-!
# The newlines of a result

Marking newlines is the last step of a load. It comes into play only when everything before it has
succeeded, and adds nothing to the result but the newline marks of the tree.
-/
namespace PrismTree

variable {serialized bytes : ByteArray} {options : LoadOptions} {result : ParseResult}

/-- The same options with another choice about newlines. -/
def LoadOptions.marking (marks : Bool) (options : LoadOptions) : LoadOptions :=
  { options with markNewlines := marks }

/-- A result with its newlines marked, or the lookup that failed. -/
def ParseResult.marked (result : ParseResult) : Except LoadError ParseResult :=
  match result.root with
  | none => .ok result
  | some root =>
    ((root.marked result.source).mapError .ofLine).map fun root => { result with root := some root }

section

variable {input : TreeInput} {source : Source} {pool : ConstantPool} {position : Nat}
  {trace : Trace}

theorem treeOutcome_marking :
    treeOutcome (input.marking true) source pool position trace =
      (treeOutcome (input.marking false) source pool position trace).bind fun found =>
        ((found.1.marked source).mapError .ofLine).map fun root => (root, found.2) := by
  simp only [treeOutcome, TreeDecoder.ignoresMarking_readNode _ _ _, TreeInput.maxDepth_marking]
  cases TreeDecoder.readNode input.options.maxDepth input ⟨position, pool, trace⟩ with
  | error error reached => rfl
  | ok root reached =>
    by_cases ends : reached.position = pool.tableOffset
    · simp only [if_pos ends, Node.finished, TreeInput.markNewlines_marking]
      rfl
    · simp only [if_neg ends]
      rfl

/-- What follows the preamble, with the newlines marked last. -/
theorem Preamble.outcome_marking (preamble : Preamble) (input : TreeInput) :
    preamble.outcome (input.marking true) position pool =
      (preamble.outcome (input.marking false) position pool).bind ParseResult.marked := by
  rw [Preamble.outcome, Preamble.outcome]
  by_cases none : preamble.remarks.errors.isEmpty = true
  · rw [if_pos none, if_pos none, treeOutcome_marking]
    have same : preamble.trace (input.marking true) = preamble.trace (input.marking false) := rfl
    rw [same, TreeInput.source_marking, TreeInput.source_marking]
    cases treeOutcome (input.marking false) (preamble.source input.source) pool position
        (preamble.trace (input.marking false)) with
    | error error => rfl
    | ok found =>
      show Except.map _ (Except.map _ _) = Except.map _ (Except.mapError _
        (found.1.marked (preamble.source input.source)))
      cases found.1.marked (preamble.source input.source) <;> rfl
  · rw [if_neg none, if_neg none]
    rfl

end

/-- A load that marks newlines is a load that does not, and then the marking. -/
theorem load_marking (serialized bytes : ByteArray) (options : LoadOptions) :
    load serialized bytes (options.marking true) =
      (load serialized bytes (options.marking false)).bind ParseResult.marked := by
  rw [load_eq, load_eq]
  cases Decoder.readPreamble.runFrom serialized 0 with
  | error error position => rfl
  | ok preamble position =>
    dsimp only
    cases ConstantPool.ofHeader preamble.heading.encoding serialized.size preamble.pool with
    | error error => rfl
    | ok pool => exact preamble.outcome_marking ⟨serialized, bytes, options⟩

/-- Without marking, the tree of a result has no newline marks. -/
theorem isUnmarked_of_load (loaded : load serialized bytes (options.marking false) = .ok result)
    {root : Node} (tree : result.root = some root) : root.IsUnmarked := by
  obtain ⟨preamble, position, -, -, outcome⟩ := load_eq_ok_iff.1 loaded
  obtain ⟨-, rfl⟩ | ⟨-, root', pool', found, rfl⟩ := outcome_eq_ok_iff.1 outcome
  · cases tree
  · cases tree
    obtain ⟨read, reached, run, -, -, finished⟩ := treeOutcome_eq_ok_iff.1 found
    cases finished
    obtain ⟨bytes, form, -, -⟩ := TreeDecoder.exists_form_of_readNode run
    exact (mem_provided_mul.1 form).1.2

/-- A marking marks the first candidates of their scopes on their lines, or fails at the first
candidate in pre-order that does not find its line. The option changes nothing else about a load. -/
theorem newlines_of_load :
    (∀ (source : Source) (root : Node) (trace : Trace),
      let marked := root.markNewlines source trace
      root.allOccurrences.map (·.node) = root.preorder ∧
      marked.2.failure = Occurrence.firstFailure? source root.allOccurrences ∧
      (marked.2.failure = none ↔ ∀ occurrence ∈ root.allOccurrences,
        occurrence.isCandidate = true → ∃ slot, occurrence.slot source = .ok slot) ∧
      (marked.2.failure = none → root.IsMarking source marked.1)) ∧
    ∀ (serialized bytes : ByteArray) (options : LoadOptions),
      (∀ error, load serialized bytes (options.marking false) = .error error →
        load serialized bytes (options.marking true) = .error error) ∧
      ∀ result, load serialized bytes (options.marking false) = .ok result →
        (result.root = none ∧ load serialized bytes (options.marking true) = .ok result) ∨
        ∃ root, result.root = some root ∧ (∀ node ∈ root.preorder, node.newline = false) ∧
          ((∃ error, Occurrence.firstFailure? result.source root.allOccurrences = some error ∧
              load serialized bytes (options.marking true) = .error (.ofLine error)) ∨
            ∃ root', root.IsMarking result.source root' ∧
              load serialized bytes (options.marking true) =
                .ok { result with root := some root' }) := by
  refine ⟨fun source root trace => ?_, fun serialized bytes options => ⟨fun error failed => ?_,
    fun result loaded => ?_⟩⟩
  · obtain ⟨failure, marking⟩ := root.markNewlines_spec source trace
    refine ⟨root.map_node_occurrences none false 0, failure, ?_, fun fine => ?_⟩
    · rw [failure, Occurrence.firstFailure?_eq_none_iff]
    · exact marking (failure ▸ fine)
  · rw [load_marking, failed]
    rfl
  · rw [load_marking, loaded]
    show (result.root = none ∧ result.marked = _) ∨ ∃ root, _ ∧ _ ∧
      ((∃ error, _ ∧ result.marked = _) ∨ ∃ root', _ ∧ result.marked = _)
    unfold ParseResult.marked
    cases tree : result.root with
    | none => exact Or.inl ⟨rfl, rfl⟩
    | some root =>
      refine Or.inr ⟨root, rfl, fun node =>
        Node.newline_of_mem_preorder (isUnmarked_of_load loaded tree), ?_⟩
      dsimp only
      cases failure : Occurrence.firstFailure? result.source root.allOccurrences with
      | some error => exact Or.inl ⟨error, rfl, by rw [Node.marked_eq_error failure]; rfl⟩
      | none =>
        obtain ⟨root', marked, marking⟩ := Node.marked_eq_ok failure
        exact Or.inr ⟨root', marking, by rw [marked]; rfl⟩

end PrismTree
