import PrismTree.Proofs.Load.Options
import PrismTree.Proofs.Wire.DefLength

/-!
# The lengths of method definitions

The check of declared lengths refuses exactly the trees in which a length is wrong. A load with the
check ends as the load without it, or it fails with the first length that is wrong, in the order in
which the definitions end.
-/
namespace PrismTree

variable {serialized bytes : ByteArray} {options : LoadOptions} {result : ParseResult}

/-- A load without a tree does not look at the check. -/
theorem load_checking_of_root_eq_none
    (loaded : load serialized bytes (options.checking false) = .ok result)
    (none : result.root = none) : load serialized bytes (options.checking true) = .ok result := by
  obtain ⟨preamble, position, run, room, outcome⟩ := load_eq_ok_iff.1 loaded
  obtain failed | ⟨-, root, pool, -, rfl⟩ := outcome_eq_ok_iff.1 outcome
  · have outcome' : preamble.outcome ⟨serialized, bytes, options.checking true⟩ position
        (.fresh preamble.heading.encoding preamble.pool) = .ok result :=
      outcome_eq_ok_iff.2 (Or.inl failed)
    exact load_eq_ok_iff.2 ⟨preamble, position, run, room, outcome'⟩
  · cases none

/-- How something ends with the check that has a result without it: with the same result if no
length is wrong, and otherwise with the first that is, in the section of the tree. -/
def JudgedBy {α : Type} (lengths : List DeclaredLength) (checked : Except LoadError α)
    (result : α) : Prop :=
  match lengths.find? (·.IsWrong) with
  | none => checked = .ok result
  | some length =>
    checked = .error (.ofTree (.ofCause (.defLengthMismatch length.declared length.actual)))

section JudgedBy

variable {α β : Type} {lengths : List DeclaredLength} {checked : Except LoadError α} {found : α}

theorem JudgedBy.map (judged : JudgedBy lengths checked found) (f : α → β) :
    JudgedBy lengths (checked.map f) (f found) := by
  unfold JudgedBy at judged ⊢
  cases wrong : lengths.find? (·.IsWrong) with
  | none =>
    rw [wrong] at judged
    exact congrArg (Except.map f) judged
  | some length =>
    rw [wrong] at judged
    exact congrArg (Except.map f) judged

theorem JudgedBy.eq_ok_iff (judged : JudgedBy lengths checked found) :
    checked = .ok found ↔ ∀ length ∈ lengths, ¬length.IsWrong := by
  unfold JudgedBy at judged
  cases wrong : lengths.find? (·.IsWrong) with
  | none =>
    rw [wrong] at judged
    have right := List.find?_eq_none.1 wrong
    simp only [decide_eq_true_eq] at right
    exact ⟨fun _ => right, fun _ => judged⟩
  | some length =>
    rw [wrong] at judged
    have isWrong := List.find?_some wrong
    simp only [decide_eq_true_eq] at isWrong
    have member := List.mem_of_find?_eq_some wrong
    constructor
    · intro passes
      rw [judged] at passes
      cases passes
    · intro right
      exact absurd isWrong (right length member)

end JudgedBy

/-- What the check makes of the reading of a tree, it makes of the tree of a load. -/
theorem treeOutcome_judged {input : TreeInput} {source : Source} {pool : ConstantPool}
    {position : Nat} {trace : Trace} {lengths : List DeclaredLength} {plain root : Node}
    {reached : TreeState}
    (verdict : Verdict lengths
      (TreeDecoder.readNode input.options.maxDepth input ⟨position, pool, trace⟩)
      (.ok plain reached))
    (ends : reached.position = pool.tableOffset)
    (finished : plain.finished input.options source = .ok root) :
    JudgedBy lengths (treeOutcome input source pool position trace) (root, reached.pool) := by
  unfold Verdict at verdict
  unfold JudgedBy
  cases wrong : lengths.find? (·.IsWrong) with
  | none =>
    rw [wrong] at verdict
    exact treeOutcome_eq_ok_iff.2 ⟨plain, reached, verdict, ends, rfl, finished⟩
  | some length =>
    rw [wrong] at verdict
    obtain ⟨stopped, failed⟩ := verdict
    unfold treeOutcome
    simp only [failed]
    rfl

/-- Where a load without the check has a tree, a placed tree stands between the preamble and the
pool, and its lengths tell how the load ends with the check. -/
theorem exists_placed_of_load {root : Node}
    (loaded : load serialized bytes (options.checking false) = .ok result)
    (tree : root ∈ result.root) :
    ∃ (preamble : Preamble) (start : Nat) (placed : PlacedNode),
      Decoder.readPreamble.runFrom serialized 0 = .ok preamble start ∧
      placed.LiesIn serialized start preamble.pool.offset.toNat ∧
      placed.read bytes = root.unmark ∧
      JudgedBy placed.declaredLengths (load serialized bytes (options.checking true)) result := by
  obtain ⟨preamble, start, run, room, outcome⟩ := load_eq_ok_iff.1 loaded
  obtain ⟨-, rfl⟩ | ⟨none, root', pool', found, rfl⟩ := outcome_eq_ok_iff.1 outcome
  · cases tree
  · cases tree
    obtain ⟨plain, reached, read, ends, rfl, finished⟩ := treeOutcome_eq_ok_iff.1 found
    let input : TreeInput := ⟨serialized, bytes, options⟩
    let state : TreeState := ⟨start, .fresh preamble.heading.encoding preamble.pool,
      preamble.trace (input.checking true)⟩
    have inside : start ≤ serialized.size := TreeDecoder.inside_of_readNode read
    obtain ⟨placed, lies, rfl, verdict⟩ :=
      TreeDecoder.finds_readNode input options.maxDepth state plain reached inside read
    -- what is read has no marks yet, so the marks of the root are all that tells them apart
    obtain ⟨_, form, -, -⟩ := TreeDecoder.exists_form_of_readNode read
    have plain : (placed.read bytes).unmark = placed.read bytes := (mem_provided_mul.1 form).1.2
    have same : placed.read bytes = root.unmark :=
      plain.symm.trans (Node.unmark_of_finished finished).symm
    have stop : reached.position = preamble.pool.offset.toNat := ends
    refine ⟨preamble, start, placed, run, stop ▸ lies, same, ?_⟩
    have judged : JudgedBy placed.declaredLengths (treeOutcome (input.checking true)
        (preamble.source bytes) (.fresh preamble.heading.encoding preamble.pool) start
        (preamble.trace (input.checking true))) (root, reached.pool) :=
      treeOutcome_judged verdict ends finished
    rw [load_eq_treeOutcome run room none]
    exact judged.map _

/-- The check of declared lengths refuses exactly the wrong ones. Where a load without it has a
tree, the load with it returns the same result, or fails with the first length that is not that of
its definition, inner definitions first. -/
theorem load_checking (serialized bytes : ByteArray) (options : LoadOptions) :
    (∀ underflow depth,
      TreeDecoder.readNodeOr underflow depth = TreeDecoder.readNode depth) ∧
    (∀ error, load serialized bytes (options.checking false) = .error error →
      ∃ error', load serialized bytes (options.checking true) = .error error') ∧
    ∀ result, load serialized bytes (options.checking false) = .ok result →
      (result.root = none → load serialized bytes (options.checking true) = .ok result) ∧
      ∀ root ∈ result.root, ∃ (preamble : Preamble) (start : Nat) (placed : PlacedNode),
        Decoder.readPreamble.runFrom serialized 0 = .ok preamble start ∧
        placed.LiesIn serialized start preamble.pool.offset.toNat ∧
        placed.read bytes = root.unmark ∧
        placed.declaredLengths.length = root.unmark.preorder.countP Node.isDefinition ∧
        (load serialized bytes (options.checking true) = .ok result ↔
          ∀ length ∈ placed.declaredLengths, length.actual = length.declared.toNat) ∧
        ∀ length, placed.declaredLengths.find? (·.IsWrong) = some length →
          load serialized bytes (options.checking true) = .error (.within (.ofSection .nodeTree)
            (.ofCause (.defLengthMismatch length.declared length.actual))) := by
  refine ⟨TreeDecoder.readNodeOr_eq, fun error failed => ?_, fun result loaded =>
    ⟨load_checking_of_root_eq_none loaded, fun root tree => ?_⟩⟩
  · have alike : TreeDecoder.RunsAlike LoadError.IsLengthMismatch
        ⟨serialized, bytes, options.checking true⟩ ⟨serialized, bytes, options.checking false⟩
        (TreeDecoder.readNode (options.checking true).maxDepth)
        (TreeDecoder.readNode (options.checking false).maxDepth) :=
      @TreeDecoder.runsAlike_checking ⟨serialized, bytes, options⟩ options.maxDepth
    have marks : (options.checking true).markNewlines = (options.checking false).markNewlines := rfl
    obtain same | ⟨error', failed', -⟩ := load_alike marks alike
    · exact ⟨error, same.trans failed⟩
    · exact ⟨_, failed'⟩
  · obtain ⟨preamble, start, placed, run, lies, same, judged⟩ := exists_placed_of_load loaded tree
    have count := placed.length_declaredLengths bytes lies
    rw [same] at count
    refine ⟨preamble, start, placed, run, lies, same, count, ?_, fun length wrong => ?_⟩
    · rw [judged.eq_ok_iff]
      simp only [DeclaredLength.IsWrong, not_not]
    · unfold JudgedBy at judged
      rw [wrong] at judged
      exact judged

end PrismTree
