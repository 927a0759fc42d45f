import PrismTree.Proofs.Load.Options
import PrismTree.Proofs.Load.Rewriting

/-!
# The limit on the nesting

A limit on the nesting refuses exactly the trees that are higher. Two readings with different limits
take the same steps until the depth that is left under the lower one is used up, and then the lower
one fails; so whatever else ends a load ends it under both limits in the same way.
-/
namespace PrismTree

variable {serialized bytes : ByteArray} {options : LoadOptions} {result : ParseResult}
  {maxDepth maxDepth' : Nat}

namespace TreeDecoder

/-- With less depth left, a node is read as with more, or the nesting is too deep. -/
theorem runsAlike_limiting {depth depth' : Nat} (le : depth ≤ depth') :
    RunsAlike (· = .ofCause (.nestingTooDeep maxDepth))
      ⟨serialized, bytes, options.limiting maxDepth⟩
      ⟨serialized, bytes, options.limiting maxDepth'⟩ (readNode depth) (readNode depth') := by
  induction depth generalizing depth' with
  | zero => exact fun state => Or.inr ⟨_, state, rfl, rfl⟩
  | succ depth ih =>
    obtain ⟨more, rfl⟩ : ∃ more, depth' = more + 1 := ⟨depth' - 1, by omega⟩
    have child := ih (Nat.le_of_succ_le_succ le)
    have same : TreeInput.SameBytes ⟨serialized, bytes, options.limiting maxDepth⟩
        ⟨serialized, bytes, options.limiting maxDepth'⟩ := ⟨rfl, rfl⟩
    have asked : (options.limiting maxDepth).verifyDefLengths =
        (options.limiting maxDepth').verifyDefLengths := rfl
    refine runsAlike_readNode_succ same child fun declared? afterTag => ?_
    exact .of_eq (checkDefLength_congr asked declared? afterTag)

/-- A tree that is read under one limit is read under any limit that it keeps to. -/
theorem readNode_of_height_le {state reached : TreeState} {root : Node}
    (run : readNode maxDepth' ⟨serialized, bytes, options.limiting maxDepth'⟩ state =
      .ok root reached) (shallow : root.height ≤ maxDepth) :
    readNode maxDepth ⟨serialized, bytes, options.limiting maxDepth⟩ state = .ok root reached := by
  obtain ⟨form_bytes, form, stands, follows⟩ := exists_form_of_readNode run
  obtain ⟨⟨-, plain⟩, form⟩ := mem_provided_mul.1 form
  let input : TreeInput := ⟨serialized, bytes, options.limiting maxDepth⟩
  have form' : form_bytes ∈ childForms input.rules maxDepth root :=
    mem_provided_mul.2 ⟨⟨shallow, plain⟩, form⟩
  exact (reads_readNode input maxDepth state stands.1 root reached).2
    ⟨form_bytes, form', stands, follows⟩

end TreeDecoder

/-- A result that is loaded under one limit is loaded under any limit that its tree keeps to. -/
theorem load_of_height_le (loaded : load serialized bytes (options.limiting maxDepth') = .ok result)
    (shallow : ∀ root ∈ result.root, root.height ≤ maxDepth) :
    load serialized bytes (options.limiting maxDepth) = .ok result := by
  obtain ⟨preamble, position, run, room, outcome⟩ := load_eq_ok_iff.1 loaded
  apply load_eq_ok_iff.2
  refine ⟨preamble, position, run, room, outcome_eq_ok_iff.2 ?_⟩
  obtain failed | ⟨none, root', pool', tree, rfl⟩ := outcome_eq_ok_iff.1 outcome
  · exact Or.inl failed
  · right
    obtain ⟨root, reached, read, ends, kept, finished⟩ := treeOutcome_eq_ok_iff.1 tree
    have same : root.height = root'.height := by
      rw [← root.height_unmark, ← Node.unmark_of_finished finished, root'.height_unmark]
    have low : root.height ≤ maxDepth := same ▸ shallow root' rfl
    have read' := TreeDecoder.readNode_of_height_le read low
    exact ⟨none, root', pool', treeOutcome_eq_ok_iff.2 ⟨root, reached, read', ends, kept, finished⟩,
      rfl⟩

/-- The limit on the nesting is a limit on the height of the tree and nothing else: under a lower
limit a load ends as under the higher one, or it fails because the nesting is too deep. -/
theorem load_limiting (serialized bytes : ByteArray) (options : LoadOptions)
    (le : maxDepth ≤ maxDepth') :
    let tooDeep : LoadError :=
      .within (.ofSection .nodeTree) (.ofCause (.nestingTooDeep maxDepth))
    (load serialized bytes (options.limiting maxDepth) =
        load serialized bytes (options.limiting maxDepth') ∨
      load serialized bytes (options.limiting maxDepth) = .error tooDeep) ∧
    ∀ result, load serialized bytes (options.limiting maxDepth') = .ok result →
      ((∀ root ∈ result.root, root.height ≤ maxDepth) →
        load serialized bytes (options.limiting maxDepth) = .ok result) ∧
      ((∃ root ∈ result.root, maxDepth < root.height) →
        load serialized bytes (options.limiting maxDepth) = .error tooDeep) := by
  intro tooDeep
  have ends : load serialized bytes (options.limiting maxDepth) =
        load serialized bytes (options.limiting maxDepth') ∨
      load serialized bytes (options.limiting maxDepth) = .error tooDeep := by
    have alike : TreeDecoder.RunsAlike (· = .ofCause (.nestingTooDeep maxDepth))
        ⟨serialized, bytes, options.limiting maxDepth⟩
        ⟨serialized, bytes, options.limiting maxDepth'⟩
        (TreeDecoder.readNode (options.limiting maxDepth).maxDepth)
        (TreeDecoder.readNode (options.limiting maxDepth').maxDepth) :=
      TreeDecoder.runsAlike_limiting le
    have marks : (options.limiting maxDepth).markNewlines =
        (options.limiting maxDepth').markNewlines := rfl
    obtain same | ⟨error, failed, rfl⟩ := load_alike marks alike
    · exact Or.inl same
    · exact Or.inr failed
  refine ⟨ends, fun result loaded => ⟨load_of_height_le loaded, ?_⟩⟩
  rintro ⟨root, tree, high⟩
  obtain same | failed := ends
  · -- a result under the lower limit would have a tree that keeps to it
    have loaded' := same.trans loaded
    have low := (tree_of_load loaded').2.2 root tree
    rw [root.height_unmark] at low
    exact absurd high (Nat.not_lt.2 low)
  · exact failed

/-- A method and its string are two levels. -/
theorem load_limiting_paddedDefinition :
    let options : LoadOptions := { verifyDefLengths := false }
    1 ≤ 2 ∧ ∃ result root, load paddedDefinition ⟨#[65]⟩ (options.limiting 2) = .ok result ∧
      root ∈ result.root ∧ root.height = 2 ∧
      load paddedDefinition ⟨#[65]⟩ (options.limiting 1) =
        .error (.within (.ofSection .nodeTree) (.ofCause (.nestingTooDeep 1))) := by
  intro options
  have low : 1 ≤ 2 := by decide
  have height : (load paddedDefinition ⟨#[65]⟩ (options.limiting 2)).toOption.map
      (·.root.map Node.height) = some (some 2) := by
    decide +kernel
  cases loaded : load paddedDefinition ⟨#[65]⟩ (options.limiting 2) with
  | error error =>
    rw [loaded] at height
    cases height
  | ok result =>
    rw [loaded] at height
    obtain ⟨root, tree, two⟩ := Option.map_eq_some_iff.1 (Option.some.inj height)
    have limited := (load_limiting paddedDefinition ⟨#[65]⟩ options low).2 result loaded
    exact ⟨low, result, root, rfl, tree, two, limited.2 ⟨root, tree, two.symm ▸ by decide⟩⟩

end PrismTree
