import PrismTree.Proofs.Load.Success
import PrismTree.Proofs.Wire.Options

/-!
# Loads under other options

The options come into a load with its tree and with the marking of its newlines. So two loads of the
same bytes that agree about newlines end alike, unless the options tell the readings of their trees
apart.
-/
namespace PrismTree

/-- The same options with another limit on the nesting. -/
def LoadOptions.limiting (maxDepth : Nat) (options : LoadOptions) : LoadOptions :=
  { options with maxDepth := maxDepth }

/-- The same options with another choice about the lengths of method definitions. -/
def LoadOptions.checking (checks : Bool) (options : LoadOptions) : LoadOptions :=
  { options with verifyDefLengths := checks }

/-- The error of a load whose tree could not be read. -/
def LoadError.ofTree (error : LoadError) : LoadError :=
  .within (.ofSection .nodeTree) error

section

variable {excused : LoadError → Prop} {serialized bytes : ByteArray}
  {options options' : LoadOptions}
  (marks : options.markNewlines = options'.markNewlines)
  (alike : TreeDecoder.RunsAlike excused ⟨serialized, bytes, options⟩ ⟨serialized, bytes, options'⟩
    (TreeDecoder.readNode options.maxDepth) (TreeDecoder.readNode options'.maxDepth))

include marks alike

theorem treeOutcome_alike (source : Source) (pool : ConstantPool) (position : Nat) (trace : Trace) :
    treeOutcome ⟨serialized, bytes, options⟩ source pool position trace =
        treeOutcome ⟨serialized, bytes, options'⟩ source pool position trace ∨
      ∃ error, treeOutcome ⟨serialized, bytes, options⟩ source pool position trace =
        .error (.ofTree error) ∧ excused error := by
  unfold treeOutcome
  obtain same | ⟨error, reached, failed, excuse⟩ := alike ⟨position, pool, trace⟩
  · have finish : ∀ root : Node, root.finished options source = root.finished options' source := by
      intro root
      unfold Node.finished
      rw [marks]
    left
    simp only [same, finish]
  · right
    simp only [failed]
    exact ⟨error, rfl, excuse⟩

theorem Preamble.outcome_alike (preamble : Preamble) (position : Nat) (pool : ConstantPool) :
    preamble.outcome ⟨serialized, bytes, options⟩ position pool =
        preamble.outcome ⟨serialized, bytes, options'⟩ position pool ∨
      ∃ error, preamble.outcome ⟨serialized, bytes, options⟩ position pool =
        .error (.ofTree error) ∧ excused error := by
  unfold Preamble.outcome
  have trees := treeOutcome_alike marks alike (preamble.source bytes) pool position
    (preamble.trace ⟨serialized, bytes, options⟩)
  by_cases none : preamble.remarks.errors.isEmpty = true
  · simp only [if_pos none]
    obtain same | ⟨error, failed, excuse⟩ := trees
    · left
      rw [same]
      rfl
    · right
      rw [failed]
      exact ⟨error, rfl, excuse⟩
  · left
    simp only [if_neg none]

/-- What tells the trees of two loads apart tells the loads apart, and nothing else does. -/
theorem load_alike :
    load serialized bytes options = load serialized bytes options' ∨
      ∃ error, load serialized bytes options = .error (.ofTree error) ∧ excused error := by
  rw [load_eq, load_eq]
  cases Decoder.readPreamble.runFrom serialized 0 with
  | error error position => exact Or.inl rfl
  | ok preamble position =>
    dsimp only
    cases ConstantPool.ofHeader preamble.heading.encoding serialized.size preamble.pool with
    | error error => exact Or.inl rfl
    | ok pool => exact preamble.outcome_alike marks alike position pool

end

end PrismTree
