import PrismTree.Load
import PrismTree.Proofs.Newline.Frame

/-!
# The outcome of a load

A load is one decision after another: the preamble, the place of the pool, the tree, its end, its
newlines. The trace that is kept on the way has no influence on any of them.
-/
namespace PrismTree

/-- What stands in front of the tree. -/
structure Preamble where
  heading : Heading
  remarks : Remarks
  pool : PoolHeader

namespace Preamble

/-- The source with the lines that the heading tells. -/
def source (preamble : Preamble) (bytes : ByteArray) : Source :=
  ⟨bytes, preamble.heading.startLine, preamble.heading.lineOffsets⟩

/-- The result of a load with this preamble, given the tree and the constants. -/
def result (preamble : Preamble) (bytes : ByteArray) (root : Option Node)
    (constants : ConstantTable) : ParseResult where
  root := root
  comments := preamble.remarks.comments
  magicComments := preamble.remarks.magicComments
  dataLocation := preamble.remarks.dataLocation
  errors := preamble.remarks.errors
  warnings := preamble.remarks.warnings
  source := preamble.source bytes
  constants := constants
  encoding := preamble.heading.encoding

/-- The events of a load up to the tree. -/
def trace (preamble : Preamble) (input : TreeInput) : Trace :=
  #[].push (.loadStarted input.serialized.size input.source.size)
    |>.push (.headingRead preamble.heading.encoding.name preamble.heading.startLine
      preamble.heading.lineOffsets.size)
    |>.push (.remarksRead preamble.remarks.comments.length preamble.remarks.magicComments.length
      preamble.remarks.errors.length preamble.remarks.warnings.length)

end Preamble

/-- Read everything in front of the tree. -/
def Decoder.readPreamble : Decoder LoadError Preamble := do
  let heading ← readHeading
  let remarks ← readRemarks
  let pool ← within (.ofSection .constantPool) readPoolHeader
  return ⟨heading, remarks, pool⟩

/-- The error of a load in which a line was not found. -/
def LoadError.ofLine (error : LineError) : LoadError :=
  .within (.ofSection .newlineMarking) (.ofCause (.line error))

/-- The tree as a load leaves it: with its newlines marked, if that is asked for. -/
def Node.finished (options : LoadOptions) (source : Source) (root : Node) :
    Except LoadError Node :=
  if options.markNewlines then (root.marked source).mapError .ofLine else .ok root

/-- The tree of a load and the pool that it leaves: it has to end where the pool begins. -/
def treeOutcome (input : TreeInput) (source : Source) (pool : ConstantPool) (position : Nat)
    (trace : Trace) : Except LoadError (Node × ConstantPool) :=
  match TreeDecoder.readNode input.options.maxDepth input ⟨position, pool, trace⟩ with
  | .error error _ => .error (error.within (.ofSection .nodeTree))
  | .ok root reached =>
    if reached.position = pool.tableOffset then
      (root.finished input.options source).map fun root => (root, reached.pool)
    else .error (.ofCause (.trailingBytes pool.tableOffset reached.position))

/-- The outcome of a load behind its preamble, with the pool that the preamble places. -/
def Preamble.outcome (preamble : Preamble) (input : TreeInput) (position : Nat)
    (pool : ConstantPool) : Except LoadError ParseResult :=
  if preamble.remarks.errors.isEmpty then
    (treeOutcome input (preamble.source input.source) pool position (preamble.trace input)).map
      fun (root, pool) => preamble.result input.source (some root) pool.constants
  else .ok (preamble.result input.source none pool.constants)

namespace LoadStage

/-- What a stage gives, without the state that it reaches. -/
def value {α : Type} (stage : LoadStage α) (state : LoadState) : Except LoadError α :=
  match stage state with
  | .ok value _ => .ok value
  | .error error _ => .error error

theorem value_newlines (source : Source) (root : Node) (state : LoadState) :
    (newlines source root).value state = (root.marked source).mapError .ofLine := by
  rw [Node.marked_eq source root state.trace, value, newlines]
  obtain ⟨tree, marking⟩ := root.markNewlines source state.trace
  dsimp only
  cases marking.failure <;> rfl

theorem value_root (input : TreeInput) (source : Source) (pool : ConstantPool)
    (position : Nat) (trace : Trace) :
    (root input source pool).value ⟨position, trace⟩ =
      treeOutcome input source pool position trace := by
  simp only [value, root, tree, treeOutcome, bind, EStateM.bind]
  cases TreeDecoder.readNode input.options.maxDepth input ⟨position, pool, trace⟩ with
  | error error reached => rfl
  | ok root reached =>
    by_cases ends : reached.position = pool.tableOffset
    · simp only [ends, if_true, Node.finished]
      by_cases marks : input.options.markNewlines = true
      · simp only [marks, if_true, ← value_newlines _ _ ⟨pool.tableOffset, reached.trace⟩, value,
          EStateM.bind]
        cases newlines source root ⟨pool.tableOffset, reached.trace⟩ <;> rfl
      · simp only [marks]
        rfl
    · simp only [ends, if_false]

end LoadStage

theorem load_eq (serialized source : ByteArray) (options : LoadOptions) :
    load serialized source options =
      match Decoder.readPreamble.runFrom serialized 0 with
      | .error error _ => .error error
      | .ok preamble position =>
        match ConstantPool.ofHeader preamble.heading.encoding serialized.size preamble.pool with
        | .error error => .error (error.within (.ofSection .constantPool))
        | .ok pool => preamble.outcome ⟨serialized, source, options⟩ position pool := by
  simp only [load, loadTraced, LoadStage.all, LoadStage.note, LoadStage.heading, LoadStage.decode,
    bind, EStateM.bind, Decoder.runFrom, Decoder.readPreamble, Decoder.bind]
  cases Decoder.readHeading serialized 0 with
  | error error stop => rfl
  | ok heading stop =>
    simp only [LoadStage.remarks, LoadStage.decode, LoadStage.note, bind, EStateM.bind, pure,
      EStateM.pure]
    cases Decoder.readRemarks serialized stop with
    | error error stop => rfl
    | ok remarks stop =>
      simp only [LoadStage.pool, LoadStage.decode, bind, EStateM.bind, pure]
      cases Decoder.within (.ofSection .constantPool) Decoder.readPoolHeader serialized stop with
      | error error stop => rfl
      | ok header stop =>
        simp only [Decoder.pure]
        cases ConstantPool.ofHeader heading.encoding serialized.size header with
        | error error => rfl
        | ok pool =>
          simp only [EStateM.pure, Preamble.outcome]
          by_cases none : remarks.errors.isEmpty = true
          · rw [if_pos none, if_pos none]
            rw [← LoadStage.value_root, LoadStage.value]
            simp only [EStateM.bind, Preamble.source, Preamble.trace]
            cases LoadStage.root ⟨serialized, source, options⟩
              ⟨source, heading.startLine, heading.lineOffsets⟩ pool ⟨stop, _⟩ <;> rfl
          · rw [if_neg none, if_neg none]
            rfl

end PrismTree
