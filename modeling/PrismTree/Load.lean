import PrismTree.Newline
import PrismTree.Node.Decoder
import PrismTree.Node.Traversal
import PrismTree.ParseResult
import PrismTree.Preamble.Remarks

/-!
# Loading

A serialized tree is read in order: the heading, the remarks, and where the constant pool lies.
Unless the parser reported errors, the tree follows, which has to end where the pool begins, and
its newlines are marked. Whatever contradicts itself on the way is an error; nothing is guessed.
-/
namespace PrismTree

/-- How a load ended, and the trace that it left. -/
structure LoadOutcome where
  result : Except LoadError ParseResult
  trace : Trace

/-- A load under way: the position that was reached and the events so far. -/
structure LoadState where
  position : Nat
  trace : Trace

/-- A stage of a load: it goes on from a state, or fails with the state that it reached. -/
abbrev LoadStage (α : Type) : Type := EStateM LoadError LoadState α

namespace LoadStage

variable {α : Type}

/-- Run a decoder at the position that was reached. -/
def decode (serialized : ByteArray) (decoder : Decoder LoadError α) : LoadStage α := fun state =>
  match decoder serialized state.position with
  | .ok value position => .ok value { state with position := position }
  | .error error position => .error error { state with position := position }

/-- Add an event to the trace. -/
def note (event : Event) : LoadStage Unit := fun state =>
  .ok () { state with trace := state.trace.push event }

/-- Read the heading. -/
def heading (serialized : ByteArray) : LoadStage Heading := do
  let heading ← decode serialized Decoder.readHeading
  note (.headingRead heading.encoding.name heading.startLine heading.lineOffsets.size)
  return heading

/-- Read the remarks. -/
def remarks (serialized : ByteArray) : LoadStage Remarks := do
  let remarks ← decode serialized Decoder.readRemarks
  note (.remarksRead remarks.comments.length remarks.magicComments.length remarks.errors.length
    remarks.warnings.length)
  return remarks

/-- Read where the constant pool lies, and make a pool with nothing resolved. -/
def pool (serialized : ByteArray) (encoding : Encoding) : LoadStage ConstantPool := do
  let header ← decode serialized (Decoder.within (.ofSection .constantPool) Decoder.readPoolHeader)
  match ConstantPool.ofHeader encoding serialized.size header with
  | .ok pool => return pool
  | .error error => throw (error.within (.ofSection .constantPool))

/-- Read the tree, which must end where the constant pool begins. -/
def tree (input : TreeInput) (pool : ConstantPool) : LoadStage (Node × ConstantPool) := fun state =>
  match TreeDecoder.readNode input.options.maxDepth input ⟨state.position, pool, state.trace⟩ with
  | .error error reached =>
    .error (error.within (.ofSection .nodeTree)) ⟨reached.position, reached.trace⟩
  | .ok root reached =>
    if reached.position = pool.tableOffset then
      .ok (root, reached.pool) ⟨reached.position, reached.trace⟩
    else
      .error (.ofCause (.trailingBytes pool.tableOffset reached.position))
        ⟨reached.position, reached.trace⟩

/-- Mark the newlines of a tree. -/
def newlines (source : Source) (root : Node) : LoadStage Node := fun state =>
  let (root, marking) := root.markNewlines source state.trace
  let reached : LoadState := ⟨state.position, marking.trace⟩
  match marking.failure with
  | none => .ok root reached
  | some error =>
    .error (.within (.ofSection .newlineMarking) (.ofCause (.line error))) reached

/-- Read the tree and mark its newlines, if that is asked for. -/
def root (input : TreeInput) (source : Source) (pool : ConstantPool) :
    LoadStage (Node × ConstantPool) := do
  let (root, pool) ← tree input pool
  let root ← if input.options.markNewlines then newlines source root else pure root
  note (.treeDecoded root.count pool.size pool.resolutions)
  return (root, pool)

/-- All stages in order. -/
def all (input : TreeInput) : LoadStage ParseResult := do
  note (.loadStarted input.serialized.size input.source.size)
  let heading ← heading input.serialized
  let source : Source := ⟨input.source, heading.startLine, heading.lineOffsets⟩
  let remarks ← remarks input.serialized
  let pool ← pool input.serialized heading.encoding
  let (root, pool) ←
    if remarks.errors.isEmpty then do
      let (root, pool) ← root input source pool
      pure (some root, pool)
    else do
      note .treeSkipped
      pure (none, pool)
  return {
    root := root
    comments := remarks.comments
    magicComments := remarks.magicComments
    dataLocation := remarks.dataLocation
    errors := remarks.errors
    warnings := remarks.warnings
    source := source
    constants := pool.constants
    encoding := heading.encoding }

end LoadStage

/-- Load a serialized tree with its source, and keep the trace. -/
def loadTraced (serialized source : ByteArray) (options : LoadOptions) : LoadOutcome :=
  match LoadStage.all ⟨serialized, source, options⟩ ⟨0, #[]⟩ with
  | .ok result state => ⟨.ok result, state.trace⟩
  | .error error state => ⟨.error error, state.trace⟩

/-- Load a serialized tree with its source, which must be the bytes that were parsed. -/
def load (serialized source : ByteArray) (options : LoadOptions := {}) :
    Except LoadError ParseResult :=
  (loadTraced serialized source options).result

end PrismTree
