import PrismTree.Proofs.Count.Check
import PrismTree.Proofs.Load.Outcome

/-!
# Loads with a check of counts

A load of which every reader that looks at a count, in front of the tree and in it, takes the check
as a parameter. With the check of a load it is the load.
-/
namespace PrismTree

namespace CountCheck

variable {α : Type} (check : CountCheck)

/-- Read the number of the first line, then the counted offsets of the line starts. -/
def readLines : Decoder ReadError (Int32 × Array UInt32) := do
  let startLine ← Decoder.readSignedVarint
  let count ← check.readCount 1
  let lineOffsets ← readMany count fun _ => Decoder.readVarint
  return (startLine, lineOffsets.toArray)

/-- Read the heading. -/
def readHeading : Decoder LoadError Heading := do
  Decoder.within (.ofSection .header) Decoder.readSignature
  let encoding ← Decoder.within (.ofSection .encoding) Decoder.readEncoding
  let (startLine, lineOffsets) ← Decoder.within (.ofSection .lineOffsets) check.readLines
  return ⟨encoding, startLine, lineOffsets⟩

/-- Read a counted list of records, given the size of the smallest record. -/
def readRecords (kind : RecordKind) (minSize : Nat) (record : Decoder LoadError α) :
    Decoder LoadError (List α) := do
  let count ← check.readCount minSize
  readMany count fun index => Decoder.within (.ofRecord kind index) record

/-- Read the remarks, section by section. -/
def readRemarks : Decoder LoadError Remarks := do
  let comments ←
    Decoder.within (.ofSection .comments) (check.readRecords .comment 3 Decoder.readComment)
  let magicComments ← Decoder.within (.ofSection .magicComments)
    (check.readRecords .magicComment 4 Decoder.readMagicComment)
  let dataLocation ← Decoder.within (.ofSection .dataLocation) Decoder.readOptionalLocation
  let errors ← Decoder.within (.ofSection .errors) (check.readRecords .error 5 Decoder.readError)
  let warnings ←
    Decoder.within (.ofSection .warnings) (check.readRecords .warning 5 Decoder.readWarning)
  return ⟨comments, magicComments, dataLocation, errors, warnings⟩

/-- Read everything in front of the tree. -/
def readPreamble : Decoder LoadError Preamble := do
  let heading ← check.readHeading
  let remarks ← check.readRemarks
  let pool ← Decoder.within (.ofSection .constantPool) Decoder.readPoolHeader
  return ⟨heading, remarks, pool⟩

/-- The tree of a load and the pool that it leaves: it has to end where the pool begins. -/
def treeOutcome (input : TreeInput) (source : Source) (pool : ConstantPool) (position : Nat)
    (trace : Trace) : Except LoadError (Node × ConstantPool) :=
  match check.readNode input.options.maxDepth input ⟨position, pool, trace⟩ with
  | .error error _ => .error (error.within (.ofSection .nodeTree))
  | .ok root reached =>
    if reached.position = pool.tableOffset then
      (root.finished input.options source).map fun root => (root, reached.pool)
    else .error (.ofCause (.trailingBytes pool.tableOffset reached.position))

/-- The outcome of a load behind its preamble, with the pool that the preamble places. -/
def outcome (preamble : Preamble) (input : TreeInput) (position : Nat) (pool : ConstantPool) :
    Except LoadError ParseResult :=
  if preamble.remarks.errors.isEmpty then
    (check.treeOutcome input (preamble.source input.source) pool position
      (preamble.trace input)).map
      fun (root, pool) => preamble.result input.source (some root) pool.constants
  else .ok (preamble.result input.source none pool.constants)

/-- Load a serialized tree with its source. -/
def load (serialized source : ByteArray) (options : LoadOptions) : Except LoadError ParseResult :=
  match check.readPreamble.runFrom serialized 0 with
  | .error error _ => .error error
  | .ok preamble position =>
    match ConstantPool.ofHeader preamble.heading.encoding serialized.size preamble.pool with
    | .error error => .error (error.within (.ofSection .constantPool))
    | .ok pool => check.outcome preamble ⟨serialized, source, options⟩ position pool

theorem readPreamble_room : room.readPreamble = Decoder.readPreamble :=
  rfl

theorem outcome_room (preamble : Preamble) (input : TreeInput) (position : Nat)
    (pool : ConstantPool) :
    room.outcome preamble input position pool = preamble.outcome input position pool := by
  have trees : room.treeOutcome = PrismTree.treeOutcome := by
    funext input source pool position trace
    rw [treeOutcome, readNode_room]
    rfl
  rw [outcome, trees, Preamble.outcome]

/-- With the check of a load, a load is what it is. -/
theorem load_room (serialized source : ByteArray) (options : LoadOptions) :
    room.load serialized source options = PrismTree.load serialized source options := by
  rw [load_eq, load, readPreamble_room]
  cases Decoder.readPreamble.runFrom serialized 0 with
  | error error position => rfl
  | ok preamble position =>
    dsimp only
    cases ConstantPool.ofHeader preamble.heading.encoding serialized.size preamble.pool with
    | error error => rfl
    | ok pool => exact outcome_room preamble ⟨serialized, source, options⟩ position pool

end CountCheck

end PrismTree
