import PrismTree.ConstantPool
import PrismTree.LoadOptions
import PrismTree.Trace

/-!
# Tree decoders

While a tree is read, the constant pool and the trace change along with the position. All three
keep what they have become when the reading fails.
-/
namespace PrismTree

/-- What stays fixed while a tree is read. -/
structure TreeInput where
  serialized : ByteArray
  source : ByteArray
  options : LoadOptions

/-- What changes while a tree is read. -/
structure TreeState where
  position : Nat
  pool : ConstantPool
  trace : Trace

/-- A reader of parts of a tree: given what is fixed and a state, a value or an error, and the state
that was reached. -/
def TreeDecoder (α : Type) : Type :=
  TreeInput → TreeState → EStateM.Result LoadError TreeState α

namespace TreeDecoder

variable {α β : Type}

/-- Read nothing. -/
@[always_inline, inline]
protected def pure (value : α) : TreeDecoder α := fun _ state =>
  .ok value state

/-- Go on from the state that was reached; stop at the first failure. -/
@[always_inline, inline]
protected def bind (decoder : TreeDecoder α) (next : α → TreeDecoder β) : TreeDecoder β :=
  fun input state =>
    match decoder input state with
    | .ok value state => next value input state
    | .error error state => .error error state

/-- Tree decoders in sequence. -/
instance : Monad TreeDecoder where
  pure := TreeDecoder.pure
  bind := TreeDecoder.bind

/-- Run a decoder at the current position of the serialized buffer. -/
def ofDecoder (decoder : Decoder LoadError α) : TreeDecoder α := fun input state =>
  match decoder input.serialized state.position with
  | .ok value position => .ok value { state with position := position }
  | .error error position => .error error { state with position := position }

/-- What reads bytes reads parts of a tree. -/
instance : MonadLift (Decoder LoadError) TreeDecoder where
  monadLift := ofDecoder

/-- Fail with a cause. -/
def fail (cause : LoadError.Cause) : TreeDecoder α := fun _ state =>
  .error (.ofCause cause) state

/-- What is fixed. -/
def input : TreeDecoder TreeInput := fun input state =>
  .ok input state

/-- The constant pool as it is now. -/
def pool : TreeDecoder ConstantPool := fun _ state =>
  .ok state.pool state

/-- The current position. -/
def position : TreeDecoder Nat := fun _ state =>
  .ok state.position state

/-- Mark the failures of a decoder with the field of a node that it reads. -/
def inField (kind : Kind) (field : String) (decoder : TreeDecoder α) : TreeDecoder α :=
  fun input state =>
    match decoder input state with
    | .ok value state => .ok value state
    | .error error state' => .error (error.within (.inField kind field state.position)) state'

/-- Keep the text of a constant, and note that it was resolved. -/
def keepConstant (id : ConstantId) (text : String) : TreeDecoder Unit := fun _ state =>
  .ok ()
    { state with
      pool := state.pool.keep id text
      trace := state.trace.push (.constantResolved id.index text) }

/-- Look up a reference, and resolve the constant if this is the first reference to it. -/
def resolveConstant (index : UInt32) : TreeDecoder ConstantId := do
  let pool ← pool
  match pool.id? index with
  | none => fail (.constantIndexOutOfRange index pool.size)
  | some id =>
    if pool.isResolved id then
      return id
    else
      let text ← pool.readText (← input).source id
      keepConstant id text
      return id

end TreeDecoder

end PrismTree
