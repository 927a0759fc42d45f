import PrismTree.Decoder
import PrismTree.Node.Kind
import PrismTree.Source
import PrismTree.Text.Hexadecimal
import PrismTree.Text.Quoted

/-!
# Load errors

A load error is a cause with the stages that it passed on its way out, the outermost first. Only
the reading of a section, of a record in a counted section and of a datum in a node leave their
mark, so a load that fails leaves at most two stages however deep the node that failed lies in the
tree. Sections, records and texts stand in an error by their names alone.
-/
namespace PrismTree

/-- The sections of a serialized tree, in the order in which they are read, and the marking of
newlines, which follows them. -/
inductive Section where
  | header
  | encoding
  | lineOffsets
  | comments
  | magicComments
  | dataLocation
  | errors
  | warnings
  | constantPool
  | nodeTree
  | newlineMarking
  deriving DecidableEq

/-- The name of a section. -/
def Section.name : Section → String
  | .header => "header"
  | .encoding => "encoding"
  | .lineOffsets => "line offsets"
  | .comments => "comments"
  | .magicComments => "magic comments"
  | .dataLocation => "data location"
  | .errors => "errors"
  | .warnings => "warnings"
  | .constantPool => "constant pool"
  | .nodeTree => "node tree"
  | .newlineMarking => "newline marking"

/-- The records of the counted sections. -/
inductive RecordKind where
  | comment
  | magicComment
  | error
  | warning
  deriving DecidableEq

/-- The name of a kind of records. -/
def RecordKind.name : RecordKind → String
  | .comment => "comment"
  | .magicComment => "magic comment"
  | .error => "error"
  | .warning => "warning"

/-- A version of the format. -/
structure Version where
  major : UInt8
  minor : UInt8
  patch : UInt8
  deriving DecidableEq

namespace Version

/-- The version whose tables this library holds. -/
def supported : Version := ⟨1, 3, 0⟩

/-- The three numbers with points between them. -/
def text (version : Version) : String :=
  toString version.major.toNat ++ "." ++ toString version.minor.toNat ++ "."
    ++ toString version.patch.toNat

end Version

/-- What makes a serialized tree unreadable. -/
inductive LoadError.Cause where
  | read (error : ReadError)
  | invalidSignature
  | versionMismatch (found : Version)
  | locationFieldsPresent
  | unsupportedEncoding (name : String)
  | invalidUtf8 (text : String)
  | unknownCommentType (byte : UInt8)
  | unknownErrorType (code : UInt32)
  | unknownWarningType (code : UInt32)
  | unknownLevel (record : String) (byte : UInt8)
  | poolOutOfBounds (offset count : UInt32) (available : Nat)
  | constantIndexOutOfRange (index : UInt32) (size : Nat)
  | constantOutOfBounds (index start length : UInt32)
  | unknownNodeType (byte : UInt8)
  | flagsOutOfRange (flags : UInt32)
  | invalidStringTag (byte : UInt8)
  | sourceSliceOutOfBounds (start length : UInt32) (available : Nat)
  | emptyInteger
  | defLengthMismatch (declared : UInt32) (actual : Nat)
  | nestingTooDeep (maxDepth : Nat)
  | trailingBytes (expected actual : Nat)
  | line (error : LineError)
  deriving DecidableEq

/-- Where a failure happened. -/
inductive LoadError.Context where
  | inSection (name : String)
  | inRecord (name : String) (index : Nat)
  | inField (kind : Kind) (field : String) (offset : Nat)
  deriving DecidableEq

/-- A failure to load a serialized tree. -/
structure LoadError where
  contexts : List LoadError.Context := []
  cause : LoadError.Cause
  deriving DecidableEq

namespace LoadError

/-- The wording of a cause. -/
def Cause.message : Cause → String
  | .read error => error.message
  | .invalidSignature => "invalid signature: expected the PRISM header"
  | .versionMismatch found =>
    "unsupported format version " ++ found.text ++ ", expected " ++ Version.supported.text
  | .locationFieldsPresent => "serialized output must not include location fields"
  | .unsupportedEncoding name => "unsupported source encoding " ++ Text.quote name
  | .invalidUtf8 text => text ++ " is not valid UTF-8"
  | .unknownCommentType byte => "unknown comment type " ++ toString byte.toNat
  | .unknownErrorType code => "unknown error type " ++ toString code.toNat
  | .unknownWarningType code => "unknown warning type " ++ toString code.toNat
  | .unknownLevel record byte => "unknown " ++ record ++ " level " ++ toString byte.toNat
  | .poolOutOfBounds offset count available =>
    "constant pool of " ++ toString count.toNat ++ " entries at offset "
      ++ toString offset.toNat ++ " exceeds the " ++ toString available ++ "-byte buffer"
  | .constantIndexOutOfRange index size =>
    "constant index " ++ toString index.toNat ++ " is outside the pool of " ++ toString size
      ++ " entries"
  | .constantOutOfBounds index start length =>
    "constant " ++ toString index.toNat ++ " covers " ++ toString length.toNat ++ " bytes at "
      ++ toString start.toNat ++ " outside its backing buffer"
  | .unknownNodeType byte => "unknown node type " ++ toString byte.toNat
  | .flagsOutOfRange flags =>
    "node flags 0x" ++ Text.hexadecimal flags.toNat ++ " exceed 15 bits"
  | .invalidStringTag byte => "invalid string tag " ++ toString byte.toNat
  | .sourceSliceOutOfBounds start length available =>
    "source slice " ++ toString start.toNat ++ "+" ++ toString length.toNat
      ++ " is outside the " ++ toString available ++ "-byte source"
  | .emptyInteger => "integer literal has no words"
  | .defLengthMismatch declared actual =>
    "def node declares " ++ toString declared.toNat ++ " serialized bytes but occupies "
      ++ toString actual
  | .nestingTooDeep maxDepth =>
    "node nesting exceeds the maximum depth of " ++ toString maxDepth
  | .trailingBytes expected actual =>
    "expected to consume all bytes up to the constant pool at " ++ toString expected
      ++ ", stopped at " ++ toString actual
  | .line error => error.message

/-- The reading of a section. -/
def Context.ofSection (stage : Section) : Context :=
  .inSection stage.name

/-- The reading of a record in a counted section. -/
def Context.ofRecord (kind : RecordKind) (index : Nat) : Context :=
  .inRecord kind.name index

/-- The wording of a stage. -/
def Context.message : Context → String
  | .inSection name => "while reading " ++ name
  | .inRecord name index => "while reading " ++ name ++ " at index " ++ toString index
  | .inField kind field offset =>
    "while reading " ++ kind.name ++ "." ++ field ++ " at offset " ++ toString offset

/-- An error that has passed no stage. -/
def ofCause (cause : Cause) : LoadError :=
  ⟨[], cause⟩

/-- An error that has passed one more stage. -/
def within (context : Context) (error : LoadError) : LoadError :=
  ⟨context :: error.contexts, error.cause⟩

/-- The stages from the outermost on, each before a colon, and then the cause. -/
def message (error : LoadError) : String :=
  error.contexts.foldr (fun context rest => context.message ++ ": " ++ rest) error.cause.message

/-- The errors with this cause at each stage, from the outside in. -/
def chainOf (cause : Cause) : List Context → List LoadError
  | [] => [⟨[], cause⟩]
  | context :: contexts => ⟨context :: contexts, cause⟩ :: chainOf cause contexts

/-- The error as it stands at each stage, from the outside in. -/
def chain (error : LoadError) : List LoadError :=
  chainOf error.cause error.contexts

@[simp] theorem contexts_within (context : Context) (error : LoadError) :
    (error.within context).contexts = context :: error.contexts := rfl

@[simp] theorem cause_within (context : Context) (error : LoadError) :
    (error.within context).cause = error.cause := rfl

@[simp] theorem message_within (context : Context) (error : LoadError) :
    (error.within context).message = context.message ++ ": " ++ error.message := rfl

end LoadError

namespace Decoder

variable {α : Type}

/-- Fail with a cause. -/
def fail (cause : LoadError.Cause) : Decoder LoadError α :=
  Decoder.throw (.ofCause cause)

/-- Failed reads are load errors. -/
instance : MonadLift (Decoder ReadError) (Decoder LoadError) where
  monadLift decoder := decoder.mapError fun error => .ofCause (.read error)

/-- Mark the failures of a decoder with the stage that it reads. -/
def within (context : LoadError.Context) (decoder : Decoder LoadError α) : Decoder LoadError α :=
  decoder.mapError (·.within context)

end Decoder

end PrismTree
