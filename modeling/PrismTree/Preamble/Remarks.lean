import PrismTree.Comment
import PrismTree.Diagnostic
import PrismTree.Preamble.Heading

/-!
# Remarks

Between the heading and the tree stands what the parser found beside the tree: comments, magic
comments, the data after the end of the program, errors and warnings. All but the data are counted
lists of records, and a failure inside a record is marked with its kind and index.
-/
namespace PrismTree

/-- What the parser reports beside the tree. -/
structure Remarks where
  comments : List Comment
  magicComments : List MagicComment
  dataLocation : Option Location
  errors : List SyntaxError
  warnings : List SyntaxWarning
  deriving DecidableEq

namespace Decoder

variable {α : Type}

/-- Read a counted list of records, given the size of the smallest record. -/
def readRecords (kind : RecordKind) (minSize : Nat) (record : Decoder LoadError α) :
    Decoder LoadError (List α) := do
  let count ← readCount minSize
  readMany count fun index => within (.ofRecord kind index) record

/-- Read a comment: its kind, then its span. -/
def readComment : Decoder LoadError Comment := do
  let byte ← readByte
  match CommentKind.ofByte? byte with
  | none => fail (.unknownCommentType byte)
  | some kind =>
    let location ← readLocation
    return ⟨kind, location⟩

/-- Read a magic comment: the span of its key, then that of its value. -/
def readMagicComment : Decoder LoadError MagicComment := do
  let key ← readLocation
  let value ← readLocation
  return ⟨key, value⟩

/-- Read an error: type, message, span and level. -/
def readError : Decoder LoadError SyntaxError := do
  let code ← readVarint
  match ErrorType.ofCode? code with
  | none => fail (.unknownErrorType code)
  | some type =>
    let message ← readText "diagnostic message"
    let location ← readLocation
    let byte ← readByte
    match ErrorLevel.ofByte? byte with
    | none => fail (.unknownLevel RecordKind.error.name byte)
    | some level => return ⟨type, message, location, level⟩

/-- Read a warning: type, message, span and level. -/
def readWarning : Decoder LoadError SyntaxWarning := do
  let code ← readVarint
  match WarningType.ofCode? code with
  | none => fail (.unknownWarningType code)
  | some type =>
    let message ← readText "diagnostic message"
    let location ← readLocation
    let byte ← readByte
    match WarningLevel.ofByte? byte with
    | none => fail (.unknownLevel RecordKind.warning.name byte)
    | some level => return ⟨type, message, location, level⟩

/-- Read the remarks, section by section. -/
def readRemarks : Decoder LoadError Remarks := do
  let comments ← within (.ofSection .comments) (readRecords .comment 3 readComment)
  let magicComments ←
    within (.ofSection .magicComments) (readRecords .magicComment 4 readMagicComment)
  let dataLocation ← within (.ofSection .dataLocation) readOptionalLocation
  let errors ← within (.ofSection .errors) (readRecords .error 5 readError)
  let warnings ← within (.ofSection .warnings) (readRecords .warning 5 readWarning)
  return ⟨comments, magicComments, dataLocation, errors, warnings⟩

end Decoder

end PrismTree
