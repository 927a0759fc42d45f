import PrismTree.Comment
import PrismTree.Constant
import PrismTree.Diagnostic
import PrismTree.Encoding
import PrismTree.Node
import PrismTree.Source

/-!
# Parse results

All that a serialized tree holds, together with its source. A result has a tree exactly if the
parser reported no errors.
-/
namespace PrismTree

/-- What was read from one serialized tree. -/
structure ParseResult where
  root : Option Node
  comments : List Comment
  magicComments : List MagicComment
  dataLocation : Option Location
  errors : List SyntaxError
  warnings : List SyntaxWarning
  source : Source
  constants : ConstantTable
  encoding : Encoding

namespace ParseResult

/-- Did the parser report no errors? -/
def isSuccess (result : ParseResult) : Bool :=
  result.errors.isEmpty

/-- The text of a constant that the tree refers to. -/
def constant? (result : ParseResult) (id : ConstantId) : Option String :=
  result.constants.get? id

/-- The bytes of a comment, delimiters included. -/
def commentBytes? (result : ParseResult) (comment : Comment) : Option ByteArray :=
  result.source.slice? comment.location

/-- The bytes of the key and of the value of a magic comment. -/
def magicCommentBytes? (result : ParseResult) (comment : MagicComment) :
    Option (ByteArray × ByteArray) := do
  let key ← result.source.slice? comment.key
  let value ← result.source.slice? comment.value
  return (key, value)

/-- The bytes of the data after the end of the program. -/
def dataBytes? (result : ParseResult) : Option ByteArray := do
  let location ← result.dataLocation
  result.source.slice? location

end ParseResult

end PrismTree
