import PrismTree.Location

/-!
# Comments

Comments are not part of the tree. They are kept beside it by their locations, and their text is
recovered from the source.
-/
namespace PrismTree

/-- The two forms of a comment: to the end of the line, or a block of whole lines. -/
inductive CommentKind where
  | inline
  | embDoc
  deriving DecidableEq

namespace CommentKind

/-- The form that a byte announces. -/
def ofByte? (byte : UInt8) : Option CommentKind :=
  if byte = 0 then some .inline else if byte = 1 then some .embDoc else none

/-- The byte that announces a form. -/
def toByte : CommentKind → UInt8
  | .inline => 0
  | .embDoc => 1

/-- The name of a form. -/
def name : CommentKind → String
  | .inline => "Inline"
  | .embDoc => "EmbDoc"

@[simp] theorem ofByte?_toByte (kind : CommentKind) : ofByte? kind.toByte = some kind := by
  cases kind <;> rfl

end CommentKind

/-- A comment, delimiters included. -/
structure Comment where
  kind : CommentKind
  location : Location
  deriving DecidableEq

/-- A comment as a diagnostic text: its kind and its span. -/
def Comment.text (comment : Comment) : String :=
  comment.kind.name ++ " @ " ++ comment.location.text

/-- A comment that sets a parser option: the spans of the key and of the value. -/
structure MagicComment where
  key : Location
  value : Location
  deriving DecidableEq

end PrismTree
