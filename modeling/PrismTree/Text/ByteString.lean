import PrismTree.Bytes
import PrismTree.Text.Lossy
import PrismTree.Text.Quoted

/-!
# Byte strings

The bytes of a string literal need not be UTF-8, so they are kept as they are.
-/
namespace PrismTree

/-- The bytes of a string, in whatever encoding. -/
structure ByteString where
  bytes : ByteArray
  deriving DecidableEq

namespace ByteString

/-- The string without bytes. -/
def empty : ByteString := ⟨ByteArray.empty⟩

/-- The text that the bytes spell, if they are UTF-8. -/
def text? (string : ByteString) : Option String :=
  String.fromUTF8? string.bytes

/-- The text with replacement characters for what is not UTF-8. -/
def lossyText (string : ByteString) : String :=
  Text.lossy string.bytes

/-- The text as it is shown in a diagnostic. -/
def quoted (string : ByteString) : String :=
  Text.quote string.lossyText

end ByteString

end PrismTree
