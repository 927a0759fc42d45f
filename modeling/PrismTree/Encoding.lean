/-!
# Source encodings

The one encoding whose constants can be read is UTF-8, written in any case. Every other encoding
keeps its name for the error message.
-/
namespace PrismTree

/-- The encoding declared for a source. -/
inductive Encoding where
  | utf8
  | unsupported (name : String)
  deriving DecidableEq

namespace Encoding

/-- The encoding with a name; the case of ASCII letters is ignored. -/
def ofName (name : String) : Encoding :=
  if name.map Char.toLower = "utf-8" then .utf8 else .unsupported name

/-- The name of an encoding, as it is shown. -/
def name : Encoding → String
  | .utf8 => "UTF-8"
  | .unsupported name => name

@[simp] theorem ofName_name_utf8 : ofName utf8.name = utf8 := by
  decide +kernel

end Encoding

end PrismTree
