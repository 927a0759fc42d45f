/-!
# Load options

What may be left out of a load, and how deep a tree may be nested.
-/
namespace PrismTree

/-- The choices of a load. -/
structure LoadOptions where
  /-- Compare the serialized length of each method definition with the bytes that it takes. -/
  verifyDefLengths : Bool := true
  /-- Mark the first node of each scope that starts on its line. -/
  markNewlines : Bool := true
  /-- The deepest nesting of nodes that is accepted; the root alone has depth one. -/
  maxDepth : Nat := 5000
  deriving DecidableEq

end PrismTree
