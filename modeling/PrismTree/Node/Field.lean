/-!
# Fields of nodes

The layout of a node is a list of named fields. A field holds child nodes (one, at most one, or a
list) or a datum, and the eleven kinds of fields differ in how they are serialized. The split
between children and data matters for errors: a failure inside a datum is reported with the field
that holds it, while a failure inside a child is reported by the child.
-/
namespace PrismTree

/-- The kind of a datum: a field value that is not made of nodes. -/
inductive DatumKind where
  | constant
  | optConstant
  | constants
  | string
  | integer
  | double
  | uint32
  | uint8
  deriving DecidableEq

/-- The kind of a field: what it holds and how it is serialized. -/
inductive FieldKind where
  | node
  | optNode
  | nodes
  | datum (kind : DatumKind)
  deriving DecidableEq

namespace FieldKind

/-- A reference into the constant pool. -/
abbrev constant : FieldKind := .datum .constant

/-- A reference into the constant pool that may be absent. -/
abbrev optConstant : FieldKind := .datum .optConstant

/-- A list of references into the constant pool. -/
abbrev constants : FieldKind := .datum .constants

/-- Bytes, spelled in the source or embedded. -/
abbrev string : FieldKind := .datum .string

/-- An integer of any size. -/
abbrev integer : FieldKind := .datum .integer

/-- A binary64 number. -/
abbrev double : FieldKind := .datum .double

/-- A number below `2 ^ 32`. -/
abbrev uint32 : FieldKind := .datum .uint32

/-- A number below `2 ^ 8`. -/
abbrev uint8 : FieldKind := .datum .uint8

end FieldKind

/-- A named field of a layout. -/
structure Field where
  name : String
  kind : FieldKind
  deriving DecidableEq

end PrismTree
