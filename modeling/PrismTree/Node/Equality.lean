import PrismTree.Node

/-!
# Equality of nodes

Two nodes are equal when they agree in everything that they hold, down to the leaves. Numbers are
compared as numbers and not as bits, so a tree that holds a NaN differs from itself.
-/
namespace PrismTree

/-- Equality of data, of whatever kinds. -/
def Datum.same : {kind kind' : DatumKind} → Datum kind → Datum kind' → Bool
  | _, _, .constant id, .constant id' => id == id'
  | _, _, .optConstant id, .optConstant id' => id == id'
  | _, _, .constants ids, .constants ids' => ids == ids'
  | _, _, .string bytes, .string bytes' => bytes == bytes'
  | _, _, .integer value, .integer value' => value == value'
  | _, _, .double value, .double value' => value == value'
  | _, _, .uint32 value, .uint32 value' => value == value'
  | _, _, .uint8 value, .uint8 value' => value == value'
  | _, _, _, _ => false

mutual

/-- Equality of nodes. -/
def Node.same : Node → Node → Bool
  | ⟨kind, id, location, flags, newline, fields⟩, node =>
    kind == node.kind && id == node.id && location == node.location && flags == node.flags
      && newline == node.newline && fields.same node.fields

/-- Equality of lists of fields, of whatever layouts. -/
def Fields.same : {layout layout' : List Field} → Fields layout → Fields layout' → Bool
  | _, _, .nil, .nil => true
  | _, _, .cons value rest, .cons value' rest' => value.same value' && rest.same rest'
  | _, _, _, _ => false

/-- Equality of field values, of whatever kinds. -/
def Value.same : {kind kind' : FieldKind} → Value kind → Value kind' → Bool
  | _, _, .node child, .node child' => child.same child'
  | _, _, .optNode none, .optNode none => true
  | _, _, .optNode (some child), .optNode (some child') => child.same child'
  | _, _, .nodes children, .nodes children' => Node.sameAll children children'
  | _, _, .datum content, .datum content' => content.same content'
  | _, _, _, _ => false

/-- Equality of lists of nodes. -/
def Node.sameAll : List Node → List Node → Bool
  | [], [] => true
  | node :: rest, node' :: rest' => node.same node' && Node.sameAll rest rest'
  | _, _ => false

end

/-- Nodes are compared by what they hold. -/
instance : BEq Node where
  beq := Node.same

end PrismTree
