import PrismTree.Constant
import PrismTree.Double
import PrismTree.Flags
import PrismTree.Location
import PrismTree.Node.Kind
import PrismTree.Text.ByteString

/-!
# Nodes

A node owns its children. The type of its fields is given by the layout of its kind, so a node has
exactly the fields of its kind, each with a value of the right sort, and whatever is done to all
kinds alike is defined once, by recursion on the fields.
-/
namespace PrismTree

/-- A field value that is not made of nodes. -/
inductive Datum : DatumKind → Type where
  | constant (id : ConstantId) : Datum .constant
  | optConstant (id : Option ConstantId) : Datum .optConstant
  | constants (ids : List ConstantId) : Datum .constants
  | string (bytes : ByteString) : Datum .string
  | integer (value : Int) : Datum .integer
  | double (value : Double) : Datum .double
  | uint32 (value : UInt32) : Datum .uint32
  | uint8 (value : UInt8) : Datum .uint8

mutual

/-- A node of a syntax tree. The newline mark, for the first node of a scope that starts on its
line, is no part of what is serialized; it is set afterwards. -/
structure Node where
  kind : Kind
  id : UInt32
  location : Location
  flags : NodeFlags
  newline : Bool
  fields : Fields kind.layout

/-- The values of the fields of a layout, in order. -/
inductive Fields : List Field → Type where
  | nil : Fields []
  | cons {field : Field} {layout : List Field} (value : Value field.kind) (rest : Fields layout) :
      Fields (field :: layout)

/-- The value of a field. -/
inductive Value : FieldKind → Type where
  | node (child : Node) : Value .node
  | optNode (child : Option Node) : Value .optNode
  | nodes (children : List Node) : Value .nodes
  | datum {kind : DatumKind} (content : Datum kind) : Value (.datum kind)

end

/-- The child nodes in a field. -/
def Value.children : {kind : FieldKind} → Value kind → List Node
  | _, .node child => [child]
  | _, .optNode child => child.toList
  | _, .nodes children => children
  | _, .datum _ => []

/-- The child nodes in a list of fields, in order. -/
def Fields.children : {layout : List Field} → Fields layout → List Node
  | _, .nil => []
  | _, .cons value rest => value.children ++ rest.children

/-- The direct children of a node, in field order. -/
def Node.children (node : Node) : List Node :=
  node.fields.children

section Change

variable {m : Type → Type} [Monad m]

/-- Change the child nodes in a field, in order. -/
def Value.mapChildrenM (f : Node → m Node) : {kind : FieldKind} → Value kind → m (Value kind)
  | _, .node child => return .node (← f child)
  | _, .optNode none => return .optNode none
  | _, .optNode (some child) => return .optNode (some (← f child))
  | _, .nodes children => return .nodes (← children.mapM f)
  | _, .datum content => return .datum content

/-- Change the child nodes in a list of fields, in order. -/
def Fields.mapChildrenM (f : Node → m Node) :
    {layout : List Field} → Fields layout → m (Fields layout)
  | _, .nil => return .nil
  | _, .cons value rest => do
    let value ← value.mapChildrenM f
    let rest ← rest.mapChildrenM f
    return .cons value rest

/-- Change the direct children of a node, in field order. -/
def Node.mapChildrenM (f : Node → m Node) (node : Node) : m Node := do
  let fields ← node.fields.mapChildrenM f
  return { node with fields := fields }

end Change

/-- Change each direct child in turn by a step that updates a state and may fail. A failure ends
the walk: the child keeps what the step made of it, and the children after it stay as they are. -/
def Node.tryModifyChildren {σ ε : Type} (step : Node → StateM σ (Node × Option ε)) (node : Node) :
    StateM σ (Node × Option ε) :=
  let walk (child : Node) : StateT (Option ε) (StateM σ) Node := do
    if (← get).isSome then
      return child
    else
      let (child, failure) ← (step child : StateM σ (Node × Option ε))
      set failure
      return child
  (node.mapChildrenM walk).run none

/-- The string in a field. -/
def Value.string? : {kind : FieldKind} → Value kind → Option ByteString
  | _, .datum (.string bytes) => some bytes
  | _, _ => none

/-- The first string in a list of fields. -/
def Fields.string? : {layout : List Field} → Fields layout → Option ByteString
  | _, .nil => none
  | _, .cons value rest => value.string? <|> rest.string?

/-- The bytes of a node that has a string field; no kind has two. -/
def Node.string? (node : Node) : Option ByteString :=
  node.fields.string?

end PrismTree
