import PrismTree.Node.Traversal

/-!
# The shape of a tree

What is said of a tree apart from its bytes: how deep it is nested, to which constants it refers,
and what is left of it without its newline marks.
-/
namespace PrismTree

mutual

/-- How deep a tree is nested; a node without children has height one. -/
def Node.height : Node → Nat
  | ⟨_, _, _, _, _, fields⟩ => fields.height + 1

/-- The greatest height of the children in a list of fields. -/
def Fields.height : {layout : List Field} → Fields layout → Nat
  | _, .nil => 0
  | _, .cons value rest => max value.height rest.height

/-- The greatest height of the children in a field. -/
def Value.height : {kind : FieldKind} → Value kind → Nat
  | _, .node child => child.height
  | _, .optNode none => 0
  | _, .optNode (some child) => child.height
  | _, .nodes children => Node.heightAll children
  | _, .datum _ => 0

/-- The greatest height of trees. -/
def Node.heightAll : List Node → Nat
  | [] => 0
  | node :: rest => max node.height (Node.heightAll rest)

end

/-- The constants that a datum refers to. -/
def Datum.references : {kind : DatumKind} → Datum kind → List ConstantId
  | _, .constant id => [id]
  | _, .optConstant id => id.toList
  | _, .constants ids => ids
  | _, _ => []

mutual

/-- The constants that a tree refers to, in the order in which they are serialized. -/
def Node.references : Node → List ConstantId
  | ⟨_, _, _, _, _, fields⟩ => fields.references

/-- The constants that fields refer to. -/
def Fields.references : {layout : List Field} → Fields layout → List ConstantId
  | _, .nil => []
  | _, .cons value rest => value.references ++ rest.references

/-- The constants that a field refers to. -/
def Value.references : {kind : FieldKind} → Value kind → List ConstantId
  | _, .node child => child.references
  | _, .optNode none => []
  | _, .optNode (some child) => child.references
  | _, .nodes children => Node.referencesAll children
  | _, .datum content => content.references

/-- The constants that trees refer to. -/
def Node.referencesAll : List Node → List ConstantId
  | [] => []
  | node :: rest => node.references ++ Node.referencesAll rest

end

theorem Node.referencesAll_eq (nodes : List Node) :
    Node.referencesAll nodes = nodes.flatMap Node.references := by
  induction nodes with
  | nil => rfl
  | cons node rest ih => rw [Node.referencesAll, ih, List.flatMap_cons]

mutual

/-- The tree without newline marks. -/
def Node.unmark : Node → Node
  | ⟨kind, id, location, flags, _, fields⟩ => ⟨kind, id, location, flags, false, fields.unmark⟩

/-- Fields without newline marks. -/
def Fields.unmark : {layout : List Field} → Fields layout → Fields layout
  | _, .nil => .nil
  | _, .cons value rest => .cons value.unmark rest.unmark

/-- A field without newline marks. -/
def Value.unmark : {kind : FieldKind} → Value kind → Value kind
  | _, .node child => .node child.unmark
  | _, .optNode none => .optNode none
  | _, .optNode (some child) => .optNode (some child.unmark)
  | _, .nodes children => .nodes (Node.unmarkAll children)
  | _, .datum content => .datum content

/-- Trees without newline marks. -/
def Node.unmarkAll : List Node → List Node
  | [] => []
  | node :: rest => node.unmark :: Node.unmarkAll rest

end

/-- No node of the tree is marked. -/
def Node.IsUnmarked (node : Node) : Prop :=
  node.unmark = node

theorem Node.isUnmarked_mk {kind : Kind} {id : UInt32} {location : Location} {flags : NodeFlags}
    {newline : Bool} {fields : Fields kind.layout} :
    (Node.mk kind id location flags newline fields).IsUnmarked ↔
      newline = false ∧ fields.unmark = fields := by
  simp only [Node.IsUnmarked, Node.unmark, Node.mk.injEq, heq_eq_eq, true_and]
  exact and_congr_left fun _ => eq_comm

mutual

/-- Newline marks are no references. -/
theorem Node.references_unmark : (node : Node) → node.unmark.references = node.references
  | ⟨_, _, _, _, _, fields⟩ => fields.references_unmark

theorem Fields.references_unmark : {layout : List Field} → (fields : Fields layout) →
    fields.unmark.references = fields.references
  | _, .nil => rfl
  | _, .cons value rest => by
    simp only [Fields.unmark, Fields.references, value.references_unmark, rest.references_unmark]

theorem Value.references_unmark : {kind : FieldKind} → (value : Value kind) →
    value.unmark.references = value.references
  | _, .node child => child.references_unmark
  | _, .optNode none => rfl
  | _, .optNode (some child) => child.references_unmark
  | _, .nodes children => Node.referencesAll_unmarkAll children
  | _, .datum _ => rfl

theorem Node.referencesAll_unmarkAll : (nodes : List Node) →
    Node.referencesAll (Node.unmarkAll nodes) = Node.referencesAll nodes
  | [] => rfl
  | node :: rest => by
    simp only [Node.unmarkAll, Node.referencesAll, node.references_unmark,
      Node.referencesAll_unmarkAll rest]

end

mutual

/-- Newline marks do not change how deep a tree is nested. -/
theorem Node.height_unmark : (node : Node) → node.unmark.height = node.height
  | ⟨_, _, _, _, _, fields⟩ => congrArg (· + 1) fields.height_unmark

theorem Fields.height_unmark : {layout : List Field} → (fields : Fields layout) →
    fields.unmark.height = fields.height
  | _, .nil => rfl
  | _, .cons value rest => by
    simp only [Fields.unmark, Fields.height, value.height_unmark, rest.height_unmark]

theorem Value.height_unmark : {kind : FieldKind} → (value : Value kind) →
    value.unmark.height = value.height
  | _, .node child => child.height_unmark
  | _, .optNode none => rfl
  | _, .optNode (some child) => child.height_unmark
  | _, .nodes children => Node.heightAll_unmarkAll children
  | _, .datum _ => rfl

theorem Node.heightAll_unmarkAll : (nodes : List Node) →
    Node.heightAll (Node.unmarkAll nodes) = Node.heightAll nodes
  | [] => rfl
  | node :: rest => by
    simp only [Node.unmarkAll, Node.heightAll, node.height_unmark, Node.heightAll_unmarkAll rest]

end

end PrismTree
