import PrismTree.Node.Traversal
import PrismTree.Proofs.Node.Shape

/-!
# Trees in pre-order

A visit is a fold over a list, the nodes of the tree in pre-order. This list is the node followed by
the lists of its children, and whatever is asked of a tree node by node is asked of the members of
the list.
-/
namespace PrismTree

/-- The nodes in a list of fields in pre-order, without those below a node that satisfies the
predicate. -/
def Fields.pruned (prune : Node → Bool) {layout : List Field} (fields : Fields layout) :
    List Node :=
  (fields.visit prune Array.push #[]).toList

/-- The nodes in a field in pre-order. -/
def Value.pruned (prune : Node → Bool) {kind : FieldKind} (value : Value kind) : List Node :=
  (value.visit prune Array.push #[]).toList

/-- The nodes of trees in pre-order. -/
def Node.prunedAll (prune : Node → Bool) (nodes : List Node) : List Node :=
  (Node.visitAll prune Array.push #[] nodes).toList

mutual

/-- A visit folds its step over the nodes in pre-order. -/
theorem Node.visit_eq_foldl (prune : Node → Bool) : (node : Node) → {σ : Type} →
    (step : σ → Node → σ) → (state : σ) →
    node.visit prune step state = (node.pruned prune).foldl step state
  | ⟨kind, id, location, flags, newline, fields⟩, _, step, state => by
    simp only [Node.pruned, Node.visit]
    split
    · rfl
    · rw [fields.visit_eq_foldl prune, fields.visit_eq_foldl prune Array.push,
        List.foldl_push_eq_append', Array.toList_append, List.foldl_append]
      rfl

theorem Fields.visit_eq_foldl (prune : Node → Bool) : {layout : List Field} →
    (fields : Fields layout) → {σ : Type} → (step : σ → Node → σ) → (state : σ) →
    fields.visit prune step state = (fields.pruned prune).foldl step state
  | _, .nil, _, _, _ => rfl
  | _, .cons value rest, _, step, state => by
    simp only [Fields.pruned, Fields.visit]
    rw [rest.visit_eq_foldl prune, value.visit_eq_foldl prune, rest.visit_eq_foldl prune Array.push,
      List.foldl_push_eq_append', Array.toList_append, List.foldl_append]
    rfl

theorem Value.visit_eq_foldl (prune : Node → Bool) : {kind : FieldKind} →
    (value : Value kind) → {σ : Type} → (step : σ → Node → σ) → (state : σ) →
    value.visit prune step state = (value.pruned prune).foldl step state
  | _, .node child, _, step, state => child.visit_eq_foldl prune step state
  | _, .optNode none, _, _, _ => rfl
  | _, .optNode (some child), _, step, state => child.visit_eq_foldl prune step state
  | _, .nodes children, _, step, state => Node.visitAll_eq_foldl prune children step state
  | _, .datum _, _, _, _ => rfl

theorem Node.visitAll_eq_foldl (prune : Node → Bool) : (nodes : List Node) → {σ : Type} →
    (step : σ → Node → σ) → (state : σ) →
    Node.visitAll prune step state nodes = (Node.prunedAll prune nodes).foldl step state
  | [], _, _, _ => rfl
  | node :: rest, _, step, state => by
    simp only [Node.prunedAll, Node.visitAll]
    rw [Node.visitAll_eq_foldl prune rest, node.visit_eq_foldl prune,
      Node.visitAll_eq_foldl prune rest Array.push, List.foldl_push_eq_append', Array.toList_append,
      List.foldl_append]
    rfl

end

section Equations

variable (prune : Node → Bool)

theorem Node.pruned_mk {kind : Kind} {id : UInt32} {location : Location} {flags : NodeFlags}
    {newline : Bool} {fields : Fields kind.layout} :
    (Node.mk kind id location flags newline fields).pruned prune =
      ⟨kind, id, location, flags, newline, fields⟩ ::
        if prune ⟨kind, id, location, flags, newline, fields⟩ then [] else fields.pruned prune := by
  simp only [Node.pruned, Node.visit]
  split
  · rfl
  · rw [Fields.visit_eq_foldl, List.foldl_push_eq_append', Array.toList_append]
    rfl

@[simp] theorem Fields.pruned_nil : Fields.nil.pruned prune = [] :=
  rfl

theorem Fields.pruned_cons {field : Field} {layout : List Field} (value : Value field.kind)
    (rest : Fields layout) :
    (Fields.cons value rest).pruned prune = value.pruned prune ++ rest.pruned prune := by
  simp only [Fields.pruned, Fields.visit]
  rw [Fields.visit_eq_foldl, List.foldl_push_eq_append', Array.toList_append]
  rfl

@[simp] theorem Value.pruned_node (child : Node) :
    (Value.node child).pruned prune = child.pruned prune :=
  rfl

@[simp] theorem Value.pruned_optNode_none : (Value.optNode none).pruned prune = [] :=
  rfl

@[simp] theorem Value.pruned_optNode_some (child : Node) :
    (Value.optNode (some child)).pruned prune = child.pruned prune :=
  rfl

@[simp] theorem Value.pruned_nodes (children : List Node) :
    (Value.nodes children).pruned prune = Node.prunedAll prune children :=
  rfl

@[simp] theorem Value.pruned_datum {kind : DatumKind} (content : Datum kind) :
    (Value.datum content).pruned prune = [] :=
  rfl

@[simp] theorem Node.prunedAll_nil : Node.prunedAll prune [] = [] :=
  rfl

theorem Node.prunedAll_cons (node : Node) (rest : List Node) :
    Node.prunedAll prune (node :: rest) = node.pruned prune ++ Node.prunedAll prune rest := by
  simp only [Node.prunedAll, Node.visitAll]
  rw [Node.visitAll_eq_foldl, List.foldl_push_eq_append', Array.toList_append]
  rfl

end Equations

mutual

/-- In a tree without newline marks no node has one. -/
theorem Node.newline_of_mem_preorder : {node : Node} → node.IsUnmarked → {other : Node} →
    other ∈ node.preorder → other.newline = false
  | ⟨kind, id, location, flags, newline, fields⟩, plain, other, member => by
    obtain ⟨rfl, below⟩ := Node.isUnmarked_mk.1 plain
    rw [Node.preorder, Node.pruned_mk, if_neg Bool.false_ne_true] at member
    obtain rfl | member := List.mem_cons.1 member
    · rfl
    · exact Fields.newline_of_mem_pruned below member

theorem Fields.newline_of_mem_pruned : {layout : List Field} → {fields : Fields layout} →
    fields.unmark = fields → {other : Node} → other ∈ fields.pruned (fun _ => false) →
    other.newline = false
  | _, .nil, _, _, member => absurd member List.not_mem_nil
  | _, .cons value rest, plain, _, member => by
    rw [Fields.unmark, Fields.cons.injEq] at plain
    rw [Fields.pruned_cons] at member
    obtain member | member := List.mem_append.1 member
    · exact Value.newline_of_mem_pruned plain.1 member
    · exact Fields.newline_of_mem_pruned plain.2 member

theorem Value.newline_of_mem_pruned : {kind : FieldKind} → {value : Value kind} →
    value.unmark = value → {other : Node} → other ∈ value.pruned (fun _ => false) →
    other.newline = false
  | _, .node child, plain, _, member => by
    rw [Value.unmark, Value.node.injEq] at plain
    exact Node.newline_of_mem_preorder plain member
  | _, .optNode none, _, _, member => absurd member List.not_mem_nil
  | _, .optNode (some child), plain, _, member => by
    rw [Value.unmark, Value.optNode.injEq, Option.some.injEq] at plain
    exact Node.newline_of_mem_preorder plain member
  | _, .nodes children, plain, _, member => by
    rw [Value.unmark, Value.nodes.injEq] at plain
    exact Node.newline_of_mem_prunedAll plain member
  | _, .datum _, _, _, member => absurd member List.not_mem_nil

theorem Node.newline_of_mem_prunedAll : {nodes : List Node} → Node.unmarkAll nodes = nodes →
    {other : Node} → other ∈ Node.prunedAll (fun _ => false) nodes → other.newline = false
  | [], _, _, member => absurd member List.not_mem_nil
  | node :: rest, plain, _, member => by
    rw [Node.unmarkAll, List.cons.injEq] at plain
    rw [Node.prunedAll_cons] at member
    obtain member | member := List.mem_append.1 member
    · exact Node.newline_of_mem_preorder plain.1 member
    · exact Node.newline_of_mem_prunedAll plain.2 member

end

mutual

/-- The nodes of a tree without marks are those of the tree, each without its mark. -/
theorem Node.preorder_unmark : (node : Node) →
    node.unmark.preorder = node.preorder.map Node.unmark
  | ⟨kind, id, location, flags, newline, fields⟩ => by
    rw [Node.unmark, Node.preorder, Node.preorder, Node.pruned_mk, Node.pruned_mk,
      if_neg Bool.false_ne_true, if_neg Bool.false_ne_true, List.map_cons, fields.pruned_unmark]
    rfl

theorem Fields.pruned_unmark : {layout : List Field} → (fields : Fields layout) →
    fields.unmark.pruned (fun _ => false) = (fields.pruned fun _ => false).map Node.unmark
  | _, .nil => rfl
  | _, .cons value rest => by
    rw [Fields.unmark, Fields.pruned_cons, Fields.pruned_cons, List.map_append,
      value.pruned_unmark, rest.pruned_unmark]

theorem Value.pruned_unmark : {kind : FieldKind} → (value : Value kind) →
    value.unmark.pruned (fun _ => false) = (value.pruned fun _ => false).map Node.unmark
  | _, .node child => child.preorder_unmark
  | _, .optNode none => rfl
  | _, .optNode (some child) => child.preorder_unmark
  | _, .nodes children => Node.prunedAll_unmarkAll children
  | _, .datum _ => rfl

theorem Node.prunedAll_unmarkAll : (nodes : List Node) →
    Node.prunedAll (fun _ => false) (Node.unmarkAll nodes) =
      (Node.prunedAll (fun _ => false) nodes).map Node.unmark
  | [] => rfl
  | node :: rest => by
    rw [Node.unmarkAll, Node.prunedAll_cons, Node.prunedAll_cons, List.map_append,
      Node.prunedAll_unmarkAll rest]
    exact congrArg (· ++ _) node.preorder_unmark

end

/-- The constants that stand in a field itself. -/
def Value.constants : {kind : FieldKind} → Value kind → List ConstantId
  | _, .datum content => content.references
  | _, _ => []

/-- The constants that stand in a list of fields. -/
def Fields.constants : {layout : List Field} → Fields layout → List ConstantId
  | _, .nil => []
  | _, .cons value rest => value.constants ++ rest.constants

/-- The constants that stand in the fields of a node, its children not counted. -/
def Node.constants (node : Node) : List ConstantId :=
  node.fields.constants

section

variable {id : ConstantId}

mutual

/-- A tree refers to the constants that stand in its nodes. -/
theorem Node.mem_references_iff : (node : Node) →
    (id ∈ node.references ↔ ∃ other ∈ node.preorder, id ∈ other.constants)
  | ⟨kind, nodeId, location, flags, newline, fields⟩ => by
    rw [Node.preorder, Node.pruned_mk, if_neg Bool.false_ne_true, Node.references,
      fields.mem_references_iff]
    simp only [List.mem_cons, exists_eq_or_imp]
    rfl

theorem Fields.mem_references_iff : {layout : List Field} → (fields : Fields layout) →
    (id ∈ fields.references ↔
      id ∈ fields.constants ∨ ∃ other ∈ fields.pruned fun _ => false, id ∈ other.constants)
  | _, .nil => by simp [Fields.references, Fields.constants]
  | _, .cons value rest => by
    simp only [Fields.references, Fields.constants, Fields.pruned_cons, List.mem_append,
      value.mem_references_iff, rest.mem_references_iff, or_and_right, exists_or]
    exact or_or_or_comm

theorem Value.mem_references_iff : {kind : FieldKind} → (value : Value kind) →
    (id ∈ value.references ↔
      id ∈ value.constants ∨ ∃ other ∈ value.pruned fun _ => false, id ∈ other.constants)
  | _, .node child => by
    simp only [Value.references, Value.constants, List.not_mem_nil, false_or]
    exact child.mem_references_iff
  | _, .optNode none => by simp [Value.references, Value.constants]
  | _, .optNode (some child) => by
    simp only [Value.references, Value.constants, List.not_mem_nil, false_or]
    exact child.mem_references_iff
  | _, .nodes children => by
    simp only [Value.references, Value.constants, List.not_mem_nil, false_or]
    exact Node.mem_referencesAll_iff children
  | _, .datum content => by simp [Value.references, Value.constants]

theorem Node.mem_referencesAll_iff : (nodes : List Node) →
    (id ∈ Node.referencesAll nodes ↔
      ∃ other ∈ Node.prunedAll (fun _ => false) nodes, id ∈ other.constants)
  | [] => by simp [Node.referencesAll]
  | node :: rest => by
    simp only [Node.referencesAll, Node.prunedAll_cons, List.mem_append,
      Node.mem_referencesAll_iff rest, or_and_right, exists_or]
    exact or_congr_left node.mem_references_iff

end

end

end PrismTree
