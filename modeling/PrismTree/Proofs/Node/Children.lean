import PrismTree.Proofs.Node.Preorder

/-!
# A tree by its children

A visit is defined by recursion on fields. Seen from outside it is a walk over the direct children
of a node, in field order, and so are the lists of nodes that it finds. The height of a tree
decreases from a node to its children, so a tree can be taken apart node by node without looking at
its fields.
-/
namespace PrismTree

theorem Node.height_le_heightAll {nodes : List Node} {node : Node} (member : node ∈ nodes) :
    node.height ≤ Node.heightAll nodes := by
  induction nodes with
  | nil => exact absurd member List.not_mem_nil
  | cons first rest ih =>
    rw [Node.heightAll]
    obtain rfl | member := List.mem_cons.1 member
    · omega
    · have below := ih member
      omega

theorem Value.height_le_of_mem_children {kind : FieldKind} {value : Value kind} {child : Node}
    (member : child ∈ value.children) : child.height ≤ value.height := by
  cases value with
  | node only =>
    obtain rfl := List.mem_singleton.1 member
    exact Nat.le_refl _
  | optNode optional =>
    obtain _ | only := optional
    · exact absurd member List.not_mem_nil
    · obtain rfl := List.mem_singleton.1 member
      exact Nat.le_refl _
  | nodes children => exact Node.height_le_heightAll member
  | datum content => exact absurd member List.not_mem_nil

theorem Fields.height_le_of_mem_children : {layout : List Field} → {fields : Fields layout} →
    {child : Node} → child ∈ fields.children → child.height ≤ fields.height
  | _, .nil, _, member => absurd member List.not_mem_nil
  | _, .cons value rest, child, member => by
    rw [Fields.height]
    obtain member | member := List.mem_append.1 member
    · have below := Value.height_le_of_mem_children member
      omega
    · have below := Fields.height_le_of_mem_children member
      omega

/-- A child is less deeply nested than its parent. -/
theorem Node.height_lt_of_mem_children {node child : Node} (member : child ∈ node.children) :
    child.height < node.height := by
  have below := Fields.height_le_of_mem_children member
  cases node
  exact Nat.lt_succ_of_le below

/-- What holds of a node as soon as it holds of its children holds of every node. -/
theorem Node.children_induction {motive : Node → Prop}
    (step : ∀ node : Node, (∀ child ∈ node.children, motive child) → motive node) (node : Node) :
    motive node := by
  induction height : node.height using Nat.strongRecOn generalizing node with
  | ind n ih =>
    apply step
    intro child member
    have lower := Node.height_lt_of_mem_children member
    exact ih child.height (height ▸ lower) child rfl

section

variable {σ : Type} (prune : Node → Bool) (step : σ → Node → σ)

theorem Node.visitAll_eq (state : σ) (nodes : List Node) :
    Node.visitAll prune step state nodes =
      nodes.foldl (fun state node => node.visit prune step state) state := by
  induction nodes generalizing state with
  | nil => rfl
  | cons node rest ih => rw [Node.visitAll, ih, List.foldl_cons]

theorem Value.visit_eq {kind : FieldKind} (state : σ) (value : Value kind) :
    value.visit prune step state =
      value.children.foldl (fun state node => node.visit prune step state) state := by
  cases value with
  | node child => rfl
  | optNode child => cases child <;> rfl
  | nodes children => exact Node.visitAll_eq prune step state children
  | datum content => rfl

theorem Fields.visit_eq : {layout : List Field} → (state : σ) → (fields : Fields layout) →
    fields.visit prune step state =
      fields.children.foldl (fun state node => node.visit prune step state) state
  | _, _, .nil => rfl
  | _, state, .cons value rest => by
    rw [Fields.visit, Fields.children, List.foldl_append, rest.visit_eq, value.visit_eq]

/-- A visit takes its step at the node and then, unless it prunes there, goes over the children in
field order. -/
theorem Node.visit_eq (state : σ) (node : Node) :
    node.visit prune step state =
      if prune node then step state node
      else node.children.foldl (fun state child => child.visit prune step state)
        (step state node) := by
  cases node
  rw [Node.visit, Fields.visit_eq]
  rfl

end

section

variable (prune : Node → Bool)

theorem Node.toList_foldl_visit (found : Array Node) (nodes : List Node) :
    (nodes.foldl (fun found node => node.visit prune Array.push found) found).toList =
      found.toList ++ nodes.flatMap (Node.pruned prune) := by
  induction nodes generalizing found with
  | nil => simp
  | cons node rest ih =>
    have here : node.visit prune Array.push found = found ++ (node.pruned prune).toArray := by
      rw [Node.visit_eq_foldl, List.foldl_push_eq_append']
    rw [List.foldl_cons, ih, here, Array.toList_append, List.append_assoc, List.flatMap_cons]

/-- What a visit finds is the node and then, unless it prunes there, what it finds in the
children. -/
theorem Node.pruned_eq (node : Node) :
    node.pruned prune =
      node :: if prune node then [] else node.children.flatMap (Node.pruned prune) := by
  rw [Node.pruned, Node.visit_eq]
  by_cases prunes : prune node = true
  · rw [if_pos prunes, if_pos prunes]
    rfl
  · rw [if_neg prunes, if_neg prunes, Node.toList_foldl_visit]
    rfl

end

theorem Node.preorder_eq (node : Node) :
    node.preorder = node :: node.children.flatMap Node.preorder := by
  rw [Node.preorder, Node.pruned_eq, if_neg Bool.false_ne_true]
  rfl

/-- The count of a tree is the number of its nodes in pre-order. -/
theorem Node.count_eq (node : Node) : node.count = node.preorder.length := by
  have counts : ∀ (nodes : List Node) (start : Nat),
      nodes.foldl (fun count _ => count + 1) start = start + nodes.length := by
    intro nodes
    induction nodes with
    | nil => simp
    | cons first rest ih =>
      intro start
      rw [List.foldl_cons, ih, List.length_cons]
      omega
  rw [Node.count, Node.visit_eq_foldl, ← Node.preorder, counts, Nat.zero_add]

end PrismTree
