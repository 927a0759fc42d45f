import PrismTree.Node

/-!
# Traversal

A tree is visited in pre-order: a node comes before its children, and the children come in field
order. A visit may prune the tree, that is, visit a node without going on to its children.
-/
namespace PrismTree

variable {σ : Type}

mutual

/-- Fold a step over a node and everything below it in pre-order, without going below the nodes at
which the visit prunes. -/
def Node.visit (prune : Node → Bool) (step : σ → Node → σ) (state : σ) : Node → σ
  | ⟨kind, id, location, flags, newline, fields⟩ =>
    let node : Node := ⟨kind, id, location, flags, newline, fields⟩
    let state := step state node
    if prune node then state else fields.visit prune step state

/-- Fold a step over the nodes in a list of fields. -/
def Fields.visit (prune : Node → Bool) (step : σ → Node → σ) (state : σ) :
    {layout : List Field} → Fields layout → σ
  | _, .nil => state
  | _, .cons value rest => rest.visit prune step (value.visit prune step state)

/-- Fold a step over the nodes in a field. -/
def Value.visit (prune : Node → Bool) (step : σ → Node → σ) (state : σ) :
    {kind : FieldKind} → Value kind → σ
  | _, .node child => child.visit prune step state
  | _, .optNode none => state
  | _, .optNode (some child) => child.visit prune step state
  | _, .nodes children => Node.visitAll prune step state children
  | _, .datum _ => state

/-- Fold a step over a list of trees. -/
def Node.visitAll (prune : Node → Bool) (step : σ → Node → σ) (state : σ) : List Node → σ
  | [] => state
  | node :: rest => Node.visitAll prune step (node.visit prune step state) rest

end

namespace Node

/-- A node and the nodes below it in pre-order, without those below a node that satisfies the
predicate. -/
def pruned (prune : Node → Bool) (node : Node) : List Node :=
  (node.visit prune Array.push #[]).toList

/-- A node and all nodes below it, in pre-order. -/
def preorder (node : Node) : List Node :=
  node.pruned fun _ => false

/-- Number of nodes from a node on downward. -/
def count (node : Node) : Nat :=
  node.visit (fun _ => false) (fun count _ => count + 1) 0

/-- The ids of the nodes with a newline mark, in pre-order. -/
def newlineIds (node : Node) : List UInt32 :=
  (node.preorder.filter (·.newline)).map (·.id)

/-- The node that is reached by taking the child with the given index at each step. -/
def descend? (node : Node) : (path : List Nat) → Option Node
  | [] => some node
  | index :: path => do
    let child ← node.children[index]?
    child.descend? path

/-- Put another child in the place of the child with an index. -/
def replaceChild (node : Node) (index : Nat) (child : Node) : Node :=
  let place (old : Node) : StateM Nat Node := do
    let here ← get
    set (here + 1)
    return if here = index then child else old
  ((node.mapChildrenM place).run 0).1

/-- Put another node in the place of the node at the end of a path. -/
def replaceAt (node : Node) (new : Node) : (path : List Nat) → Node
  | [] => new
  | index :: path =>
    match node.children[index]? with
    | some child => node.replaceChild index (child.replaceAt new path)
    | none => node

end Node

end PrismTree
