import PrismTree.Newline
import PrismTree.Proofs.Node.Preorder

/-!
# Occurrences

What decides on the newline mark of a node is where it stands: whether a list of statements holds
it, and in which scope. The occurrences of a tree list its nodes in pre-order with these two facts.
A scope is known by the position, in pre-order, of the block or lambda that opens it.
-/
namespace PrismTree

/-- A node at its place in a tree. -/
structure Occurrence where
  node : Node
  /-- The position of the nearest block or lambda above the node, if there is one. -/
  scope : Option Nat
  /-- Is the node a direct element of a list of statements? -/
  isListed : Bool

mutual

/-- The occurrences in a tree whose root stands at a position. -/
def Node.occurrences (scope : Option Nat) (isListed : Bool) (position : Nat) :
    Node → List Occurrence
  | ⟨kind, id, location, flags, newline, fields⟩ =>
    ⟨⟨kind, id, location, flags, newline, fields⟩, scope, isListed⟩ ::
      fields.occurrences (if kind.isClosure then some position else scope)
        (kind == .statementsNode) (position + 1)

/-- The occurrences in a list of fields. -/
def Fields.occurrences (scope : Option Nat) (isListed : Bool) (position : Nat) :
    {layout : List Field} → Fields layout → List Occurrence
  | _, .nil => []
  | _, .cons value rest =>
    let first := value.occurrences scope isListed position
    first ++ rest.occurrences scope isListed (position + first.length)

/-- The occurrences in a field. -/
def Value.occurrences (scope : Option Nat) (isListed : Bool) (position : Nat) :
    {kind : FieldKind} → Value kind → List Occurrence
  | _, .node child => child.occurrences scope isListed position
  | _, .optNode none => []
  | _, .optNode (some child) => child.occurrences scope isListed position
  | _, .nodes children => Node.occurrencesAll scope isListed position children
  | _, .datum _ => []

/-- The occurrences in a list of trees. -/
def Node.occurrencesAll (scope : Option Nat) (isListed : Bool) (position : Nat) :
    List Node → List Occurrence
  | [] => []
  | node :: rest =>
    let first := node.occurrences scope isListed position
    first ++ Node.occurrencesAll scope isListed (position + first.length) rest

end

mutual

/-- The occurrences list the nodes of the tree in pre-order. -/
theorem Node.map_node_occurrences (scope : Option Nat) (isListed : Bool) (position : Nat) :
    (node : Node) → (node.occurrences scope isListed position).map (·.node) = node.preorder
  | ⟨kind, id, location, flags, newline, fields⟩ => by
    rw [Node.occurrences, Node.preorder, Node.pruned_mk, if_neg Bool.false_ne_true, List.map_cons,
      fields.map_node_occurrences]

theorem Fields.map_node_occurrences (scope : Option Nat) (isListed : Bool) (position : Nat) :
    {layout : List Field} → (fields : Fields layout) →
    (fields.occurrences scope isListed position).map (·.node) = fields.pruned fun _ => false
  | _, .nil => rfl
  | _, .cons value rest => by
    rw [Fields.occurrences, Fields.pruned_cons, List.map_append, value.map_node_occurrences,
      rest.map_node_occurrences]

theorem Value.map_node_occurrences (scope : Option Nat) (isListed : Bool) (position : Nat) :
    {kind : FieldKind} → (value : Value kind) →
    (value.occurrences scope isListed position).map (·.node) = value.pruned fun _ => false
  | _, .node child => child.map_node_occurrences scope isListed position
  | _, .optNode none => rfl
  | _, .optNode (some child) => child.map_node_occurrences scope isListed position
  | _, .nodes children => Node.map_node_occurrencesAll scope isListed position children
  | _, .datum _ => rfl

theorem Node.map_node_occurrencesAll (scope : Option Nat) (isListed : Bool) (position : Nat) :
    (nodes : List Node) → (Node.occurrencesAll scope isListed position nodes).map (·.node) =
      Node.prunedAll (fun _ => false) nodes
  | [] => rfl
  | node :: rest => by
    rw [Node.occurrencesAll, Node.prunedAll_cons, List.map_append, node.map_node_occurrences,
      Node.map_node_occurrencesAll _ _ _ rest]
    rfl

end

/-- A scope is the whole tree or was opened before a position. -/
def IsBefore (scope : Option Nat) (position : Nat) : Prop :=
  ∀ opened ∈ scope, opened < position

theorem isBefore_none (position : Nat) : IsBefore none position := by
  simp [IsBefore]

theorem isBefore_some {opened position : Nat} :
    IsBefore (some opened) position ↔ opened < position := by
  simp [IsBefore]

theorem IsBefore.mono {scope : Option Nat} {position position' : Nat}
    (before : IsBefore scope position) (le : position ≤ position') : IsBefore scope position' :=
  fun opened here => Nat.lt_of_lt_of_le (before opened here) le

theorem IsBefore.ne_some {scope : Option Nat} {position : Nat} (before : IsBefore scope position) :
    scope ≠ some position := by
  rintro rfl
  exact Nat.lt_irrefl position (isBefore_some.1 before)

/-- A scope that was opened at or after a position. -/
def IsOpenedFrom (scope : Option Nat) (position : Nat) : Prop :=
  ∃ opened, scope = some opened ∧ position ≤ opened

theorem IsOpenedFrom.mono {scope : Option Nat} {position position' : Nat}
    (later : IsOpenedFrom scope position') (le : position ≤ position') :
    IsOpenedFrom scope position := by
  obtain ⟨opened, rfl, after⟩ := later
  exact ⟨opened, rfl, Nat.le_trans le after⟩

theorem IsOpenedFrom.ne {scope outer : Option Nat} {position : Nat}
    (opened : IsOpenedFrom scope position) (before : IsBefore outer position) : scope ≠ outer := by
  obtain ⟨place, rfl, later⟩ := opened
  rintro rfl
  exact absurd (isBefore_some.1 before) (Nat.not_lt.2 later)

mutual

/-- The scopes inside a tree are the one around it and those that it opens itself. -/
theorem Node.scope_of_mem_occurrences {scope : Option Nat} {isListed : Bool} {position : Nat} :
    (node : Node) → {occurrence : Occurrence} →
    occurrence ∈ node.occurrences scope isListed position →
    occurrence.scope = scope ∨ IsOpenedFrom occurrence.scope position
  | ⟨kind, id, location, flags, newline, fields⟩, occurrence, member => by
    rw [Node.occurrences] at member
    obtain rfl | below := List.mem_cons.1 member
    · exact Or.inl rfl
    · obtain same | opened := fields.scope_of_mem_occurrences below
      · split at same
        · exact Or.inr ⟨position, same, Nat.le_refl _⟩
        · exact Or.inl same
      · exact Or.inr (opened.mono (Nat.le_succ _))

theorem Fields.scope_of_mem_occurrences {scope : Option Nat} {isListed : Bool} {position : Nat} :
    {layout : List Field} → (fields : Fields layout) → {occurrence : Occurrence} →
    occurrence ∈ fields.occurrences scope isListed position →
    occurrence.scope = scope ∨ IsOpenedFrom occurrence.scope position
  | _, .nil, _, member => absurd member List.not_mem_nil
  | _, .cons value rest, _, member => by
    rw [Fields.occurrences] at member
    obtain first | others := List.mem_append.1 member
    · exact value.scope_of_mem_occurrences first
    · exact (rest.scope_of_mem_occurrences others).imp_right (·.mono (Nat.le_add_right _ _))

theorem Value.scope_of_mem_occurrences {scope : Option Nat} {isListed : Bool} {position : Nat} :
    {kind : FieldKind} → (value : Value kind) → {occurrence : Occurrence} →
    occurrence ∈ value.occurrences scope isListed position →
    occurrence.scope = scope ∨ IsOpenedFrom occurrence.scope position
  | _, .node child, _, member => child.scope_of_mem_occurrences member
  | _, .optNode none, _, member => absurd member List.not_mem_nil
  | _, .optNode (some child), _, member => child.scope_of_mem_occurrences member
  | _, .nodes children, _, member => Node.scope_of_mem_occurrencesAll children member
  | _, .datum _, _, member => absurd member List.not_mem_nil

theorem Node.scope_of_mem_occurrencesAll {scope : Option Nat} {isListed : Bool} {position : Nat} :
    (nodes : List Node) → {occurrence : Occurrence} →
    occurrence ∈ Node.occurrencesAll scope isListed position nodes →
    occurrence.scope = scope ∨ IsOpenedFrom occurrence.scope position
  | [], _, member => absurd member List.not_mem_nil
  | node :: rest, _, member => by
    rw [Node.occurrencesAll] at member
    obtain first | others := List.mem_append.1 member
    · exact node.scope_of_mem_occurrences first
    · exact (Node.scope_of_mem_occurrencesAll rest others).imp_right
        (·.mono (Nat.le_add_right _ _))

end

end PrismTree
