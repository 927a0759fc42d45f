import Mathlib.Data.List.FinRange
import PrismTree.Proofs.Node.Children

/-!
# Visits by path

The same node can stand at several places of a tree, so what a visit finds is described by places.
A place is the path that leads to it from the root. The paths of a tree in pre-order are its paths
in lexicographic order, and a visit that prunes finds the nodes at the exposed ones: those with no
node strictly above them at which the visit prunes.
-/
namespace PrismTree

namespace Node

/-- The paths that lead to the nodes of a tree, in pre-order. -/
def paths (node : Node) : List (List Nat) :=
  [] :: (List.finRange node.children.length).flatMap fun index =>
    node.children[index].paths.map (index.val :: ·)
termination_by node.height
decreasing_by exact height_lt_of_mem_children (List.getElem_mem _)

/-- Does no node strictly above the end of a path satisfy the predicate? -/
def isExposed (prune : Node → Bool) (root : Node) (path : List Nat) : Bool :=
  (List.range path.length).all fun depth =>
    (root.descend? (path.take depth)).all fun above => !prune above

theorem descend?_cons (node : Node) (index : Nat) (path : List Nat) :
    node.descend? (index :: path) = node.children[index]?.bind fun child => child.descend? path :=
  rfl

theorem descend?_cons_of_lt {node : Node} {index : Nat} (inside : index < node.children.length)
    (path : List Nat) : node.descend? (index :: path) = node.children[index].descend? path := by
  rw [descend?_cons, List.getElem?_eq_getElem inside, Option.bind_some]

theorem nil_mem_paths (node : Node) : [] ∈ node.paths := by
  rw [paths]
  exact List.mem_cons_self

theorem cons_mem_paths {node : Node} {index : Nat} {path : List Nat} :
    index :: path ∈ node.paths ↔
      ∃ inside : index < node.children.length, path ∈ node.children[index].paths := by
  rw [paths]
  simp only [List.mem_cons, List.mem_flatMap, List.mem_map, List.mem_finRange, true_and,
    reduceCtorEq, false_or, List.cons.injEq]
  constructor
  · rintro ⟨child, rest, member, rfl, rfl⟩
    exact ⟨child.isLt, member⟩
  · rintro ⟨inside, member⟩
    exact ⟨⟨index, inside⟩, path, member, rfl, rfl⟩

/-- The paths of a tree are those that lead to a node. -/
theorem mem_paths_iff {node : Node} {path : List Nat} :
    path ∈ node.paths ↔ (node.descend? path).isSome := by
  induction path generalizing node with
  | nil => exact iff_of_true (nil_mem_paths node) rfl
  | cons index path ih =>
    rw [cons_mem_paths]
    by_cases inside : index < node.children.length
    · rw [descend?_cons_of_lt inside, ← ih]
      exact exists_prop_of_true inside
    · simp [descend?_cons, inside]

/-- The paths of a tree stand in lexicographic order: a node before those below it, and what is
below a child before what is below a later one. -/
theorem pairwise_paths (node : Node) : node.paths.Pairwise (· < ·) := by
  induction node using Node.children_induction with
  | step node ih =>
    rw [paths, List.pairwise_cons]
    constructor
    · intro path member
      obtain ⟨index, -, member⟩ := List.mem_flatMap.1 member
      obtain ⟨rest, -, rfl⟩ := List.mem_map.1 member
      exact List.nil_lt_cons _ _
    · rw [List.pairwise_flatMap]
      constructor
      · intro index _
        rw [List.pairwise_map]
        refine (ih _ (List.getElem_mem index.isLt)).imp fun less => ?_
        exact List.cons_lt_cons_iff.2 (.inr ⟨rfl, less⟩)
      · refine (List.pairwise_lt_finRange _).imp fun {index later} less => ?_
        intro path member path' member'
        obtain ⟨rest, -, rfl⟩ := List.mem_map.1 member
        obtain ⟨rest', -, rfl⟩ := List.mem_map.1 member'
        exact List.cons_lt_cons_iff.2 (.inl less)

section

variable (prune : Node → Bool)

theorem isExposed_nil (node : Node) : node.isExposed prune [] = true :=
  rfl

theorem isExposed_cons {node : Node} {index : Nat} (inside : index < node.children.length)
    (path : List Nat) :
    node.isExposed prune (index :: path) =
      (!prune node && node.children[index].isExposed prune path) := by
  have step : ∀ depth, node.descend? ((index :: path).take (depth + 1)) =
      node.children[index].descend? (path.take depth) := by
    intro depth
    rw [List.take_succ_cons, descend?_cons_of_lt inside]
  rw [isExposed, List.length_cons, List.range_succ_eq_map, List.all_cons, List.all_map]
  simp only [Function.comp_def, Nat.succ_eq_add_one, step]
  rfl

theorem flatMap_children {α : Type} (node : Node) (list : Node → List α) :
    node.children.flatMap list =
      (List.finRange node.children.length).flatMap fun index => list node.children[index] := by
  have children : node.children =
      (List.finRange node.children.length).map fun index => node.children[index] := by
    rw [← List.ofFn_eq_map]
    exact List.ofFn_getElem.symm
  exact (congrArg (List.flatMap list) children).trans (List.flatMap_map _ _ _)

/-- A visit finds the nodes at the exposed paths, in the order of the paths. -/
theorem map_pruned (root : Node) :
    (root.pruned prune).map some =
      (root.paths.filter (root.isExposed prune)).map root.descend? := by
  induction root using Node.children_induction with
  | step node ih =>
    rw [pruned_eq, paths, List.filter_cons_of_pos (isExposed_nil prune node), List.map_cons,
      List.map_cons]
    congr 1
    by_cases prunes : prune node = true
    · -- Every path below the node is hidden by the node itself.
      rw [if_pos prunes, List.map_nil, List.filter_eq_nil_iff.2, List.map_nil]
      intro path member
      obtain ⟨index, -, member⟩ := List.mem_flatMap.1 member
      obtain ⟨rest, -, rfl⟩ := List.mem_map.1 member
      simp [isExposed_cons prune index.isLt, prunes]
    · rw [if_neg prunes, flatMap_children, List.map_flatMap, List.filter_flatMap, List.map_flatMap]
      refine List.flatMap_congr fun index _ => ?_
      have exposed : node.isExposed prune ∘ (index.val :: ·) =
          node.children[index].isExposed prune := by
        funext path
        simp [isExposed_cons prune index.isLt, prunes]
      have descend : node.descend? ∘ (index.val :: ·) = node.children[index].descend? :=
        funext (descend?_cons_of_lt index.isLt)
      rw [List.filter_map, List.map_map, exposed, descend]
      exact ih _ (List.getElem_mem index.isLt)

end

theorem map_preorder (root : Node) : root.preorder.map some = root.paths.map root.descend? := by
  have all : root.paths.filter (root.isExposed fun _ => false) = root.paths := by
    rw [List.filter_eq_self]
    intro path _
    simp [isExposed]
  rw [preorder, map_pruned, all]

/-- The nodes of a tree are the nodes at the ends of its paths. -/
theorem mem_preorder_iff {root node : Node} :
    node ∈ root.preorder ↔ ∃ path, root.descend? path = some node := by
  have listed : node ∈ root.preorder ↔ some node ∈ root.preorder.map some := by simp
  rw [listed, map_preorder, List.mem_map]
  constructor
  · rintro ⟨path, -, descends⟩
    exact ⟨path, descends⟩
  · rintro ⟨path, descends⟩
    exact ⟨path, mem_paths_iff.2 (by simp [descends]), descends⟩

section

variable {prune prune' : Node → Bool} {root : Node}

/-- A path that is exposed stays so if the visit prunes at fewer nodes of the tree. -/
theorem isExposed_mono (fewer : ∀ node ∈ root.preorder, prune' node → prune node)
    {path : List Nat} (exposed : root.isExposed prune path) : root.isExposed prune' path := by
  unfold isExposed at exposed ⊢
  rw [List.all_eq_true] at exposed ⊢
  intro depth inside
  have kept := exposed depth inside
  cases descends : root.descend? (path.take depth) with
  | none => rfl
  | some above =>
    have spared := fewer above (mem_preorder_iff.2 ⟨_, descends⟩)
    simp only [descends, Option.all_some, Bool.not_eq_true', Bool.eq_false_iff] at kept ⊢
    exact fun prunes => kept (spared prunes)

/-- A visit that prunes at fewer nodes of the tree loses no node and keeps the order. -/
theorem pruned_sublist_pruned (fewer : ∀ node ∈ root.preorder, prune' node → prune node) :
    (root.pruned prune).Sublist (root.pruned prune') := by
  have paths : (root.paths.filter (root.isExposed prune)).Sublist
      (root.paths.filter (root.isExposed prune')) :=
    List.monotone_filter_right _ fun _ exposed => isExposed_mono fewer exposed
  have found := paths.map root.descend?
  rw [← map_pruned, ← map_pruned] at found
  simpa using found.filterMap fun node => node

end

/-- A visit finds the nodes at the exposed paths of the tree, each once and in pre-order. Pruning at
fewer nodes loses none of them, and a visit that never prunes finds as many as the tree counts. -/
theorem exposed_of_pruned (prune : Node → Bool) (root : Node) :
    (∀ found : Array Node, root.visit prune Array.push found =
      if prune root then found.push root
      else root.children.foldl (fun found child => child.visit prune Array.push found)
        (found.push root)) ∧
    (∀ path, path ∈ root.paths ↔ (root.descend? path).isSome) ∧
    root.paths.Pairwise (· < ·) ∧
    root.preorder.map some = root.paths.map root.descend? ∧
    (root.pruned prune).map some =
      (root.paths.filter (root.isExposed prune)).map root.descend? ∧
    (root.pruned prune).Sublist root.preorder ∧
    (∀ prune' : Node → Bool, (∀ node ∈ root.preorder, prune' node → prune node) →
      (root.pruned prune).Sublist (root.pruned prune')) ∧
    (root.pruned fun _ => false).length = root.count := by
  have steps := fun found => root.visit_eq prune Array.push found
  have within : (root.pruned prune).Sublist root.preorder :=
    pruned_sublist_pruned fun _ _ never => absurd never Bool.false_ne_true
  have counted : (root.pruned fun _ => false).length = root.count := root.count_eq.symm
  exact ⟨steps, fun _ => mem_paths_iff, root.pairwise_paths, root.map_preorder,
    root.map_pruned prune, within, fun _ fewer => pruned_sublist_pruned fewer, counted⟩

end Node

end PrismTree
