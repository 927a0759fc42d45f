import Mathlib.Data.List.Forall2
import PrismTree.Proofs.Newline.Run
import PrismTree.Proofs.Source.Lines

/-!
# The table of a marking

Whatever a marking does to a tree, and whether it fails or not, the table of the current scope keeps
its size, a line that is taken stays taken, and the entry that belongs to no line is left alone:
this is so of one claim, and of trees by going through their fields. A block or lambda makes its
claims in a table of its own, so the table around it is what it was before. No newline mark is ever
taken away, and a second marking has nothing to add.
-/
namespace PrismTree

namespace LineTable

variable {first second third : LineTable}

/-- The second table is the first one with more lines taken. Slots count from one, so the entry in
front of them is not among those that change. -/
structure Grows (first second : LineTable) : Prop where
  size : second.size = first.size
  taken : ∀ slot : Nat, first[slot]? = some true → second[slot]? = some true
  front : second[0]? = first[0]?

theorem Grows.refl (table : LineTable) : table.Grows table :=
  ⟨rfl, fun _ taken => taken, rfl⟩

theorem Grows.trans (earlier : first.Grows second) (later : second.Grows third) :
    first.Grows third where
  size := later.size.trans earlier.size
  taken slot taken := later.taken slot (earlier.taken slot taken)
  front := later.front.trans earlier.front

theorem grows_take (table : LineTable) {slot : Nat} (positive : 0 < slot) :
    table.Grows (table.take slot) where
  size := Array.size_setIfInBounds
  taken other taken := by
    rw [take, Array.getElem?_setIfInBounds]
    split
    · next same =>
      obtain ⟨inside, -⟩ := Array.getElem?_eq_some_iff.1 taken
      rw [same, if_pos inside]
    · exact taken
  front := Array.getElem?_setIfInBounds_ne positive.ne'

theorem size_free (source : Source) : (free source).size = 1 + source.lineCount :=
  Array.size_replicate

end LineTable

theorem Source.lineSlot_pos {source : Source} {offset : UInt32} {slot : Nat}
    (found : source.lineSlot offset = .ok slot) : 0 < slot := by
  obtain ⟨index, -, rfl⟩ := lineSlot_eq_ok_iff.1 found
  exact Nat.succ_pos index

namespace Marking

variable {source : Source} {isStatement : Bool} {start : UInt32} {newline : Bool}

theorem grows_claim (marking : Marking) :
    marking.table.Grows (marking.claim source isStatement start newline).2.table := by
  unfold claim
  split
  · cases found : source.lineSlot start with
    | error error => exact .refl _
    | ok slot => exact LineTable.grows_take _ (Source.lineSlot_pos found)
  · exact .refl _

/-- The claim of a statement in a marking is the claim of a node in a table. -/
theorem claim_eq_claimLine (marking : Marking) (node : Node) :
    marking.claim source true node.location.start node.newline =
      match node.claimLine source marking.table with
      | .ok (node, table) => (node.newline, { marking with table := table })
      | .error error => (node.newline, { marking with failure := some error }) := by
  rw [claim, if_pos rfl, Node.claimLine]
  cases source.lineSlot node.location.start <;> rfl

/-- A claim takes no mark away. -/
theorem newline_claim (marking : Marking) (marked : newline = true) :
    (marking.claim source isStatement start newline).1 = true := by
  subst marked
  unfold claim
  split
  · cases source.lineSlot start with
    | error error => rfl
    | ok slot => rfl
  · rfl

/-- A claim that is made again, by a node that bears its mark already, ends as it did. -/
theorem claim_again (marking : Marking) :
    marking.claim source isStatement start (marking.claim source isStatement start newline).1 =
      marking.claim source isStatement start newline := by
  unfold claim
  split
  · cases source.lineSlot start with
    | error error => rfl
    | ok slot => simp only [Bool.or_assoc, Bool.or_self]
  · rfl

end Marking

mutual

/-- The table only grows, also if a lookup fails. -/
theorem Node.grows_mark (source : Source) (isListed : Bool) : (node : Node) →
    (marking : Marking) → marking.table.Grows (node.mark source isListed marking).2.table
  | ⟨kind, id, location, flags, newline, fields⟩, marking => by
    have claimed : marking.table.Grows (marking.claim source (isListed || kind.isConditional)
      location.start newline).2.table := marking.grows_claim
    rw [Node.mark_mk]
    split
    · exact .refl _
    · dsimp only
      split
      · -- What a closure claims in its own table is forgotten when it is left.
        split
        · exact claimed
        · exact claimed
      · exact claimed.trans (fields.grows_mark source _ _)

theorem Fields.grows_mark (source : Source) (isListed : Bool) : {layout : List Field} →
    (fields : Fields layout) → (marking : Marking) →
    marking.table.Grows (fields.mark source isListed marking).2.table
  | _, .nil, _ => .refl _
  | _, .cons value rest, marking => by
    rw [Fields.mark_cons]
    exact (value.grows_mark source isListed marking).trans (rest.grows_mark source isListed _)

theorem Value.grows_mark (source : Source) (isListed : Bool) : {kind : FieldKind} →
    (value : Value kind) → (marking : Marking) →
    marking.table.Grows (value.mark source isListed marking).2.table
  | _, .node child, marking => child.grows_mark source isListed marking
  | _, .optNode none, _ => .refl _
  | _, .optNode (some child), marking => child.grows_mark source isListed marking
  | _, .nodes children, marking => Node.grows_markAll source isListed children marking
  | _, .datum _, _ => .refl _

theorem Node.grows_markAll (source : Source) (isListed : Bool) : (nodes : List Node) →
    (marking : Marking) →
    marking.table.Grows (Node.markAll source isListed nodes marking).2.table
  | [], _ => .refl _
  | node :: rest, marking =>
    (node.grows_mark source isListed marking).trans (Node.grows_markAll source isListed rest _)

end

/-- A closure is neither a conditional nor a list of statements. -/
theorem Kind.eq_false_of_isClosure {kind : Kind} (closure : kind.isClosure = true) :
    kind.isConditional = false ∧ (kind == .statementsNode) = false := by
  simp only [isClosure, Bool.or_eq_true, beq_iff_eq] at closure
  obtain rfl | rfl := closure
  · exact ⟨rfl, rfl⟩
  · exact ⟨rfl, rfl⟩

/-- A closure makes no claim of its own. -/
theorem Marking.claim_of_isClosure {source : Source} {kind : Kind} {start : UInt32}
    {newline : Bool} {marking : Marking} (closure : kind.isClosure = true) :
    marking.claim source kind.isConditional start newline = (newline, marking) := by
  rw [(Kind.eq_false_of_isClosure closure).1]
  rfl

/-- A closure that no list holds leaves the table as it was, also if a lookup fails inside it. -/
theorem Node.table_mark_of_isClosure {source : Source} {node : Node} {marking : Marking}
    (closure : node.kind.isClosure = true) :
    (node.mark source false marking).2.table = marking.table := by
  obtain ⟨kind, id, location, flags, newline, fields⟩ := node
  rw [Node.mark_mk, Bool.false_or, Marking.claim_of_isClosure closure]
  dsimp only
  rw [if_pos closure]
  split
  · rfl
  · rfl

/-- The nodes of the second list bear the marks of those of the first one, and perhaps more. -/
def KeepsMarks (nodes nodes' : List Node) : Prop :=
  List.Forall₂ (fun node node' => node.newline = true → node'.newline = true) nodes nodes'

theorem KeepsMarks.refl (nodes : List Node) : KeepsMarks nodes nodes :=
  List.forall₂_same.2 fun _ _ marked => marked

theorem KeepsMarks.cons {node node' : Node} {nodes nodes' : List Node}
    (first : node.newline = true → node'.newline = true) (others : KeepsMarks nodes nodes') :
    KeepsMarks (node :: nodes) (node' :: nodes') :=
  List.Forall₂.cons first others

theorem KeepsMarks.append {first first' others others' : List Node}
    (keeps : KeepsMarks first first') (keeps' : KeepsMarks others others') :
    KeepsMarks (first ++ others) (first' ++ others') :=
  List.rel_append keeps keeps'

mutual

/-- No mark of a tree is taken away, also if a lookup fails. -/
theorem Node.keepsMarks_mark (source : Source) (isListed : Bool) : (node : Node) →
    (marking : Marking) →
    KeepsMarks node.preorder (node.mark source isListed marking).1.preorder
  | ⟨kind, id, location, flags, newline, fields⟩, marking => by
    have claimed : newline = true → (marking.claim source (isListed || kind.isConditional)
      location.start newline).1 = true := marking.newline_claim
    rw [Node.mark_mk]
    split
    · exact .refl _
    · dsimp only
      split
      · split
        · simp only [Node.preorder, Node.pruned_mk, Bool.false_eq_true, if_false]
          exact .cons claimed (.refl _)
        · simp only [Node.preorder, Node.pruned_mk, Bool.false_eq_true, if_false]
          exact .cons claimed (fields.keepsMarks_mark source _ _)
      · simp only [Node.preorder, Node.pruned_mk, Bool.false_eq_true, if_false]
        exact .cons claimed (fields.keepsMarks_mark source _ _)

theorem Fields.keepsMarks_mark (source : Source) (isListed : Bool) : {layout : List Field} →
    (fields : Fields layout) → (marking : Marking) →
    KeepsMarks (fields.pruned fun _ => false)
      ((fields.mark source isListed marking).1.pruned fun _ => false)
  | _, .nil, _ => .refl _
  | _, .cons value rest, marking => by
    rw [Fields.mark_cons, Fields.pruned_cons, Fields.pruned_cons]
    exact (value.keepsMarks_mark source isListed marking).append
      (rest.keepsMarks_mark source isListed _)

theorem Value.keepsMarks_mark (source : Source) (isListed : Bool) : {kind : FieldKind} →
    (value : Value kind) → (marking : Marking) →
    KeepsMarks (value.pruned fun _ => false)
      ((value.mark source isListed marking).1.pruned fun _ => false)
  | _, .node child, marking => child.keepsMarks_mark source isListed marking
  | _, .optNode none, _ => .refl _
  | _, .optNode (some child), marking => child.keepsMarks_mark source isListed marking
  | _, .nodes children, marking => Node.keepsMarks_markAll source isListed children marking
  | _, .datum _, _ => .refl _

theorem Node.keepsMarks_markAll (source : Source) (isListed : Bool) : (nodes : List Node) →
    (marking : Marking) →
    KeepsMarks (Node.prunedAll (fun _ => false) nodes)
      (Node.prunedAll (fun _ => false) (Node.markAll source isListed nodes marking).1)
  | [], _ => .refl _
  | node :: rest, marking => by
    rw [Node.markAll]
    dsimp only
    rw [Node.prunedAll_cons, Node.prunedAll_cons]
    exact (node.keepsMarks_mark source isListed marking).append
      (Node.keepsMarks_markAll source isListed rest _)

end

mutual

/-- A tree that was marked from a state is marked from it again without a change. -/
theorem Node.mark_mark (source : Source) (isListed : Bool) : (node : Node) →
    (marking : Marking) →
    (node.mark source isListed marking).1.mark source isListed marking =
      node.mark source isListed marking
  | ⟨kind, id, location, flags, newline, fields⟩, marking => by
    have again : marking.claim source (isListed || kind.isConditional) location.start
        (marking.claim source (isListed || kind.isConditional) location.start newline).1 =
      marking.claim source (isListed || kind.isConditional) location.start newline :=
      marking.claim_again
    rw [Node.mark_mk]
    split
    · next failed => rw [Node.mark_mk, if_pos failed]
    · next going =>
      dsimp only
      split
      · next closure =>
        split
        · next failed => rw [Node.mark_mk, if_neg going, again, if_pos closure, if_pos failed]
        · next entered =>
          rw [Node.mark_mk, if_neg going, again, if_pos closure, if_neg entered]
          dsimp only
          rw [fields.mark_mark source _ _]
      · next plain =>
        rw [Node.mark_mk, if_neg going, again, if_neg plain]
        dsimp only
        rw [fields.mark_mark source _ _]

theorem Fields.mark_mark (source : Source) (isListed : Bool) : {layout : List Field} →
    (fields : Fields layout) → (marking : Marking) →
    (fields.mark source isListed marking).1.mark source isListed marking =
      fields.mark source isListed marking
  | _, .nil, _ => rfl
  | _, .cons value rest, marking => by
    simp only [Fields.mark_cons, value.mark_mark source isListed marking,
      rest.mark_mark source isListed _]

theorem Value.mark_mark (source : Source) (isListed : Bool) : {kind : FieldKind} →
    (value : Value kind) → (marking : Marking) →
    (value.mark source isListed marking).1.mark source isListed marking =
      value.mark source isListed marking
  | _, .node child, marking => by
    simp only [Value.mark, child.mark_mark source isListed marking]
  | _, .optNode none, _ => rfl
  | _, .optNode (some child), marking => by
    simp only [Value.mark, child.mark_mark source isListed marking]
  | _, .nodes children, marking => by
    simp only [Value.mark, Node.markAll_markAll source isListed children marking]
  | _, .datum _, _ => rfl

theorem Node.markAll_markAll (source : Source) (isListed : Bool) : (nodes : List Node) →
    (marking : Marking) →
    Node.markAll source isListed (Node.markAll source isListed nodes marking).1 marking =
      Node.markAll source isListed nodes marking
  | [], _ => rfl
  | node :: rest, marking => by
    simp only [Node.markAll, node.mark_mark source isListed marking,
      Node.markAll_markAll source isListed rest _]

end

/-- A tree that was marked stays as it is when it is marked again, and the same lookup fails, if
any. -/
theorem Node.markNewlines_markNewlines (source : Source) (root : Node) (trace trace' : Trace) :
    let marked := root.markNewlines source trace
    (marked.1.markNewlines source trace').1 = marked.1 ∧
      (marked.1.markNewlines source trace').2.failure = marked.2.failure := by
  intro marked
  have start : Marking.Same ⟨LineTable.free source, trace', none⟩
      ⟨LineTable.free source, trace, none⟩ := ⟨rfl, rfl⟩
  obtain ⟨tree, ends⟩ := marked.1.mark_same source false start
  have again : marked.1.mark source false ⟨LineTable.free source, trace, none⟩ = marked :=
    root.mark_mark source false _
  rw [again] at tree ends
  exact ⟨tree, ends.failure⟩

end PrismTree
