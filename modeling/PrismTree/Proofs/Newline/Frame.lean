import PrismTree.Newline
import PrismTree.Proofs.Node.Shape

/-!
# What a marking leaves alone

A marking changes the newline marks of a tree and nothing else of it, changes nothing at all once a
lookup has failed, and takes no notice of the events so far.
-/
namespace PrismTree

section Equations

variable {source : Source} {isListed : Bool} {marking : Marking}

theorem Node.mark_mk {kind : Kind} {id : UInt32} {location : Location} {flags : NodeFlags}
    {newline : Bool} {fields : Fields kind.layout} :
    Node.mark source isListed ⟨kind, id, location, flags, newline, fields⟩ marking =
      if marking.failed then (⟨kind, id, location, flags, newline, fields⟩, marking)
      else
        let claimed := marking.claim source (isListed || kind.isConditional) location.start newline
        if kind.isClosure then
          if claimed.2.failed then (⟨kind, id, location, flags, claimed.1, fields⟩, claimed.2)
          else
            let inner := fields.mark source (kind == .statementsNode) (claimed.2.enter source id)
            (⟨kind, id, location, flags, claimed.1, inner.1⟩, inner.2.leave claimed.2.table id)
        else
          let inner := fields.mark source (kind == .statementsNode) claimed.2
          (⟨kind, id, location, flags, claimed.1, inner.1⟩, inner.2) := by
  rw [Node.mark]

theorem Fields.mark_cons {field : Field} {layout : List Field} {value : Value field.kind}
    {rest : Fields layout} :
    Fields.mark source isListed (.cons value rest) marking =
      let first := value.mark source isListed marking
      let others := rest.mark source isListed first.2
      (.cons first.1 others.1, others.2) := by
  rw [Fields.mark]

end Equations

mutual

/-- A marking does not change what is left of a tree without its marks. -/
theorem Node.unmark_mark (source : Source) (isListed : Bool) : (node : Node) →
    (marking : Marking) → (node.mark source isListed marking).1.unmark = node.unmark
  | ⟨kind, id, location, flags, newline, fields⟩, marking => by
    rw [Node.mark_mk]
    split
    · rfl
    · dsimp only
      split
      · split
        · simp only [Node.unmark]
        · simp only [Node.unmark, Fields.unmark_mark]
      · simp only [Node.unmark, Fields.unmark_mark]

theorem Fields.unmark_mark (source : Source) (isListed : Bool) : {layout : List Field} →
    (fields : Fields layout) → (marking : Marking) →
    (fields.mark source isListed marking).1.unmark = fields.unmark
  | _, .nil, marking => rfl
  | _, .cons value rest, marking => by
    simp only [Fields.mark_cons, Fields.unmark, Value.unmark_mark, Fields.unmark_mark]

theorem Value.unmark_mark (source : Source) (isListed : Bool) : {kind : FieldKind} →
    (value : Value kind) → (marking : Marking) →
    (value.mark source isListed marking).1.unmark = value.unmark
  | _, .node child, marking => by simp only [Value.mark, Value.unmark, Node.unmark_mark]
  | _, .optNode none, marking => rfl
  | _, .optNode (some child), marking => by simp only [Value.mark, Value.unmark, Node.unmark_mark]
  | _, .nodes children, marking => by simp only [Value.mark, Value.unmark, Node.unmarkAll_markAll]
  | _, .datum content, marking => rfl

theorem Node.unmarkAll_markAll (source : Source) (isListed : Bool) : (nodes : List Node) →
    (marking : Marking) →
    Node.unmarkAll (Node.markAll source isListed nodes marking).1 = Node.unmarkAll nodes
  | [], marking => rfl
  | node :: rest, marking => by
    simp only [Node.markAll, Node.unmarkAll, Node.unmark_mark, Node.unmarkAll_markAll]

end

section Failed

variable {source : Source} {isListed : Bool} {marking : Marking} (failed : marking.failed = true)

include failed

theorem Node.mark_of_failed (node : Node) :
    node.mark source isListed marking = (node, marking) := by
  obtain ⟨kind, id, location, flags, newline, fields⟩ := node
  rw [Node.mark_mk, if_pos failed]

theorem Node.markAll_of_failed (nodes : List Node) :
    Node.markAll source isListed nodes marking = (nodes, marking) := by
  induction nodes with
  | nil => rfl
  | cons node rest ih => simp only [Node.markAll, node.mark_of_failed failed, ih]

theorem Value.mark_of_failed {kind : FieldKind} (value : Value kind) :
    value.mark source isListed marking = (value, marking) := by
  cases value with
  | node child => simp only [Value.mark, child.mark_of_failed failed]
  | optNode child? =>
    cases child? with
    | none => rfl
    | some child => simp only [Value.mark, child.mark_of_failed failed]
  | nodes children => simp only [Value.mark, Node.markAll_of_failed failed]
  | datum content => rfl

theorem Fields.mark_of_failed {layout : List Field} (fields : Fields layout) :
    fields.mark source isListed marking = (fields, marking) := by
  induction layout with
  | nil =>
    cases fields
    rfl
  | cons field layout ih =>
    cases fields with | cons value rest =>
    simp only [Fields.mark_cons, value.mark_of_failed failed, ih]

end Failed

namespace Marking

/-- Markings that differ in their events at most. -/
structure Same (marking marking' : Marking) : Prop where
  table : marking.table = marking'.table
  failure : marking.failure = marking'.failure

variable {source : Source} {marking marking' : Marking} (same : marking.Same marking')

include same

theorem Same.failed : marking.failed = marking'.failed := by
  rw [Marking.failed, Marking.failed, same.failure]

theorem Same.claim (isStatement : Bool) (start : UInt32) (newline : Bool) :
    (marking.claim source isStatement start newline).1 =
        (marking'.claim source isStatement start newline).1 ∧
      (marking.claim source isStatement start newline).2.Same
        (marking'.claim source isStatement start newline).2 := by
  cases isStatement with
  | false => exact ⟨rfl, same⟩
  | true =>
    simp only [Marking.claim, if_true]
    cases source.lineSlot start with
    | error error => exact ⟨rfl, same.table, rfl⟩
    | ok slot =>
      simp only [same.table]
      exact ⟨trivial, rfl, same.failure⟩

theorem Same.enter (id : UInt32) : (marking.enter source id).Same (marking'.enter source id) :=
  ⟨rfl, same.failure⟩

theorem Same.leave (outer : LineTable) (id : UInt32) :
    (marking.leave outer id).Same (marking'.leave outer id) :=
  ⟨rfl, same.failure⟩

end Marking

mutual

theorem Node.mark_same (source : Source) (isListed : Bool) : (node : Node) →
    {marking marking' : Marking} → marking.Same marking' →
    (node.mark source isListed marking).1 = (node.mark source isListed marking').1 ∧
      (node.mark source isListed marking).2.Same (node.mark source isListed marking').2
  | ⟨kind, id, location, flags, newline, fields⟩, marking, marking', same => by
    rw [Node.mark_mk, Node.mark_mk, same.failed]
    split
    · exact ⟨rfl, same⟩
    · obtain ⟨mark, claimed⟩ := same.claim (isListed || kind.isConditional)
        location.start newline
      dsimp only
      rw [claimed.failed, mark]
      split
      · split
        · exact ⟨rfl, claimed⟩
        · obtain ⟨below, inner⟩ :=
            fields.mark_same source (kind == .statementsNode) (claimed.enter id)
          rw [below, claimed.table]
          exact ⟨rfl, inner.leave _ id⟩
      · obtain ⟨below, inner⟩ := fields.mark_same source (kind == .statementsNode) claimed
        rw [below]
        exact ⟨rfl, inner⟩

theorem Fields.mark_same (source : Source) (isListed : Bool) : {layout : List Field} →
    (fields : Fields layout) → {marking marking' : Marking} → marking.Same marking' →
    (fields.mark source isListed marking).1 = (fields.mark source isListed marking').1 ∧
      (fields.mark source isListed marking).2.Same (fields.mark source isListed marking').2
  | _, .nil, _, _, same => ⟨rfl, same⟩
  | _, .cons value rest, _, _, same => by
    obtain ⟨first, middle⟩ := value.mark_same source isListed same
    obtain ⟨others, last⟩ := rest.mark_same source isListed middle
    simp only [Fields.mark_cons, first, others]
    exact ⟨trivial, last⟩

theorem Value.mark_same (source : Source) (isListed : Bool) : {kind : FieldKind} →
    (value : Value kind) → {marking marking' : Marking} → marking.Same marking' →
    (value.mark source isListed marking).1 = (value.mark source isListed marking').1 ∧
      (value.mark source isListed marking).2.Same (value.mark source isListed marking').2
  | _, .node child, _, _, same => by
    obtain ⟨first, last⟩ := child.mark_same source isListed same
    simp only [Value.mark, first]
    exact ⟨trivial, last⟩
  | _, .optNode none, _, _, same => ⟨rfl, same⟩
  | _, .optNode (some child), _, _, same => by
    obtain ⟨first, last⟩ := child.mark_same source isListed same
    simp only [Value.mark, first]
    exact ⟨trivial, last⟩
  | _, .nodes children, _, _, same => by
    obtain ⟨first, last⟩ := Node.markAll_same source isListed children same
    simp only [Value.mark, first]
    exact ⟨trivial, last⟩
  | _, .datum _, _, _, same => ⟨rfl, same⟩

theorem Node.markAll_same (source : Source) (isListed : Bool) : (nodes : List Node) →
    {marking marking' : Marking} → marking.Same marking' →
    (Node.markAll source isListed nodes marking).1 =
        (Node.markAll source isListed nodes marking').1 ∧
      (Node.markAll source isListed nodes marking).2.Same
        (Node.markAll source isListed nodes marking').2
  | [], _, _, same => ⟨rfl, same⟩
  | node :: rest, _, _, same => by
    obtain ⟨first, middle⟩ := node.mark_same source isListed same
    obtain ⟨others, last⟩ := Node.markAll_same source isListed rest middle
    simp only [Node.markAll, first, others]
    exact ⟨trivial, last⟩

end

/-- A whole tree with its newlines marked, or the lookup that failed. -/
def Node.marked (source : Source) (root : Node) : Except LineError Node :=
  let (root, marking) := root.markNewlines source #[]
  match marking.failure with
  | none => .ok root
  | some error => .error error

theorem Node.marked_eq (source : Source) (root : Node) (trace : Trace) :
    root.marked source =
      match (root.markNewlines source trace).2.failure with
      | none => .ok (root.markNewlines source trace).1
      | some error => .error error := by
  have start : Marking.Same ⟨LineTable.free source, #[], none⟩
      ⟨LineTable.free source, trace, none⟩ := ⟨rfl, rfl⟩
  obtain ⟨tree, last⟩ := root.mark_same source false start
  rw [markNewlines, ← tree, ← last.failure]
  rfl

end PrismTree
