import PrismTree.Proofs.Newline.Table

/-!
# Claims one by one

A marking merges two claims: an element of a list of statements claims its line when the list is
walked, and a conditional claims it when it is visited itself. The walk below makes every claim
where it stands, frees as many lines for a closure as the table around it has, and leaves open what
happens at a slot outside the table. From a table of the right size it does what the marking does,
whatever was left open, so no slot ever is outside.
-/
namespace PrismTree

/-- What happens at a slot outside the table: the newline mark of the node and the state after it,
given those before. -/
abbrev Outside : Type := Nat → Bool → Marking → Bool × Marking

namespace Marking

/-- Take the line on which a node starts, if the node is a statement: look at the entry of the table
and, if it is there and free, mark the node and take the line. -/
def claimOr (outside : Outside) (source : Source) (isStatement : Bool) (start : UInt32)
    (newline : Bool) (marking : Marking) : Bool × Marking :=
  if isStatement then
    match source.lineSlot start with
    | .ok slot =>
      match marking.table[slot]? with
      | some true => (newline, marking)
      | some false => (true, { marking with table := marking.table.setIfInBounds slot true })
      | none => outside slot newline marking
    | .error error => (newline, { marking with failure := some error })
  else
    (newline, marking)

/-- Enter the scope of a closure with a table of the same size in which all lines are free. -/
def enterFresh (id : UInt32) (marking : Marking) : Marking :=
  { marking with
    table := Array.replicate marking.table.size false
    trace := marking.trace.push (.scopeEntered id) }

end Marking

section Walk

variable (outside : Outside) (source : Source)

mutual

/-- Walk over a tree and make the claims of its statements. Whether a list of statements holds the
root is told from outside. -/
def Node.walk (isListed : Bool) : Node → Marking → Node × Marking
  | ⟨kind, id, location, flags, newline, fields⟩, marking =>
    if marking.failed then (⟨kind, id, location, flags, newline, fields⟩, marking)
    else
      let (newline, marking) := marking.claimOr outside source isListed location.start newline
      if marking.failed then (⟨kind, id, location, flags, newline, fields⟩, marking)
      else if kind.isClosure then
        let outer := marking.table
        let (fields, marking) := fields.walk false (marking.enterFresh id)
        (⟨kind, id, location, flags, newline, fields⟩, marking.leave outer id)
      else
        let (newline, marking) :=
          marking.claimOr outside source kind.isConditional location.start newline
        let (fields, marking) := fields.walk (kind == .statementsNode) marking
        (⟨kind, id, location, flags, newline, fields⟩, marking)

/-- Walk over a list of fields. -/
def Fields.walk (isListed : Bool) :
    {layout : List Field} → Fields layout → Marking → Fields layout × Marking
  | _, .nil, marking => (.nil, marking)
  | _, .cons value rest, marking =>
    let (value, marking) := value.walk isListed marking
    let (rest, marking) := rest.walk isListed marking
    (.cons value rest, marking)

/-- Walk over a field. -/
def Value.walk (isListed : Bool) :
    {kind : FieldKind} → Value kind → Marking → Value kind × Marking
  | _, .node child, marking =>
    let (child, marking) := child.walk isListed marking
    (.node child, marking)
  | _, .optNode none, marking => (.optNode none, marking)
  | _, .optNode (some child), marking =>
    let (child, marking) := child.walk isListed marking
    (.optNode (some child), marking)
  | _, .nodes children, marking =>
    let (children, marking) := Node.walkAll isListed children marking
    (.nodes children, marking)
  | _, .datum content, marking => (.datum content, marking)

/-- Walk over a list of trees. -/
def Node.walkAll (isListed : Bool) : List Node → Marking → List Node × Marking
  | [], marking => ([], marking)
  | node :: rest, marking =>
    let (node, marking) := node.walk isListed marking
    let (rest, marking) := Node.walkAll isListed rest marking
    (node :: rest, marking)

end

end Walk

namespace LineTable

theorem take_of_taken {table : LineTable} {slot : Nat} (taken : table[slot]? = some true) :
    table.take slot = table := by
  obtain ⟨inside, here⟩ := Array.getElem?_eq_some_iff.1 taken
  rw [take, Array.setIfInBounds, dif_pos inside, ← here, Array.set_getElem_self]

theorem take_take (table : LineTable) (slot : Nat) :
    (table.take slot).take slot = table.take slot :=
  Array.setIfInBounds_setIfInBounds ..

end LineTable

namespace Marking

variable {outside : Outside} {source : Source} {start : UInt32} {newline : Bool}
  {marking : Marking}

/-- In a table with an entry for each line a claim finds its entry. -/
theorem claimOr_eq (size : marking.table.size = 1 + source.lineCount) {isStatement : Bool} :
    marking.claimOr outside source isStatement start newline =
      marking.claim source isStatement start newline := by
  unfold claimOr claim
  split
  · cases found : source.lineSlot start with
    | error error => rfl
    | ok slot =>
      have le := source.lineSlot_le found
      have inside : slot < marking.table.size := by omega
      have here := Array.getElem?_eq_getElem inside
      cases entry : marking.table[slot] with
      | true =>
        rw [entry] at here
        simp only [here, LineTable.take_of_taken here, LineTable.isFree]
        simp
      | false =>
        rw [entry] at here
        simp only [here, LineTable.isFree]
        simp [LineTable.take]
  · rfl

/-- Of two claims of one node the second changes nothing, and if the first one fails there is no
second. -/
theorem claim_or (going : ¬marking.failed = true) {first second : Bool} :
    marking.claim source (first || second) start newline =
      let claimed := marking.claim source first start newline
      if claimed.2.failed then claimed else claimed.2.claim source second start claimed.1 := by
  cases first with
  | false =>
    have unclaimed : marking.claim source false start newline = (newline, marking) := rfl
    simp only [unclaimed, Bool.false_or]
    rw [if_neg going]
  | true =>
    simp only [claim, Bool.true_or, if_true]
    cases source.lineSlot start with
    | error error => rfl
    | ok slot =>
      have fine : ¬(failed { marking with table := marking.table.take slot }) = true := going
      dsimp only
      rw [if_neg fine]
      cases second with
      | false => rfl
      | true => simp [LineTable.isFree_take, LineTable.take_take]

theorem enterFresh_eq (size : marking.table.size = 1 + source.lineCount) (id : UInt32) :
    marking.enterFresh id = marking.enter source id := by
  rw [enterFresh, enter, LineTable.free, size]

end Marking

theorem Node.walk_mk {outside : Outside} {source : Source} {isListed : Bool} {kind : Kind}
    {id : UInt32} {location : Location} {flags : NodeFlags} {newline : Bool}
    {fields : Fields kind.layout} {marking : Marking} :
    Node.walk outside source isListed ⟨kind, id, location, flags, newline, fields⟩ marking =
      if marking.failed then (⟨kind, id, location, flags, newline, fields⟩, marking)
      else
        let listed := marking.claimOr outside source isListed location.start newline
        if listed.2.failed then (⟨kind, id, location, flags, listed.1, fields⟩, listed.2)
        else if kind.isClosure then
          let inner := fields.walk outside source false (listed.2.enterFresh id)
          (⟨kind, id, location, flags, listed.1, inner.1⟩, inner.2.leave listed.2.table id)
        else
          let visited :=
            listed.2.claimOr outside source kind.isConditional location.start listed.1
          let inner := fields.walk outside source (kind == .statementsNode) visited.2
          (⟨kind, id, location, flags, visited.1, inner.1⟩, inner.2) := by
  rw [Node.walk]

mutual

/-- From a table with an entry for each line the walk is the marking, whatever happens at slots
outside the table. -/
theorem Node.walk_eq_mark (outside : Outside) (source : Source) (isListed : Bool) :
    (node : Node) → {marking : Marking} → marking.table.size = 1 + source.lineCount →
    node.walk outside source isListed marking = node.mark source isListed marking
  | ⟨kind, id, location, flags, newline, fields⟩, marking, size => by
    rw [Node.walk_mk, Node.mark_mk]
    by_cases failed : marking.failed = true
    · rw [if_pos failed, if_pos failed]
    · rw [if_neg failed, if_neg failed, Marking.claimOr_eq size, Marking.claim_or failed]
      have listed_size : (marking.claim source isListed location.start newline).2.table.size =
          1 + source.lineCount := marking.grows_claim.size.trans size
      generalize marking.claim source isListed location.start newline = listed at listed_size
      dsimp only
      by_cases unlisted : listed.2.failed = true
      · simp only [if_pos unlisted, fields.mark_of_failed unlisted, ite_self]
      · simp only [if_neg unlisted]
        by_cases closure : kind.isClosure = true
        · rw [if_pos closure, if_pos closure, Marking.claim_of_isClosure closure, if_neg unlisted,
            (Kind.eq_false_of_isClosure closure).2, Marking.enterFresh_eq listed_size,
            fields.walk_eq_mark outside source false (LineTable.size_free source)]
        · rw [if_neg closure, if_neg closure, Marking.claimOr_eq listed_size,
            fields.walk_eq_mark outside source _ ((Marking.grows_claim _).size.trans listed_size)]

theorem Fields.walk_eq_mark (outside : Outside) (source : Source) (isListed : Bool) :
    {layout : List Field} → (fields : Fields layout) → {marking : Marking} →
    marking.table.size = 1 + source.lineCount →
    fields.walk outside source isListed marking = fields.mark source isListed marking
  | _, .nil, _, _ => rfl
  | _, .cons value rest, marking, size => by
    have later := (value.grows_mark source isListed marking).size.trans size
    rw [Fields.walk, Fields.mark_cons, value.walk_eq_mark outside source isListed size]
    dsimp only
    rw [rest.walk_eq_mark outside source isListed later]

theorem Value.walk_eq_mark (outside : Outside) (source : Source) (isListed : Bool) :
    {kind : FieldKind} → (value : Value kind) → {marking : Marking} →
    marking.table.size = 1 + source.lineCount →
    value.walk outside source isListed marking = value.mark source isListed marking
  | _, .node child, _, size => by
    rw [Value.walk, Value.mark, child.walk_eq_mark outside source isListed size]
  | _, .optNode none, _, _ => rfl
  | _, .optNode (some child), _, size => by
    rw [Value.walk, Value.mark, child.walk_eq_mark outside source isListed size]
  | _, .nodes children, _, size => by
    rw [Value.walk, Value.mark, Node.walkAll_eq_markAll outside source isListed children size]
  | _, .datum _, _, _ => rfl

theorem Node.walkAll_eq_markAll (outside : Outside) (source : Source) (isListed : Bool) :
    (nodes : List Node) → {marking : Marking} → marking.table.size = 1 + source.lineCount →
    Node.walkAll outside source isListed nodes marking =
      Node.markAll source isListed nodes marking
  | [], _, _ => rfl
  | node :: rest, marking, size => by
    have later := (node.grows_mark source isListed marking).size.trans size
    rw [Node.walkAll, Node.markAll, node.walk_eq_mark outside source isListed size]
    dsimp only
    rw [Node.walkAll_eq_markAll outside source isListed rest later]

end

/-- What a marking does to the table of its scope, from any subtree on and whether a lookup fails or
not: lines stay taken, closures leave the table alone, every claim is made where it stands, and to
mark again changes nothing. -/
theorem Node.table_of_mark (source : Source) (isListed : Bool) (node : Node) (marking : Marking)
    (size : marking.table.size = 1 + source.lineCount) :
    let visited := node.mark source isListed marking
    visited.2.table.size = marking.table.size ∧
    (∀ slot : Nat, marking.table[slot]? = some true → visited.2.table[slot]? = some true) ∧
    visited.2.table[0]? = marking.table[0]? ∧
    (node.kind.isClosure = true → isListed = false → visited.2.table = marking.table) ∧
    (∀ outside : Outside, node.walk outside source isListed marking = visited) ∧
    visited.1.unmark = node.unmark ∧
    KeepsMarks node.preorder visited.1.preorder ∧
    visited.1.mark source isListed marking = visited ∧
    ∀ trace trace' : Trace,
      let marked := node.markNewlines source trace
      (marked.1.markNewlines source trace').1 = marked.1 ∧
        (marked.1.markNewlines source trace').2.failure = marked.2.failure := by
  intro visited
  have grows := node.grows_mark source isListed marking
  refine ⟨grows.size, grows.taken, grows.front, ?_, ?_, node.unmark_mark source isListed marking,
    node.keepsMarks_mark source isListed marking, node.mark_mark source isListed marking,
    node.markNewlines_markNewlines source⟩
  · rintro closure rfl
    exact node.table_mark_of_isClosure closure
  · intro outside
    exact node.walk_eq_mark outside source isListed size

/-- A lambda whose body has one statement, a block whose body has one statement. -/
def nestedClosures : Node :=
  let body (statement : Node) : Fields Kind.blockNode.layout :=
    .cons (.datum (.constants [])) (.cons (.optNode none) (.cons (.optNode (some
      ⟨.statementsNode, 3, statement.location, .empty, false, .cons (.nodes [statement]) .nil⟩))
      .nil))
  let innermost : Node := ⟨.nilNode, 5, ⟨0, 3⟩, .empty, false, .nil⟩
  let block : Node := ⟨.blockNode, 4, ⟨5, 1⟩, .empty, false, body innermost⟩
  ⟨.lambdaNode, 2, ⟨2, 4⟩, .empty, false, body block⟩

/-- The innermost statement starts in front of the first line. The lines that were taken outside are
taken again all the same, and no others. -/
theorem table_of_mark_nestedClosures :
    let source : Source := { bytes := ⟨#[97, 98, 99, 100, 101, 102]⟩, lineOffsets := #[2, 5] }
    let marking : Marking := ⟨#[false, true, false], #[], none⟩
    let visited := nestedClosures.mark source false marking
    marking.table.size = 1 + source.lineCount ∧
      visited.2.failure = some (.beforeFirstLine 0 2) ∧
      visited.2.table = #[false, true, false] ∧
      ∀ outside, nestedClosures.walk outside source false marking = visited := by
  intro source marking visited
  have size : marking.table.size = 1 + source.lineCount := rfl
  obtain ⟨-, -, -, restored, inside, -⟩ := nestedClosures.table_of_mark source false marking size
  exact ⟨size, by decide +kernel, restored rfl rfl, inside⟩

end PrismTree
