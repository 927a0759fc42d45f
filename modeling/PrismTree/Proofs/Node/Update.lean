import PrismTree.Node

/-!
# Updates of the children

To change the children of a node is to change the list of its children: everything else about the
node, and how its children are arranged in its fields, is a frame that no change touches. So the
walk that stops at the first failure is a walk over the list of children, and what it does to a node
is said by the children that it reached.
-/
namespace PrismTree

variable {σ ρ ε : Type}

/-- The same field apart from its child nodes: a child is absent in both or in neither, lists of
children are equally long, and other data are equal. -/
def Value.SameFrame : {kind : FieldKind} → Value kind → Value kind → Prop
  | _, .node _, .node _ => True
  | _, .optNode child, .optNode child' => child.isSome = child'.isSome
  | _, .nodes children, .nodes children' => children.length = children'.length
  | _, .datum content, .datum content' => content = content'

/-- The same fields apart from their child nodes. -/
def Fields.SameFrame : {layout : List Field} → Fields layout → Fields layout → Prop
  | _, .nil, .nil => True
  | _, .cons value rest, .cons value' rest' => value.SameFrame value' ∧ rest.SameFrame rest'

/-- The same node apart from its children. -/
def Node.SameFrame (node node' : Node) : Prop :=
  ∃ fields, node' = { node with fields := fields } ∧ node.fields.SameFrame fields

theorem Value.length_children_of_sameFrame {kind : FieldKind} {value value' : Value kind}
    (same : value.SameFrame value') : value.children.length = value'.children.length := by
  cases value with
  | node child => cases value'; rfl
  | optNode child =>
    cases value' with
    | optNode child' =>
      cases child <;> cases child' <;> simp [Value.SameFrame, Value.children] at same ⊢
  | nodes children => cases value'; exact same
  | datum content => cases value'; rfl

theorem Value.eq_of_sameFrame {kind : FieldKind} {value first second : Value kind}
    (same : value.SameFrame first) (same' : value.SameFrame second)
    (children : first.children = second.children) : first = second := by
  cases first with
  | node child =>
    cases second
    rw [List.singleton_inj.1 children]
  | optNode child =>
    cases second with
    | optNode child' =>
      have equal := congrArg List.head? children
      simp only [Value.children, Option.head?_toList] at equal
      rw [equal]
  | nodes list =>
    cases second
    exact congrArg Value.nodes children
  | datum content =>
    cases second
    cases value
    exact congrArg Value.datum (same.symm.trans same')

theorem Fields.eq_of_sameFrame : {layout : List Field} → {fields first second : Fields layout} →
    fields.SameFrame first → fields.SameFrame second → first.children = second.children →
    first = second
  | _, .nil, .nil, .nil, _, _, _ => rfl
  | _, .cons _ _, .cons value rest, .cons value' rest', same, same', children => by
    have lengths : value.children.length = value'.children.length :=
      (Value.length_children_of_sameFrame same.1).symm.trans
        (Value.length_children_of_sameFrame same'.1)
    obtain ⟨here, there⟩ := List.append_inj children lengths
    rw [Value.eq_of_sameFrame same.1 same'.1 here, Fields.eq_of_sameFrame same.2 same'.2 there]

/-- Nodes with a frame are told apart by their children. -/
theorem Node.eq_of_sameFrame {node first second : Node} (same : node.SameFrame first)
    (same' : node.SameFrame second) (children : first.children = second.children) :
    first = second := by
  obtain ⟨fields, rfl, frame⟩ := same
  obtain ⟨fields', rfl, frame'⟩ := same'
  rw [Fields.eq_of_sameFrame frame frame' children]

/-- An action with a memory and a state yields a value and leaves another memory and state. -/
def Yields {α : Type} (action : StateT ρ (StateM σ) α) (memory : ρ) (state : σ) (value : α)
    (memory' : ρ) (state' : σ) : Prop :=
  (action.run memory).run state = ((value, memory'), state')

section

variable {α β : Type} {memory memory' : ρ} {state state' : σ}

theorem yields_pure_iff {value value' : α} :
    Yields (pure value) memory state value' memory' state' ↔
      value' = value ∧ memory' = memory ∧ state' = state := by
  show ((value, memory), state) = ((value', memory'), state') ↔ _
  simp only [Prod.mk.injEq, and_assoc, eq_comm]

theorem yields_bind_iff {action : StateT ρ (StateM σ) α} {next : α → StateT ρ (StateM σ) β}
    {result : β} :
    Yields (action >>= next) memory state result memory' state' ↔
      ∃ value middle between, Yields action memory state value middle between ∧
        Yields (next value) middle between result memory' state' := by
  constructor
  · intro run
    exact ⟨_, _, _, rfl, run⟩
  · rintro ⟨value, middle, between, first, second⟩
    unfold Yields at first second ⊢
    rw [StateT.run_bind, StateT.run_bind, first]
    exact second

end

section

variable {f : Node → StateT ρ (StateM σ) Node} {memory memory' : ρ} {state state' : σ}
  {children : List Node}

theorem length_of_yields_mapM {nodes : List Node}
    (walk : Yields (nodes.mapM f) memory state children memory' state') :
    nodes.length = children.length := by
  induction nodes generalizing memory memory' state state' children with
  | nil =>
    obtain ⟨rfl, -, -⟩ := yields_pure_iff.1 walk
    rfl
  | cons node rest ih =>
    rw [List.mapM_cons, yields_bind_iff] at walk
    obtain ⟨node', memory₁, state₁, -, walk⟩ := walk
    obtain ⟨rest', memory₂, state₂, later, walk⟩ := yields_bind_iff.1 walk
    obtain ⟨rfl, -, -⟩ := yields_pure_iff.1 walk
    rw [List.length_cons, List.length_cons, ih later]

theorem exists_of_yields_mapM_singleton {child : Node}
    (walk : Yields ([child].mapM f) memory state children memory' state') :
    ∃ child', Yields (f child) memory state child' memory' state' ∧ children = [child'] := by
  rw [List.mapM_cons, yields_bind_iff] at walk
  obtain ⟨child', memory₁, state₁, change, walk⟩ := walk
  rw [List.mapM_nil, pure_bind, yields_pure_iff] at walk
  obtain ⟨rfl, rfl, rfl⟩ := walk
  exact ⟨child', change, rfl⟩

/-- Where the list of the children in a field is changed, so is the field. -/
theorem Value.yields_mapChildrenM {kind : FieldKind} {value : Value kind}
    (walk : Yields (value.children.mapM f) memory state children memory' state') :
    ∃ value', Yields (value.mapChildrenM f) memory state value' memory' state' ∧
      value.SameFrame value' ∧ value'.children = children := by
  cases value with
  | node child =>
    obtain ⟨child', change, rfl⟩ := exists_of_yields_mapM_singleton walk
    exact ⟨.node child', yields_bind_iff.2 ⟨child', _, _, change, rfl⟩, trivial, rfl⟩
  | optNode optional =>
    cases optional with
    | none =>
      obtain ⟨rfl, rfl, rfl⟩ := yields_pure_iff.1 walk
      exact ⟨.optNode none, rfl, rfl, rfl⟩
    | some child =>
      obtain ⟨child', change, rfl⟩ := exists_of_yields_mapM_singleton walk
      exact ⟨.optNode (some child'), yields_bind_iff.2 ⟨child', _, _, change, rfl⟩, rfl, rfl⟩
  | nodes list =>
    have run : Yields ((Value.nodes list).mapChildrenM f) memory state (.nodes children) memory'
        state' := yields_bind_iff.2 ⟨children, _, _, walk, rfl⟩
    exact ⟨.nodes children, run, length_of_yields_mapM walk, rfl⟩
  | datum content =>
    obtain ⟨rfl, rfl, rfl⟩ := yields_pure_iff.1 walk
    exact ⟨.datum content, rfl, rfl, rfl⟩

theorem Fields.yields_mapChildrenM : {layout : List Field} → {fields : Fields layout} →
    {memory memory' : ρ} → {state state' : σ} → {children : List Node} →
    Yields (fields.children.mapM f) memory state children memory' state' →
    ∃ fields', Yields (fields.mapChildrenM f) memory state fields' memory' state' ∧
      fields.SameFrame fields' ∧ fields'.children = children
  | _, .nil, _, _, _, _, _, walk => by
    rw [Fields.children, List.mapM_nil, yields_pure_iff] at walk
    obtain ⟨rfl, rfl, rfl⟩ := walk
    exact ⟨.nil, rfl, trivial, rfl⟩
  | _, .cons value rest, _, _, _, _, _, walk => by
    rw [Fields.children, List.mapM_append, yields_bind_iff] at walk
    obtain ⟨here, memory₁, state₁, first, walk⟩ := walk
    obtain ⟨there, memory₂, state₂, later, walk⟩ := yields_bind_iff.1 walk
    obtain ⟨rfl, rfl, rfl⟩ := yields_pure_iff.1 walk
    obtain ⟨value', changes, same, rfl⟩ := value.yields_mapChildrenM first
    obtain ⟨rest', changes', same', rfl⟩ := rest.yields_mapChildrenM later
    have both : Yields ((Fields.cons value rest).mapChildrenM f) _ _ (.cons value' rest') _ _ :=
      yields_bind_iff.2 ⟨value', _, _, changes, yields_bind_iff.2 ⟨rest', _, _, changes', rfl⟩⟩
    exact ⟨.cons value' rest', both, ⟨same, same'⟩, rfl⟩

end

section

variable (step : Node → StateM σ (Node × Option ε))

/-- Steps taken at nodes one after another: from a state, the nodes become others, and a failure
occurs at the last of them or not at all. -/
inductive Updates : List Node → σ → List Node → Option ε → σ → Prop where
  | done {state : σ} : Updates [] state [] none state
  | next {node node' : Node} {nodes nodes' : List Node} {state middle last : σ}
      {failure : Option ε} (first : (step node).run state = ((node', none), middle))
      (later : Updates nodes middle nodes' failure last) :
      Updates (node :: nodes) state (node' :: nodes') failure last
  | fail {node node' : Node} {state last : σ} {error : ε}
      (first : (step node).run state = ((node', some error), last)) :
      Updates [node] state [node'] (some error) last

/-- What the walk over the children does at one of them; its memory is the failure so far. -/
def Node.walkStep (child : Node) : StateT (Option ε) (StateM σ) Node := do
  if (← get).isSome then
    return child
  else
    let (child, failure) ← (step child : StateM σ (Node × Option ε))
    set failure
    return child

/-- A step that also writes down the nodes at which it is taken. -/
def Node.recording (node : Node) : StateM (σ × List Node) (Node × Option ε) := do
  let (state, called) ← get
  let (result, state') := (step node).run state
  set (state', called ++ [node])
  return result

variable {step}

theorem Node.tryModifyChildren_eq (node : Node) :
    node.tryModifyChildren step = (node.mapChildrenM (Node.walkStep step)).run none :=
  rfl

theorem yields_walkStep {node node' : Node} {failure : Option ε} {state state' : σ}
    (run : (step node).run state = ((node', failure), state')) :
    Yields (Node.walkStep step node) none state node' failure state' := by
  unfold Yields Node.walkStep
  simp [run]

theorem run_recording {node : Node} {result : Node × Option ε} {state state' : σ}
    (run : (step node).run state = (result, state')) (log : List Node) :
    (Node.recording step node).run (state, log) = (result, state', log ++ [node]) := by
  unfold Node.recording
  simp only [StateT.run_bind, StateT.run_get, StateT.run_set, StateT.run_pure, pure_bind, run]
  rfl

/-- After a failure the walk leaves the nodes as they are. -/
theorem yields_mapM_walkStep_of_failed (nodes : List Node) (error : ε) (state : σ) :
    Yields (nodes.mapM (Node.walkStep step)) (some error) state nodes (some error) state := by
  induction nodes with
  | nil => rfl
  | cons node rest ih =>
    rw [List.mapM_cons, yields_bind_iff]
    exact ⟨node, some error, state, rfl, yields_bind_iff.2 ⟨rest, _, _, ih, rfl⟩⟩

section

variable {called called' : List Node} {failure : Option ε} {state state' : σ}

theorem Updates.length_eq (updates : Updates step called state called' failure state') :
    called'.length = called.length := by
  induction updates with
  | done => rfl
  | next _ _ ih => rw [List.length_cons, List.length_cons, ih]
  | fail _ => rfl

/-- The walk does to the nodes what the steps do, and spares those after a failure. -/
theorem Updates.yields (updates : Updates step called state called' failure state')
    {spared : List Node} (all : failure = none → spared = []) :
    Yields ((called ++ spared).mapM (Node.walkStep step)) none state (called' ++ spared) failure
      state' := by
  induction updates with
  | done =>
    obtain rfl := all rfl
    rfl
  | next first later ih =>
    rw [List.cons_append, List.mapM_cons, yields_bind_iff]
    exact ⟨_, _, _, yields_walkStep first, yields_bind_iff.2 ⟨_, _, _, ih all, rfl⟩⟩
  | @fail _ _ _ last error first =>
    have rest : Yields (spared.mapM (Node.walkStep step)) (some error) last spared (some error)
        last := yields_mapM_walkStep_of_failed spared error last
    rw [List.cons_append, List.mapM_cons, yields_bind_iff]
    exact ⟨_, _, _, yields_walkStep first, yields_bind_iff.2 ⟨_, _, _, rest, rfl⟩⟩

/-- A failure occurs at the last node, after steps at the others that succeed. -/
theorem Updates.exists_failed {error : ε}
    (updates : Updates step called state called' (some error) state') :
    ∃ before child before' child' middle, called = before ++ [child] ∧
      called' = before' ++ [child'] ∧ Updates step before state before' none middle ∧
      (step child).run middle = ((child', some error), state') := by
  generalize outcome : some error = failure at updates
  induction updates with
  | done => nomatch outcome
  | next first later ih =>
    obtain ⟨before, child, before', child', middle, rfl, rfl, earlier, fails⟩ := ih outcome
    exact ⟨_ :: before, child, _ :: before', child', middle, rfl, rfl, .next first earlier, fails⟩
  | fail first =>
    obtain rfl := Option.some.inj outcome
    exact ⟨[], _, [], _, _, rfl, rfl, .done, first⟩

theorem Updates.recording (updates : Updates step called state called' failure state')
    (log : List Node) :
    Updates (Node.recording step) called (state, log) called' failure (state', log ++ called) := by
  induction updates generalizing log with
  | done =>
    rw [List.append_nil]
    exact .done
  | @next node _ nodes _ _ _ _ _ first later ih =>
    have rest := ih (log ++ [node])
    rw [List.append_assoc, List.singleton_append] at rest
    exact .next (run_recording first log) rest
  | fail first => exact .fail (run_recording first log)

end

variable (step) in
/-- Whatever the steps are, they can be taken up to the first failure. -/
theorem exists_updates (nodes : List Node) (state : σ) :
    ∃ called spared called' failure state', nodes = called ++ spared ∧
      (failure = none → spared = []) ∧ Updates step called state called' failure state' := by
  induction nodes generalizing state with
  | nil => exact ⟨[], [], [], none, state, rfl, fun _ => rfl, .done⟩
  | cons node rest ih =>
    obtain ⟨⟨⟨node', failure⟩, middle⟩, first⟩ : ∃ out, (step node).run state = out := ⟨_, rfl⟩
    cases failure with
    | none =>
      obtain ⟨called, spared, called', failure, last, rfl, all, later⟩ := ih middle
      exact ⟨node :: called, spared, node' :: called', failure, last, rfl, all, .next first later⟩
    | some error =>
      exact ⟨[node], rest, [node'], some error, middle, rfl, nofun, .fail first⟩

/-- Steps at the children of a node change the node to the one with its frame and the changed
children. -/
theorem Updates.run_tryModifyChildren {node : Node} {called spared called' : List Node}
    {failure : Option ε} {state state' : σ} (children : node.children = called ++ spared)
    (all : failure = none → spared = [])
    (updates : Updates step called state called' failure state') :
    ∃ node', (node.tryModifyChildren step).run state = ((node', failure), state') ∧
      node.SameFrame node' ∧ node'.children = called' ++ spared := by
  have walk := updates.yields all
  rw [← children] at walk
  obtain ⟨fields', changes, same, children'⟩ := Fields.yields_mapChildrenM walk
  refine ⟨{ node with fields := fields' }, ?_, ⟨fields', rfl, same⟩, children'⟩
  rw [Node.tryModifyChildren_eq]
  exact yields_bind_iff.2 ⟨fields', _, _, changes, rfl⟩

variable (step)

/-- The walk that changes the children takes its steps in field order up to the first failure, which
it reports, and spares the other children. The frame of the node stays, and the node is determined
by that and by its children. -/
theorem Node.children_of_tryModifyChildren (node : Node) (state : σ) :
    ∃ called spared called' failure state' node',
      node.children = called ++ spared ∧
      Updates step called state called' failure state' ∧
      (failure = none → spared = []) ∧
      (∀ error, failure = some error → ∃ before child before' child' middle,
        called = before ++ [child] ∧ called' = before' ++ [child'] ∧
        Updates step before state before' none middle ∧
        (step child).run middle = ((child', some error), state')) ∧
      (node.tryModifyChildren step).run state = ((node', failure), state') ∧
      node.SameFrame node' ∧
      node'.children = called' ++ spared ∧ called'.length = called.length ∧
      (∀ other, node.SameFrame other → other.children = called' ++ spared → other = node') ∧
      (node.tryModifyChildren (Node.recording step)).run (state, []) =
        ((node', failure), (state', called)) := by
  obtain ⟨called, spared, called', failure, state', children, all, updates⟩ :=
    exists_updates step node.children state
  obtain ⟨node', run, same, children'⟩ := updates.run_tryModifyChildren children all
  have unique : ∀ other, node.SameFrame other → other.children = called' ++ spared →
      other = node' := by
    intro other sameOther childrenOther
    exact Node.eq_of_sameFrame sameOther same (childrenOther.trans children'.symm)
  have failed : ∀ error, failure = some error → ∃ before child before' child' middle,
      called = before ++ [child] ∧ called' = before' ++ [child'] ∧
      Updates step before state before' none middle ∧
      (step child).run middle = ((child', some error), state') := by
    rintro error rfl
    exact updates.exists_failed
  -- The recording walk makes the same changes, so it ends at the same node.
  obtain ⟨recorded, record, sameRecorded, childrenRecorded⟩ :=
    (updates.recording []).run_tryModifyChildren children all
  obtain rfl := unique recorded sameRecorded childrenRecorded
  exact ⟨called, spared, called', failure, state', recorded, children, updates, all, failed, run,
    same, children', updates.length_eq, unique, record⟩

end

end PrismTree
