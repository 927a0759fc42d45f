import PrismTree.Proofs.Trace.Agreement

/-!
# The trace of a load

A load leaves a trace that agrees with how it ends, at whatever stage this is: in front of the tree,
without a tree, in the tree or behind it, at a line that is not found, or with a result.
-/
namespace PrismTree

namespace LoadStage

variable {input : TreeInput}

/-- What a load does behind everything in front of the tree. -/
def rest (input : TreeInput) (preamble : Preamble) : LoadStage ParseResult := do
  let pool := ConstantPool.fresh preamble.heading.encoding preamble.pool
  if preamble.remarks.errors.isEmpty then do
    let (root, pool) ← root input (preamble.source input.source) pool
    return preamble.result input.source (some root) pool.constants
  else do
    note .treeSkipped
    return preamble.result input.source none pool.constants

/-- What a load does in front of the tree. -/
theorem all_eq (input : TreeInput) :
    match Decoder.readFront.runFrom input.serialized 0 with
    | .error error _ => ∃ state, all input ⟨0, #[]⟩ = .error error state ∧
        ∀ event ∈ state.trace.toList, event.IsFront
    | .ok preamble start =>
      all input ⟨0, #[]⟩ = rest input preamble ⟨start, preamble.trace input⟩ := by
  simp only [all, note, heading, decode, bind, EStateM.bind, Decoder.runFrom, Decoder.readFront,
    Decoder.readPreamble, Decoder.bind]
  cases Decoder.readHeading input.serialized 0 with
  | error error stop => exact ⟨_, rfl, by simp [Event.IsFront]⟩
  | ok heading stop =>
    simp only [remarks, decode, note, bind, EStateM.bind, pure, EStateM.pure]
    cases Decoder.readRemarks input.serialized stop with
    | error error stop => exact ⟨_, rfl, by simp [Event.IsFront]⟩
    | ok remarks stop =>
      simp only [pool, decode, bind, EStateM.bind, pure]
      cases Decoder.within (.ofSection .constantPool) Decoder.readPoolHeader input.serialized
          stop with
      | error error stop => exact ⟨_, rfl, by simp [Event.IsFront]⟩
      | ok header stop =>
        have check := @Decoder.runFrom_checkPool input.serialized stop header
        unfold Decoder.runFrom at check
        simp only [Decoder.pure, Decoder.within, Decoder.mapError]
        rw [check, ConstantPool.ofHeader]
        by_cases short : input.serialized.size <
          header.count.toNat * ConstantPool.descriptorSize + header.offset.toNat
        · simp only [if_pos short]
          exact ⟨_, rfl, by simp [Event.IsFront]⟩
        · simp only [if_neg short, rest]
          cases remarks.errors.isEmpty <;> rfl

section Tree

variable {preamble : Preamble} {start : Nat} {root : Node} {reached : TreeState}

theorem tree_of_error {error : LoadError}
    (read : TreeDecoder.readNode input.options.maxDepth input (preamble.treeState input start) =
      .error error reached) :
    tree input (.fresh preamble.heading.encoding preamble.pool) ⟨start, preamble.trace input⟩ =
      .error (error.within (.ofSection .nodeTree)) ⟨reached.position, reached.trace⟩ := by
  rw [Preamble.treeState] at read
  rw [tree, read]

theorem tree_of_ok
    (read : TreeDecoder.readNode input.options.maxDepth input (preamble.treeState input start) =
      .ok root reached) :
    tree input (.fresh preamble.heading.encoding preamble.pool) ⟨start, preamble.trace input⟩ =
      if reached.position = preamble.pool.offset.toNat then
        .ok (root, reached.pool) ⟨reached.position, reached.trace⟩
      else
        .error (.ofCause (.trailingBytes preamble.pool.offset.toNat reached.position))
          ⟨reached.position, reached.trace⟩ := by
  rw [Preamble.treeState] at read
  rw [tree, read]
  rfl

end Tree

/-- Mark the newlines of a tree, if that is asked for. -/
def finish (input : TreeInput) (source : Source) (root : Node) : LoadStage Node :=
  if input.options.markNewlines then newlines source root else pure root

theorem finish_eq (input : TreeInput) (source : Source) (root : Node) (state : LoadState) :
    ∃ state' scopes, state'.trace.toList = state.trace.toList ++ scopes ∧ IsBalanced scopes ∧
      scopes.filterMap Event.entered? =
        (if input.options.markNewlines then Occurrence.opened source root.allOccurrences else []) ∧
      finish input source root state =
        match root.finished input.options source with
        | .ok tree => .ok tree state'
        | .error error => .error error state' := by
  unfold finish Node.finished
  by_cases asked : input.options.markNewlines = true
  · obtain ⟨scopes, added, balanced, entered⟩ :=
      root.exists_scopes_markNewlines source state.trace
    refine ⟨⟨state.position, (root.markNewlines source state.trace).2.trace⟩, scopes, added,
      balanced, ?_, ?_⟩
    · rw [if_pos asked, entered]
    · rw [if_pos asked, if_pos asked, Node.marked_eq source root state.trace, newlines]
      obtain ⟨tree, marking⟩ := root.markNewlines source state.trace
      dsimp only
      cases marking.failure <;> rfl
  · refine ⟨state, [], (List.append_nil _).symm, .nil, ?_, ?_⟩
    · rw [if_neg asked]
      rfl
    · rw [if_neg asked, if_neg asked]
      rfl

/-- Without errors, a tree is read and finished. -/
theorem rest_of_parsed {preamble : Preamble} (parsed : preamble.remarks.errors = []) :
    rest input preamble = do
      let found ← tree input (.fresh preamble.heading.encoding preamble.pool)
      let root ← finish input (preamble.source input.source) found.1
      note (.treeDecoded root.count found.2.size found.2.resolutions)
      return preamble.result input.source (some root) found.2.constants := by
  simp only [rest, root, parsed, List.isEmpty_nil, if_true, bind_assoc]
  refine bind_congr fun found => ?_
  unfold finish
  split <;> simp only [bind_assoc, pure_bind]

/-- How a load ends with its last stage. -/
def outcome (stage : LoadStage ParseResult) (state : LoadState) : LoadOutcome :=
  match stage state with
  | .ok result state => ⟨.ok result, state.trace⟩
  | .error error state => ⟨.error error, state.trace⟩

theorem outcome_bind {α : Type} (first : LoadStage α) (next : α → LoadStage ParseResult)
    (state : LoadState) :
    outcome (first >>= next) state =
      match first state with
      | .ok value state => outcome (next value) state
      | .error error state => ⟨.error error, state.trace⟩ := by
  simp only [outcome, bind, EStateM.bind]
  cases first state <;> rfl

/-- With errors, the tree is skipped. -/
theorem outcome_rest_of_errors {preamble : Preamble} {state : LoadState}
    (failed : preamble.remarks.errors ≠ []) :
    outcome (rest input preamble) state =
      ⟨.ok (preamble.result input.source none
        (ConstantPool.fresh preamble.heading.encoding preamble.pool).constants),
        state.trace.push .treeSkipped⟩ := by
  rw [outcome, rest, if_neg fun none => failed (List.isEmpty_iff.1 none)]
  rfl

end LoadStage

section Agreement

variable {input : TreeInput} {preamble : Preamble} {start : Nat}

/-- A load that fails in front of the tree. -/
theorem agrees_of_front {error : LoadError} {trace : Trace}
    (never : ∀ preamble start, Decoder.readFront.runFrom input.serialized 0 ≠ .ok preamble start)
    (front : ∀ event ∈ trace.toList, event.IsFront) :
    (LoadOutcome.mk (.error error) trace).Agrees input := by
  have outside : ∀ preamble start, ¬ComesToTree input preamble start :=
    fun preamble start comes => never preamble start comes.front
  refine ⟨trace.toList, [], [], [], ⟨#[]⟩, ?_, front,
    ⟨fun preamble start comes => absurd comes (outside preamble start), fun _ => rfl, .nil, ?_,
      rfl, nofun⟩, scopesAgree_nil (not_comesToMarking outside) nofun⟩
  · show trace.toList = trace.toList ++ [] ++ [] ++ []
    rw [List.append_nil, List.append_nil, List.append_nil]
  · rintro id text ⟨⟩

/-- A load that skips the tree. -/
theorem agrees_of_errors
    (front : Decoder.readFront.runFrom input.serialized 0 = .ok preamble start)
    (failed : preamble.remarks.errors ≠ []) :
    (LoadStage.outcome (LoadStage.rest input preamble) ⟨start, preamble.trace input⟩).Agrees
      input := by
  have outside : ∀ preamble start, ¬ComesToTree input preamble start := by
    intro preamble' start' comes
    have same := front.symm.trans comes.front
    rw [EStateM.Result.ok.injEq] at same
    obtain ⟨rfl, rfl⟩ := same
    exact failed comes.parsed
  rw [LoadStage.outcome_rest_of_errors failed]
  refine ⟨(preamble.trace input).toList, [], [], [],
    (ConstantPool.fresh preamble.heading.encoding preamble.pool).constants, ?_,
    Preamble.isFront_of_mem_trace,
    ⟨fun preamble start comes => absurd comes (outside preamble start), fun _ => rfl, .nil,
      fun id text found => ?_, ?_, ?_⟩, scopesAgree_nil (not_comesToMarking outside) ?_⟩
  · show ((preamble.trace input).push .treeSkipped).toList = _
    rw [Array.toList_push, List.append_nil, List.append_nil]
    rfl
  · have nothing := @ConstantPool.kept?_fresh preamble.heading.encoding preamble.pool id
    rw [ConstantPool.kept?, found] at nothing
    cases nothing
  · exact (@ConstantPool.memoises_fresh input.serialized input.source preamble.heading.encoding
      preamble.pool).counted.symm
  · rintro result ⟨⟩
    exact ⟨rfl, rfl⟩
  · rintro result root ⟨⟩ tree
    cases tree

/-- A load that comes to a tree. -/
theorem ComesToTree.agrees (comes : ComesToTree input preamble start) :
    (LoadStage.outcome (LoadStage.rest input preamble) ⟨start, preamble.trace input⟩).Agrees
      input := by
  rw [LoadStage.rest_of_parsed comes.parsed, LoadStage.outcome_bind]
  have front := @Preamble.isFront_of_mem_trace input preamble
  cases read : TreeDecoder.readNode input.options.maxDepth input (preamble.treeState input start)
    with
  | error error reached =>
    obtain ⟨ids, stop, refers, follows⟩ :=
      TreeDecoder.stopsAfter_readNode input _ _ error reached comes.le_size read
    obtain ⟨constants, added, -, agree⟩ := comes.exists_constants refers follows
    rw [LoadStage.tree_of_error read]
    refine ⟨_, constants, [], ids, _, ?_, front, agree _ nofun, scopesAgree_nil ?_ nofun⟩
    · show reached.trace.toList = _ ++ constants ++ [] ++ []
      rw [List.append_nil, List.append_nil, added]
    · rintro preamble' root ⟨-, start', reached', comes', read', -⟩
      obtain ⟨rfl, rfl⟩ := comes.unique comes'
      rw [read] at read'
      cases read'
  | ok root reached =>
    obtain ⟨bytes, form, stands, follows⟩ := TreeDecoder.exists_form_of_readNode read
    have refers := nodeRefers_of_stands ⟨bytes, (mem_provided_mul.1 form).2, stands, rfl⟩
    obtain ⟨constants, added, counted, agree⟩ := comes.exists_constants refers follows
    by_cases ends : reached.position = preamble.pool.offset.toNat
    · rw [LoadStage.tree_of_ok read, if_pos ends]
      dsimp only
      obtain ⟨state, scopes, added', balanced, entered, run⟩ := LoadStage.finish_eq input
        (preamble.source input.source) root ⟨reached.position, reached.trace⟩
      rw [LoadStage.outcome_bind, run]
      have events : state.trace.toList = (preamble.trace input).toList ++ constants ++ scopes := by
        rw [added', added]
      cases finished : root.finished input.options (preamble.source input.source) with
      | error error =>
        refine ⟨_, constants, scopes, _, _, ?_, front, agree _ nofun,
          comes.scopesAgree read ends balanced entered nofun⟩
        show state.trace.toList = _ ++ []
        rw [List.append_nil, events]
      | ok root' =>
        refine ⟨_, constants, scopes, _, _, ?_, front, agree _ ?_,
          comes.scopesAgree read ends balanced entered ?_⟩
        · show (state.trace.push (.treeDecoded root'.count reached.pool.size
            reached.pool.resolutions)).toList = _
          rw [Array.toList_push, events, counted]
          rfl
        · rintro result ⟨⟩
          exact ⟨Node.references_of_finished finished, rfl⟩
        · rintro result _ ⟨⟩ ⟨⟩
          exact finished
    · rw [LoadStage.tree_of_ok read, if_neg ends]
      refine ⟨_, constants, [], _, _, ?_, front, agree _ nofun, scopesAgree_nil ?_ nofun⟩
      · show reached.trace.toList = _ ++ constants ++ [] ++ []
        rw [List.append_nil, List.append_nil, added]
      · rintro preamble' root' ⟨-, start', reached', comes', read', ends'⟩
        obtain ⟨rfl, rfl⟩ := comes.unique comes'
        rw [read, EStateM.Result.ok.injEq] at read'
        obtain ⟨rfl, rfl⟩ := read'
        exact ends ends'

theorem agrees_loadTraced (serialized source : ByteArray) (options : LoadOptions) :
    (loadTraced serialized source options).Agrees ⟨serialized, source, options⟩ := by
  show (LoadStage.outcome (LoadStage.all ⟨serialized, source, options⟩) ⟨0, #[]⟩).Agrees _
  have stages := LoadStage.all_eq ⟨serialized, source, options⟩
  cases front : Decoder.readFront.runFrom serialized 0 with
  | error error stop =>
    rw [front] at stages
    obtain ⟨state, run, only⟩ := stages
    rw [LoadStage.outcome, run]
    exact agrees_of_front (fun _ _ read => by rw [front] at read; cases read) only
  | ok preamble start =>
    rw [front] at stages
    rw [LoadStage.outcome, stages]
    by_cases parsed : preamble.remarks.errors = []
    · exact ComesToTree.agrees ⟨front, parsed⟩
    · exact agrees_of_errors front parsed

end Agreement

/-- The trace of a load agrees with how the load ends, whether it succeeds or fails: the constants
that it notes are those that are resolved, each once, and its ending tells if there is a tree. -/
theorem trace_of_load (serialized source : ByteArray) (options : LoadOptions) :
    let outcome := loadTraced serialized source options
    let events := outcome.trace.toList
    let resolved := events.filterMap Event.resolved?
    outcome.Agrees ⟨serialized, source, options⟩ ∧ resolved.Nodup ∧
    (∀ result, outcome.result = .ok result →
      (∀ index text, .constantResolved index text ∈ events →
        ∃ id : ConstantId, id.index = index ∧ result.constant? id = some text) ∧
      result.constants.slots.countP Option.isSome = resolved.length ∧
      ∀ root, result.root = some root →
        .treeDecoded root.count result.constants.size resolved.length ∈ events) ∧
    ((∃ nodes size count, .treeDecoded nodes size count ∈ events) ↔
      ∃ result root, outcome.result = .ok result ∧ result.root = some root) ∧
    (.treeSkipped ∈ events ↔
      ∃ result, outcome.result = .ok result ∧ result.root = none ∧ result.errors ≠ []) := by
  intro outcome events resolved
  obtain ⟨front, constants, scopes, ids, table, trace, only, followed, marked⟩ :
    outcome.Agrees ⟨serialized, source, options⟩ := agrees_loadTraced serialized source options
  have same : resolved = constants.filterMap Event.resolved? := by
    show outcome.trace.toList.filterMap _ = _
    rw [trace, resolved?_of_parts only marked.balanced]
  have count : resolved.length = constants.length := by
    rw [same, resolved?_of_tells followed.told, List.length_map, followed.told.length_eq]
  have ending : ∀ event : Event,
      (event = .treeSkipped ∨ ∃ nodes size count, event = .treeDecoded nodes size count) →
      (event ∈ events ↔ event ∈ outcome.ending constants.length) := by
    intro event ends
    show event ∈ outcome.trace.toList ↔ _
    rw [trace, mem_parts_iff only followed.told marked.balanced ends]
  refine ⟨agrees_loadTraced _ _ _, ?_,
    fun result ok => ⟨fun index text member => ?_, ?_, fun root tree => ?_⟩, ?_, ?_⟩
  · rw [same]
    exact nodup_resolved? followed.told
  · have member : .constantResolved index text ∈ outcome.trace.toList := member
    rw [trace] at member
    obtain ⟨id, _, found, told⟩ := exists_tells followed.told _
      (mem_constants_of_mem_parts only marked.balanced member)
    cases told
    refine ⟨id, rfl, ?_⟩
    rw [ParseResult.constant?, (followed.kept result ok).2, found]
  · rw [(followed.kept result ok).2, followed.filled, count]
  · rw [ending _ (Or.inr ⟨_, _, _, rfl⟩), count]
    exact decoded_mem_ending ok tree
  · simp only [ending _ (Or.inr ⟨_, _, _, rfl⟩)]
    exact decoded_mem_ending_iff
  · rw [ending _ (Or.inl rfl), skipped_mem_ending_iff]
    refine exists_congr fun result => and_congr_right fun ok => (and_iff_left_of_imp ?_).symm
    intro none noErrors
    have tree := (tree_of_load ok).2.1.2 noErrors
    rw [none] at tree
    cases tree

end PrismTree
