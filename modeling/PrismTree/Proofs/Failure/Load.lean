import PrismTree.Proofs.Failure.Sections
import PrismTree.Proofs.Failure.Tree

/-!
# What a failed load tells

The error of a load is marked with the first stage that fails: with a section in front of the tree,
with the tree, or with the marking of newlines. In a counted section the record follows, in the tree
the datum of the innermost node, and nothing follows that. Only a tree that ends in the wrong place
leaves no mark at all. What the cause of an error says agrees with the input.
-/
namespace PrismTree

/-- The state in which the tree behind a preamble is read. -/
def Preamble.treeState (preamble : Preamble) (input : TreeInput) (position : Nat) : TreeState :=
  ⟨position, .fresh preamble.heading.encoding preamble.pool, preamble.trace input⟩

/-- A load comes to a tree: everything in front of it is read, and no errors were reported. -/
structure ComesToTree (input : TreeInput) (preamble : Preamble) (start : Nat) : Prop where
  front : Decoder.readFront.runFrom input.serialized 0 = .ok preamble start
  parsed : preamble.remarks.errors = []

/-- A load fails in a stage that begins at `start`, and all stages in front of it succeed. -/
inductive FailsFirstIn (input : TreeInput) : Section → (start : Nat) → LoadError → Prop
  | front {before after : List Section} {stage : Section} {start stop : Nat} {error : LoadError}
    (order : Section.front = before ++ stage :: after)
    (earlier : (Decoder.readSections before).runFrom input.serialized 0 = .ok () start)
    (fails : stage.read.runFrom input.serialized start = .error error stop) :
    FailsFirstIn input stage start error
  | tree {preamble : Preamble} {start : Nat} {reached : TreeState} {error : LoadError}
    (earlier : ComesToTree input preamble start)
    (fails : TreeDecoder.readNode input.options.maxDepth input (preamble.treeState input start) =
      .error error reached) :
    FailsFirstIn input .nodeTree start error
  | lines {preamble : Preamble} {start : Nat} {root : Node} {reached : TreeState}
    {error : LineError} (earlier : ComesToTree input preamble start)
    (read : TreeDecoder.readNode input.options.maxDepth input (preamble.treeState input start) =
      .ok root reached) (ends : reached.position = preamble.pool.offset.toNat)
    (asked : input.options.markNewlines)
    (fails : root.marked (preamble.source input.source) = .error error) :
    FailsFirstIn input .newlineMarking reached.position (.ofCause (.line error))

/-- How a stage that begins at `start` fails: a section in front of the tree as it is or with one of
its records; the tree at a node, or in a datum of a node, which the error is marked with; the
marking of newlines with a line. -/
inductive Section.FailsAs (input : TreeInput) : Section → (start : Nat) → LoadError → Prop
  | front {stage : Section} {start : Nat} {error : LoadError} (listed : stage ∈ Section.front)
    (fails : stage.FailsFrom input start error) :
    FailsAs input stage start error
  | node {start levels inner : Nat} {cause : LoadError.Cause}
    (shallow : levels ≤ input.options.maxDepth)
    (descends : Descends input.rules input.serialized levels start inner)
    (fails : FailsOutsideData input (input.options.maxDepth - levels) inner cause) :
    FailsAs input .nodeTree start (.ofCause cause)
  | datum {start levels inner offset : Nat} {kind : Kind} {part : NodePart} {pool : ConstantPool}
    {cause : LoadError.Cause} (shallow : levels < input.options.maxDepth)
    (descends : Descends input.rules input.serialized levels start inner)
    (declared : input.Declares pool)
    (fails : FailsInDatum input pool inner kind part offset (.ofCause cause)) :
    FailsAs input .nodeTree start (.within (.inField kind part.name offset) (.ofCause cause))
  | lines {preamble : Preamble} {start stop : Nat} {root : Node} {error : LineError}
    (read : Decoder.readPreamble.runFrom input.serialized 0 = .ok preamble stop)
    (fails : root.marked (preamble.source input.source) = .error error) :
    FailsAs input .newlineMarking start (.ofCause (.line error))

variable {input : TreeInput} {stage : Section} {preamble : Preamble} {start : Nat}
  {error : LoadError}

/-- A tree fails, or it ends in the wrong place, or one of its lines is not found. -/
theorem treeOutcome_eq_error {source : Source} {pool : ConstantPool} {trace : Trace}
    (run : treeOutcome input source pool start trace = .error error) :
    (∃ inner reached, TreeDecoder.readNode input.options.maxDepth input ⟨start, pool, trace⟩ =
      .error inner reached ∧ error = inner.within (.ofSection .nodeTree)) ∨
    ∃ root reached, TreeDecoder.readNode input.options.maxDepth input ⟨start, pool, trace⟩ =
      .ok root reached ∧
      (reached.position ≠ pool.tableOffset ∧
          error = .ofCause (.trailingBytes pool.tableOffset reached.position) ∨
        reached.position = pool.tableOffset ∧ input.options.markNewlines ∧
          ∃ line, root.marked source = .error line ∧ error = .ofLine line) := by
  unfold treeOutcome at run
  cases read : TreeDecoder.readNode input.options.maxDepth input ⟨start, pool, trace⟩ with
  | error inner reached =>
    rw [read] at run
    cases run
    exact Or.inl ⟨inner, reached, rfl, rfl⟩
  | ok root reached =>
    rw [read] at run
    dsimp only at run
    refine Or.inr ⟨root, reached, rfl, ?_⟩
    by_cases ends : reached.position = pool.tableOffset
    · rw [if_pos ends, Node.finished] at run
      by_cases asked : input.options.markNewlines
      · rw [if_pos asked] at run
        cases marked : root.marked source with
        | ok tree =>
          rw [marked] at run
          cases run
        | error line =>
          rw [marked] at run
          cases run
          exact Or.inr ⟨ends, asked, line, rfl, rfl⟩
      · rw [if_neg asked] at run
        cases run
    · rw [if_neg ends] at run
      cases run
      exact Or.inl ⟨ends, rfl⟩

/-- A load that fails does so in a stage, or behind its tree. -/
theorem load_eq_error {serialized source : ByteArray} {options : LoadOptions}
    (failed : load serialized source options = .error error) :
    (∃ stage start inner, FailsFirstIn ⟨serialized, source, options⟩ stage start inner ∧
      error = inner.within (.ofSection stage)) ∨
    ∃ preamble start root reached, ComesToTree ⟨serialized, source, options⟩ preamble start ∧
      TreeDecoder.readNode options.maxDepth ⟨serialized, source, options⟩
        (preamble.treeState ⟨serialized, source, options⟩ start) = .ok root reached ∧
      reached.position ≠ preamble.pool.offset.toNat ∧
      error = .ofCause (.trailingBytes preamble.pool.offset.toNat reached.position) := by
  rw [load_eq_of_readFront] at failed
  cases front : Decoder.readFront.runFrom serialized 0 with
  | error error' stop =>
    rw [front] at failed
    cases failed
    have sections : (Decoder.readSections Section.front).runFrom serialized 0 =
        .error error stop := by
      rw [← Decoder.forget_readFront]
      exact Decoder.map_eq_error_iff.2 front
    obtain ⟨before, stage, after, middle, inner, order, earlier, fails, rfl⟩ :=
      Decoder.readSections_eq_error sections
    exact Or.inl ⟨stage, middle, inner, .front order earlier fails, rfl⟩
  | ok preamble start =>
    rw [front] at failed
    dsimp only at failed
    unfold Preamble.outcome at failed
    by_cases parsed : preamble.remarks.errors = []
    · rw [if_pos (List.isEmpty_iff.2 parsed)] at failed
      have comes : ComesToTree ⟨serialized, source, options⟩ preamble start := ⟨front, parsed⟩
      cases tree : treeOutcome ⟨serialized, source, options⟩ (preamble.source source)
          (.fresh preamble.heading.encoding preamble.pool) start
          (preamble.trace ⟨serialized, source, options⟩) with
      | ok found =>
        rw [tree] at failed
        cases failed
      | error error' =>
        rw [tree] at failed
        cases failed
        obtain ⟨inner, reached, fails, rfl⟩ | ⟨root, reached, read, ⟨trails, rfl⟩ |
          ⟨ends, asked, line, fails, rfl⟩⟩ := treeOutcome_eq_error tree
        · exact Or.inl ⟨.nodeTree, start, inner, .tree comes fails, rfl⟩
        · exact Or.inr ⟨preamble, start, root, reached, comes, read, trails, rfl⟩
        · exact Or.inl ⟨.newlineMarking, _, _, .lines comes read ends asked fails, rfl⟩
    · rw [if_neg fun none => parsed (List.isEmpty_iff.1 none)] at failed
      cases failed

namespace ComesToTree

variable (comes : ComesToTree input preamble start)

include comes

theorem readPreamble :
    Decoder.readPreamble.runFrom input.serialized 0 = .ok preamble start :=
  (Decoder.readFront_eq_ok_iff.1 comes.front).1

theorem le_size : start ≤ input.serialized.size :=
  (Decoder.reads_readPreamble.advances 0 preamble start (Nat.zero_le _) comes.readPreamble).2

theorem declares :
    input.Declares (.fresh preamble.heading.encoding preamble.pool) := by
  refine ⟨⟨preamble, start, comes.readPreamble, rfl⟩, ?_⟩
  rw [ConstantPool.IsInside, ConstantPool.size_fresh]
  exact (Decoder.readFront_eq_ok_iff.1 comes.front).2

theorem offset_le_size : preamble.pool.offset.toNat ≤ input.serialized.size := by
  have room := (Decoder.readFront_eq_ok_iff.1 comes.front).2
  omega

end ComesToTree

/-- A tree that fails does so at one node. -/
theorem ComesToTree.failsAs {reached : TreeState} (comes : ComesToTree input preamble start)
    (run : TreeDecoder.readNode input.options.maxDepth input (preamble.treeState input start) =
      .error error reached) :
    Section.nodeTree.FailsAs input start error := by
  obtain ⟨levels, inner, shallow, descends, stops⟩ :=
    TreeDecoder.readNode_eq_error comes.le_size (.refl _) run
  generalize left : input.options.maxDepth - levels = depth at stops
  cases stops with
  | outside fails =>
    subst left
    exact .node shallow descends fails
  | @datum depth _ offset kind part plain fails =>
    have unmarked := (fails.isPlainFrom comes.declares).contexts
    obtain ⟨contexts, cause⟩ := plain
    cases unmarked
    exact .datum (by omega) descends comes.declares fails

theorem FailsFirstIn.failsAs (first : FailsFirstIn input stage start error) :
    stage.FailsAs input start error := by
  cases first with
  | @front before after stage start stop error order earlier fails =>
    have listed : stage ∈ Section.front := by
      rw [order]
      exact List.mem_append_right before List.mem_cons_self
    obtain ⟨-, inside⟩ :=
      Section.advances_readSections before 0 () start (Nat.zero_le _) earlier
    exact .front listed (Section.failsFrom_of_read inside fails)
  | tree earlier fails => exact earlier.failsAs fails
  | lines earlier read ends asked fails => exact .lines earlier.readPreamble fails

namespace Section.FailsAs

variable (fails : stage.FailsAs input start error)

include fails

theorem isTrueOf : error.cause.IsTrueOf input := by
  cases fails with
  | front listed fails => exact fails.met.isTrueOf
  | node shallow descends fails => exact fails.isTrueOf
  | datum shallow descends declared fails => exact (fails.isPlainFrom declared).cause.isTrueOf
  | lines read fails => exact ⟨_, _, _, read, fails⟩

theorem ne_trailingBytes (expected actual : Nat) :
    error.cause ≠ .trailingBytes expected actual := by
  cases fails with
  | front listed fails => exact fails.met.ne_trailingBytes expected actual
  | node shallow descends fails => exact fails.ne_trailingBytes expected actual
  | datum shallow descends declared fails =>
    exact (fails.isPlainFrom declared).cause.ne_trailingBytes expected actual
  | lines read fails => nofun

/-- A stage puts at most one mark on its errors. -/
theorem length_contexts_le : error.contexts.length ≤ 1 := by
  cases fails with
  | front listed fails =>
    obtain none | ⟨kind, index, one⟩ := fails.contexts
    · rw [none]
      exact Nat.zero_le 1
    · rw [one]
      exact Nat.le_refl 1
  | node shallow descends fails => exact Nat.zero_le 1
  | datum shallow descends declared fails => exact Nat.le_refl 1
  | lines read fails => exact Nat.zero_le 1

/-- What only a node as a whole can have wrong leaves no mark in the tree. -/
theorem contexts_of_isOfNode (whole : error.cause.IsOfNode) :
    stage = .nodeTree ∧ error.contexts = [] := by
  cases fails with
  | front listed fails => exact absurd whole fails.met.not_isOfNode
  | node shallow descends fails => exact ⟨rfl, rfl⟩
  | datum shallow descends declared fails =>
    exact absurd whole (fails.isPlainFrom declared).cause.not_isOfNode
  | lines read fails => exact whole.elim

/-- A read that failed in a datum failed there or behind it. -/
theorem offset_le_of_mem {kind : Kind} {field : String} {offset : Nat} {read : ReadError}
    (marked : .inField kind field offset ∈ error.contexts) (cause : error.cause = .read read) :
    offset ≤ read.offset ∧ read.offset ≤ input.serialized.size := by
  cases fails with
  | front listed fails =>
    obtain none | ⟨kind', index, one⟩ := fails.contexts
    · rw [none] at marked
      cases marked
    · rw [one] at marked
      cases List.mem_singleton.1 marked
  | node shallow descends fails => cases marked
  | datum shallow descends declared fails =>
    cases List.mem_singleton.1 marked
    cases cause
    obtain ⟨le, holds⟩ := (fails.isPlainFrom declared).cause
    exact ⟨le, holds.offset_le⟩
  | lines read fails => cases marked

end Section.FailsAs

/-- Where a tree ends is inside the buffer, and so is where it should have ended. -/
theorem ComesToTree.isTrueOf_trailingBytes {root : Node} {reached : TreeState}
    (comes : ComesToTree input preamble start)
    (read : TreeDecoder.readNode input.options.maxDepth input (preamble.treeState input start) =
      .ok root reached) (trails : reached.position ≠ preamble.pool.offset.toNat) :
    (LoadError.Cause.trailingBytes preamble.pool.offset.toNat reached.position).IsTrueOf input := by
  obtain ⟨-, inside, -⟩ :=
    (TreeDecoder.reads_readNode input _).advances _ root reached comes.le_size read
  exact ⟨trails.symm, comes.offset_le_size, inside⟩

/-- The marks of an error tell where it came about: first the stage that fails, all stages in front
of it succeeding, and then at most the record or the datum that fails in it. There is no mark
exactly if the tree ends in the wrong place. -/
theorem contexts_of_load {serialized source : ByteArray} {options : LoadOptions}
    (failed : load serialized source options = .error error) :
    (error.contexts = [] ↔ ∃ expected actual, error.cause = .trailingBytes expected actual) ∧
    (error.contexts ≠ [] → ∃ stage start inner, error = inner.within (.ofSection stage) ∧
      FailsFirstIn ⟨serialized, source, options⟩ stage start inner ∧
      stage.FailsAs ⟨serialized, source, options⟩ start inner) ∧
    error.contexts.length ≤ 2 ∧
    (error.cause.IsOfNode → error.contexts = [.ofSection .nodeTree]) := by
  obtain ⟨stage, start, inner, first, rfl⟩ | ⟨preamble, start, root, reached, -, -, -, rfl⟩ :=
    load_eq_error failed
  · have fails := first.failsAs
    refine ⟨⟨nofun, fun h => ?_⟩, fun _ => ⟨stage, start, inner, rfl, first, fails⟩,
      Nat.succ_le_succ fails.length_contexts_le, fun whole => ?_⟩
    · obtain ⟨expected, actual, trails⟩ := h
      exact absurd trails (fails.ne_trailingBytes expected actual)
    · obtain ⟨rfl, none⟩ := fails.contexts_of_isOfNode whole
      rw [LoadError.contexts_within, none]
  · exact ⟨⟨fun _ => ⟨_, _, rfl⟩, fun _ => rfl⟩, fun marked => absurd rfl marked, Nat.zero_le 2,
      False.elim⟩

/-- A buffer that ends behind the tag of its only node. -/
def cutBehindTag : ByteArray :=
  ⟨#[0x50, 0x52, 0x49, 0x53, 0x4D, 1, 3, 0, 0, 5, 85, 84, 70, 45, 56, 2, 1, 0, 0, 0, 0, 0, 0,
    29, 0, 0, 0, 0, 42]⟩

theorem load_cutBehindTag :
    load cutBehindTag ⟨#[]⟩ = .error (.within (.ofSection .nodeTree)
      (.within (.inField .constantReadNode "node_id" 29)
        (.ofCause (.read (.truncated 29 1 0))))) :=
  rfl

theorem contexts_of_load_cutBehindTag :
    ∃ error, load cutBehindTag ⟨#[]⟩ = .error error ∧ error.contexts.length = 2 ∧
      ∃ stage start inner, error = inner.within (.ofSection stage) ∧
        FailsFirstIn ⟨cutBehindTag, ⟨#[]⟩, {}⟩ stage start inner ∧
        stage.FailsAs ⟨cutBehindTag, ⟨#[]⟩, {}⟩ start inner :=
  ⟨_, load_cutBehindTag, rfl, (contexts_of_load load_cutBehindTag).2.1 nofun⟩

/-- What the cause of an error says is true of the input. Where a read failed in a datum, it failed
between the place of this datum and the end of the buffer. -/
theorem cause_of_load {serialized source : ByteArray} {options : LoadOptions}
    (failed : load serialized source options = .error error) :
    error.cause.IsTrueOf ⟨serialized, source, options⟩ ∧
    ∀ kind field offset read, .inField kind field offset ∈ error.contexts →
      error.cause = .read read → offset ≤ read.offset ∧ read.offset ≤ serialized.size := by
  obtain ⟨stage, start, inner, first, rfl⟩ | ⟨preamble, start, root, reached, comes, run, trails,
    rfl⟩ := load_eq_error failed
  · have fails := first.failsAs
    refine ⟨fails.isTrueOf, fun kind field offset read marked cause => ?_⟩
    obtain same | marked := List.mem_cons.1 marked
    · cases same
    · exact fails.offset_le_of_mem marked cause
  · refine ⟨comes.isTrueOf_trailingBytes run trails, ?_⟩
    intro kind field offset read marked
    cases marked

theorem cause_of_load_cutBehindTag :
    ∃ error read, load cutBehindTag ⟨#[]⟩ = .error error ∧ error.cause = .read read ∧
      error.cause.IsTrueOf ⟨cutBehindTag, ⟨#[]⟩, {}⟩ ∧ 29 ≤ read.offset ∧
      read.offset ≤ cutBehindTag.size := by
  obtain ⟨holds, behind⟩ := cause_of_load load_cutBehindTag
  have marked : .inField .constantReadNode "node_id" 29 ∈
      [LoadError.Context.ofSection .nodeTree, .inField .constantReadNode "node_id" 29] :=
    List.mem_cons_of_mem _ List.mem_cons_self
  exact ⟨_, _, load_cutBehindTag, rfl, holds, behind _ _ _ _ marked rfl⟩

end PrismTree
