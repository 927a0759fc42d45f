import PrismTree.Proofs.Load.Outcome
import PrismTree.Proofs.Node.Preorder
import PrismTree.Proofs.Wire.Tree

/-!
# Successful loads

A load succeeds exactly if its preamble can be read, the pool has room in the buffer, and, unless
errors were reported, the tree stands between the preamble and the pool and its newlines can be
marked.
-/
namespace PrismTree

namespace ConstantPool

variable {encoding : Encoding} {bufferSize : Nat} {header : PoolHeader} {pool : ConstantPool}

/-- A pool as its header places it, with nothing resolved. -/
def fresh (encoding : Encoding) (header : PoolHeader) : ConstantPool :=
  ⟨encoding, header.offset.toNat, Array.replicate header.count.toNat none, 0⟩

theorem ofHeader_eq_ok_iff :
    ofHeader encoding bufferSize header = .ok pool ↔
      pool = fresh encoding header ∧
        header.count.toNat * descriptorSize + header.offset.toNat ≤ bufferSize := by
  rw [ofHeader]
  split
  · next outside =>
    simp only [reduceCtorEq, false_iff, not_and]
    omega
  · next inside =>
    rw [Except.ok.injEq, eq_comm]
    exact (and_iff_left (Nat.le_of_not_lt inside)).symm

theorem size_fresh : (fresh encoding header).size = header.count.toNat :=
  Array.size_replicate

theorem kept?_fresh (id : ConstantId) : (fresh encoding header).kept? id = none := by
  rw [kept?, constants, ConstantTable.get?, fresh, Array.getElem?_replicate]
  split <;> rfl

theorem isFaithful_fresh (serialized source : ByteArray) :
    (fresh encoding header).IsFaithful serialized source := by
  intro id text kept
  rw [kept?_fresh] at kept
  cases kept

end ConstantPool

namespace Node

variable {options : LoadOptions} {source : Source} {root root' : Node}

theorem marked_eq_ok_iff :
    root.marked source = .ok root' ↔
      (root.markNewlines source #[]).2.failure = none ∧
        (root.markNewlines source #[]).1 = root' := by
  unfold Node.marked
  obtain ⟨tree, marking⟩ := root.markNewlines source #[]
  dsimp only
  cases marking.failure <;> simp

theorem unmark_of_marked (marked : root.marked source = .ok root') :
    root'.unmark = root.unmark := by
  rw [← (marked_eq_ok_iff.1 marked).2]
  exact unmark_mark source false root _

theorem unmark_of_finished (finished : root.finished options source = .ok root') :
    root'.unmark = root.unmark := by
  unfold Node.finished at finished
  split at finished
  · cases marked : root.marked source with
    | error error =>
      rw [marked] at finished
      cases finished
    | ok tree =>
      rw [marked] at finished
      cases finished
      exact unmark_of_marked marked
  · cases finished
    rfl

/-- The marking of newlines keeps the references. -/
theorem references_of_finished (finished : root.finished options source = .ok root') :
    root'.references = root.references := by
  rw [← root'.references_unmark, unmark_of_finished finished, root.references_unmark]

end Node

variable {input : TreeInput} {source : Source} {pool pool' : ConstantPool} {position : Nat}
  {trace : Trace} {root' : Node}

/-- A tree is there if its reading ends where the pool begins and its newlines can be marked. -/
theorem treeOutcome_eq_ok_iff :
    treeOutcome input source pool position trace = .ok (root', pool') ↔
      ∃ root reached, TreeDecoder.readNode input.options.maxDepth input ⟨position, pool, trace⟩ =
        .ok root reached ∧ reached.position = pool.tableOffset ∧ reached.pool = pool' ∧
          root.finished input.options source = .ok root' := by
  unfold treeOutcome
  cases TreeDecoder.readNode input.options.maxDepth input ⟨position, pool, trace⟩ with
  | error error reached => simp
  | ok root reached =>
    simp only [EStateM.Result.ok.injEq]
    by_cases ends : reached.position = pool.tableOffset
    · rw [if_pos ends]
      cases finished : root.finished input.options source with
      | error error =>
        constructor
        · intro run
          cases run
        · intro h
          obtain ⟨_, _, ⟨rfl, rfl⟩, -, -, run⟩ := h
          rw [finished] at run
          cases run
      | ok tree =>
        constructor
        · intro run
          cases run
          exact ⟨root, reached, ⟨rfl, rfl⟩, ends, rfl, finished⟩
        · intro h
          obtain ⟨_, _, ⟨rfl, rfl⟩, -, rfl, run⟩ := h
          rw [finished] at run
          cases run
          rfl
    · rw [if_neg ends]
      constructor
      · intro run
        cases run
      · intro h
        obtain ⟨_, _, ⟨rfl, rfl⟩, there, -⟩ := h
        exact absurd there ends

/-- What a successful load has read: the preamble, and without errors a tree up to the pool. -/
theorem load_eq_ok_iff {serialized bytes : ByteArray} {options : LoadOptions}
    {result : ParseResult} :
    load serialized bytes options = .ok result ↔
      ∃ preamble position, Decoder.readPreamble.runFrom serialized 0 = .ok preamble position ∧
        preamble.pool.count.toNat * ConstantPool.descriptorSize + preamble.pool.offset.toNat ≤
          serialized.size ∧
        preamble.outcome ⟨serialized, bytes, options⟩ position
          (.fresh preamble.heading.encoding preamble.pool) = .ok result := by
  rw [load_eq]
  cases Decoder.readPreamble.runFrom serialized 0 with
  | error error position => simp
  | ok preamble position =>
    simp only [EStateM.Result.ok.injEq]
    cases placed :
      ConstantPool.ofHeader preamble.heading.encoding serialized.size preamble.pool with
    | error error =>
      constructor
      · intro run
        cases run
      · intro h
        obtain ⟨_, _, ⟨rfl, rfl⟩, inside, -⟩ := h
        rw [ConstantPool.ofHeader_eq_ok_iff.2 ⟨rfl, inside⟩] at placed
        cases placed
    | ok pool =>
      obtain ⟨rfl, inside⟩ := ConstantPool.ofHeader_eq_ok_iff.1 placed
      constructor
      · intro run
        exact ⟨preamble, position, ⟨rfl, rfl⟩, inside, run⟩
      · intro h
        obtain ⟨_, _, ⟨rfl, rfl⟩, -, run⟩ := h
        exact run

/-- Behind a preamble without errors, a load is its tree. -/
theorem load_eq_treeOutcome {serialized bytes : ByteArray} {options : LoadOptions}
    {preamble : Preamble} (run : Decoder.readPreamble.runFrom serialized 0 = .ok preamble position)
    (room : preamble.pool.count.toNat * ConstantPool.descriptorSize +
      preamble.pool.offset.toNat ≤ serialized.size) (none : preamble.remarks.errors = []) :
    load serialized bytes options =
      (treeOutcome ⟨serialized, bytes, options⟩ (preamble.source bytes)
        (.fresh preamble.heading.encoding preamble.pool) position
        (preamble.trace ⟨serialized, bytes, options⟩)).map
          fun (root, pool) => preamble.result bytes (some root) pool.constants := by
  have placed : ConstantPool.ofHeader preamble.heading.encoding serialized.size preamble.pool =
      .ok (.fresh preamble.heading.encoding preamble.pool) :=
    ConstantPool.ofHeader_eq_ok_iff.2 ⟨rfl, room⟩
  rw [load_eq, run]
  simp only [placed]
  unfold Preamble.outcome
  rw [if_pos (List.isEmpty_iff.2 none)]

theorem outcome_eq_ok_iff {preamble : Preamble} {result : ParseResult} :
    preamble.outcome input position pool = .ok result ↔
      (preamble.remarks.errors ≠ [] ∧
        result = preamble.result input.source none pool.constants) ∨
      (preamble.remarks.errors = [] ∧ ∃ root' pool',
        treeOutcome input (preamble.source input.source) pool position (preamble.trace input) =
          .ok (root', pool') ∧
        result = preamble.result input.source (some root') pool'.constants) := by
  unfold Preamble.outcome
  by_cases none : preamble.remarks.errors = []
  · rw [if_pos (List.isEmpty_iff.2 none)]
    constructor
    · intro run
      cases tree : treeOutcome input (preamble.source input.source) pool position
          (preamble.trace input) with
      | error error =>
        rw [tree] at run
        cases run
      | ok found =>
        rw [tree] at run
        cases run
        exact Or.inr ⟨none, found.1, found.2, rfl, rfl⟩
    · rintro (⟨some, -⟩ | ⟨-, root', pool', tree, rfl⟩)
      · exact absurd none some
      · rw [tree]
        rfl
  · rw [if_neg fun empty => none (List.isEmpty_iff.1 empty), Except.ok.injEq, eq_comm]
    simp [none]

/-- A load keeps its source, and has a tree unless there are errors; the tree is nested no deeper
than it may be. -/
theorem tree_of_load {serialized source : ByteArray} {options : LoadOptions} {result : ParseResult}
    (loaded : load serialized source options = .ok result) :
    result.source.bytes = source ∧ (result.root.isSome ↔ result.errors = []) ∧
      ∀ root ∈ result.root, root.unmark.height ≤ options.maxDepth := by
  obtain ⟨preamble, position, -, -, outcome⟩ := load_eq_ok_iff.1 loaded
  obtain ⟨failed, rfl⟩ | ⟨none, root', pool', tree, rfl⟩ := outcome_eq_ok_iff.1 outcome
  · refine ⟨rfl, ⟨fun present => Bool.noConfusion present, fun none => absurd none failed⟩, ?_⟩
    intro root member
    cases member
  · refine ⟨rfl, ⟨fun _ => none, fun _ => rfl⟩, fun root member => ?_⟩
    cases member
    obtain ⟨root, reached, read, -, rfl, finished⟩ := treeOutcome_eq_ok_iff.1 tree
    obtain ⟨bytes, form, -, -⟩ := TreeDecoder.exists_form_of_readNode read
    obtain ⟨⟨shallow, plain⟩, -⟩ := mem_provided_mul.1 form
    have same : root'.unmark = root := (Node.unmark_of_finished finished).trans plain
    rw [same]
    exact shallow

end PrismTree
