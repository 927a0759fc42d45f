import PrismTree.Proofs.Constants.Table
import PrismTree.Proofs.Load.Success
import PrismTree.Proofs.Wire.Preamble

/-!
# The constants of a result

A result keeps the texts of exactly those constants that occur in its tree, and each text is the one
that the descriptor of the constant designates. The invariant is carried by the references alone:
what the pool keeps at the end is what was followed on the way, from a pool that keeps nothing.
-/
namespace PrismTree

variable {serialized source : ByteArray} {options : LoadOptions} {result : ParseResult}

/-- The constants that the tree of a result refers to; without a tree there are none. -/
def ParseResult.references (result : ParseResult) : List ConstantId :=
  result.root.elim [] Node.references

theorem ParseResult.mem_references_iff {id : ConstantId} :
    id ∈ result.references ↔
      ∃ root, result.root = some root ∧ ∃ node ∈ root.preorder, id ∈ node.constants := by
  unfold references
  cases result.root with
  | none => simp
  | some root => simp [Node.mem_references_iff]

/-- A load follows the references of its tree, in order, from a pool with nothing resolved. -/
theorem follows_of_load (loaded : load serialized source options = .ok result) :
    ∃ preamble position, Decoder.readPreamble.runFrom serialized 0 = .ok preamble position ∧
      result.encoding = preamble.heading.encoding ∧
      ∃ state state' : TreeState, ∃ stop,
        state.pool = .fresh preamble.heading.encoding preamble.pool ∧
        state.Follows ⟨serialized, source, options⟩ result.references stop state' ∧
        result.constants = state'.pool.constants := by
  obtain ⟨preamble, position, run, -, outcome⟩ := load_eq_ok_iff.1 loaded
  refine ⟨preamble, position, run, ?_⟩
  obtain ⟨-, rfl⟩ | ⟨-, root', pool', tree, rfl⟩ := outcome_eq_ok_iff.1 outcome
  · exact ⟨rfl, ⟨position, _, #[]⟩, ⟨position, _, #[]⟩, position, rfl,
      TreeState.follows_nil.2 rfl, rfl⟩
  · obtain ⟨root, reached, read, -, rfl, finished⟩ := treeOutcome_eq_ok_iff.1 tree
    obtain ⟨bytes, -, -, follows⟩ := TreeDecoder.exists_form_of_readNode read
    refine ⟨rfl, ⟨position, _, preamble.trace ⟨serialized, source, options⟩⟩, reached,
      position + bytes.length, rfl, ?_, rfl⟩
    show TreeState.Follows _ root'.references _ _ _
    rw [Node.references_of_finished finished]
    exact follows

namespace TreeState

variable {input : TreeInput} {state state' : TreeState} {ids : List ConstantId} {stop : Nat}
  {encoding : Encoding} {header : PoolHeader}

/-- What a pool with nothing resolved keeps after references is what they refer to, each with the
text that it spells. -/
theorem kept?_of_follows (fresh : state.pool = .fresh encoding header)
    (follows : state.Follows input ids stop state') :
    state'.pool.size = header.count.toNat ∧
      (∀ id, (state'.pool.kept? id).isSome ↔ id ∈ ids) ∧
      ∀ id text, state'.pool.kept? id = some text → encoding = .utf8 ∧
        (ConstantPool.fresh encoding header).Spells input.serialized input.source id text := by
  obtain ⟨after, run, rfl⟩ := follows
  have same := samePool_of_referAll? run
  rw [fresh] at same
  refine ⟨same.size.trans ConstantPool.size_fresh, fun id => ?_, fun id text kept => ?_⟩
  · rw [pool_moveTo, kept?_isSome_of_referAll? run, fresh, ConstantPool.kept?_fresh]
    simp
  · have faithful := isFaithful_of_referAll? run (by
      rw [fresh]
      exact ConstantPool.isFaithful_fresh _ _)
    obtain ⟨known, spells⟩ := faithful id text kept
    exact ⟨same.encoding.symm.trans known, same.spells_iff.1 spells⟩

end TreeState

/-- The constants of a result are exactly those of its tree: a constant has a text if and only if it
stands in some node, and the text is spelled by the bytes that its descriptor designates. In a
source that is not in UTF-8 there are none. -/
theorem constants_of_load (loaded : load serialized source options = .ok result) :
    ∃ preamble position, Decoder.readPreamble.runFrom serialized 0 = .ok preamble position ∧
      result.constants.size = preamble.pool.count.toNat ∧
      (∀ id, (result.constant? id).isSome ↔
        ∃ root, result.root = some root ∧ ∃ node ∈ root.preorder, id ∈ node.constants) ∧
      (∀ id text, result.constant? id = some text → ∃ start length : UInt32,
        StandsAt (Bytes.ofNat 4 start.toNat ++ Bytes.ofNat 4 length.toNat) serialized
          (preamble.pool.offset.toNat + 8 * (id.index.toNat - 1)) ∧
        ConstantPool.designated? serialized source start length = some text.toUTF8) ∧
      (result.constants.entries.Pairwise fun first second => first.1.index < second.1.index) ∧
      (∀ id text, (id, text) ∈ result.constants.entries ↔ result.constant? id = some text) ∧
      ∀ name, ∀ bytes ∈ Wire.text Varint.forms name, StandsAt bytes serialized 9 →
        name.map Char.toLower ≠ "utf-8" →
        (∀ id, result.constant? id = none) ∧
          ∀ root, result.root = some root → ∀ node ∈ root.preorder, node.constants = [] := by
  obtain ⟨preamble, position, run, -, state, state', stop, fresh, follows, same⟩ :=
    follows_of_load loaded
  obtain ⟨size, kept, spelled⟩ := TreeState.kept?_of_follows fresh follows
  have texts : ∀ id, result.constant? id = state'.pool.kept? id := by
    intro id
    rw [ParseResult.constant?, same]
    rfl
  have tableSize : result.constants.size = preamble.pool.count.toNat := by
    rw [same]
    exact size
  have small : result.constants.size < 2 ^ 32 := by
    rw [tableSize]
    exact preamble.pool.count.toNat_lt
  refine ⟨preamble, position, run, tableSize, fun id => ?_, fun id text found => ?_,
    ConstantTable.pairwise_entries small, fun id text => ConstantTable.mem_entries_iff small,
    fun name bytes form stands unknown => ?_⟩
  · rw [texts, kept, ParseResult.mem_references_iff]
  · rw [texts] at found
    obtain ⟨-, start, length, described, designated⟩ := spelled id text found
    refine ⟨start, length, ?_, designated⟩
    rwa [Nat.mul_comm]
  · have foreign : preamble.heading.encoding ≠ .utf8 := by
      rw [Decoder.encoding_eq_ofName run form stands, Encoding.ofName, if_neg unknown]
      exact Encoding.noConfusion
    have none : ∀ id, result.constant? id = none := by
      intro id
      cases found : result.constant? id with
      | none => rfl
      | some text =>
        rw [texts] at found
        exact absurd (spelled id text found).1 foreign
    refine ⟨none, fun root tree node member => List.eq_nil_iff_forall_not_mem.2 fun id stands => ?_⟩
    have some := (kept id).2 (ParseResult.mem_references_iff.2 ⟨root, tree, node, member, stands⟩)
    rw [← texts, none] at some
    cases some

/-- A tree with one node, the constant that the only byte of its source spells. -/
def singleConstant : ByteArray :=
  ⟨#[0x50, 0x52, 0x49, 0x53, 0x4D, 1, 3, 0, 0, 5, 85, 84, 70, 45, 56, 2, 1, 0, 0, 0, 0, 0, 0,
    34, 0, 0, 0, 1, 42, 1, 0, 1, 0, 1, 0, 0, 0, 0, 1, 0, 0, 0]⟩

theorem constants_of_load_singleConstant :
    ∃ result, load singleConstant ⟨#[65]⟩ = .ok result ∧ result.constants.size = 1 ∧
      ∀ id, (result.constant? id).isSome ↔
        ∃ root, result.root = some root ∧ ∃ node ∈ root.preorder, id ∈ node.constants := by
  have size : (load singleConstant ⟨#[65]⟩).toOption.map (·.constants.size) = some 1 := by
    decide +kernel
  cases loaded : load singleConstant ⟨#[65]⟩ with
  | error error =>
    rw [loaded] at size
    cases size
  | ok result =>
    rw [loaded] at size
    obtain ⟨_, _, -, -, occurs, -⟩ := constants_of_load loaded
    exact ⟨result, rfl, Option.some.inj size, occurs⟩

end PrismTree
