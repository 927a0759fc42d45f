import PrismTree.Proofs.Load.RoundTrip

/-!
# Writing a result again

A result that was loaded can be written, and what is written is loaded as the same result. It does
not matter how the first buffer was written: which forms its numbers had, where its strings and its
constants lay, whether the lengths of its method definitions were right, what stood behind its
pool. A load keeps nothing of this, and what it keeps satisfies the conditions under which a
document is loaded back.
-/
namespace PrismTree

theorem Encoding.ofName_name_ofName (name : String) : ofName (ofName name).name = ofName name := by
  by_cases known : ofName name = .utf8
  · rw [known, ofName_name_utf8]
  · have kept : ofName name = .unsupported name := by
      unfold ofName at known ⊢
      split at known
      · exact absurd rfl known
      · next foreign => exact if_neg foreign
    rw [kept]
    exact kept

/-- A constant with the given text, which the buffer holds itself; without a text, an empty part of
the source. -/
def PoolEntry.ofText? : Option String → PoolEntry
  | none => .quoted 0 0
  | some text => .owned text.toUTF8

theorem PoolEntry.text?_ofText? (source : ByteArray) (text : String) :
    (ofText? (some text)).text? source = some text :=
  fromUTF8?_eq_some_iff.2 rfl

/-- Whatever lies in a buffer of less than 2³¹ bytes can be counted. -/
theorem Document.isCountable_of_size_lt {document : Document} {tree : List UInt8}
    (small : (document.assemble tree).size < 2 ^ 31) : document.IsCountable tree := by
  have room := @pool_le_size document tree
  have bit : ConstantPool.ownedBit = 2 ^ 31 := rfl
  rw [ownedOffset, ConstantPool.descriptorSize] at room
  refine ⟨by omega, by omega, fun slot bytes found => ?_⟩
  have inside := (@owned_stands document tree slot bytes found).add_length_le
  have size : bytes.data.toList.length = bytes.size := rfl
  exact ⟨by omega, by omega⟩

namespace ParseResult

/-- The document that a result is written as. The tree loses its newline marks, which are never
written, and every constant with a text becomes part of the buffer. A result without a tree has
errors, and a document with errors is written without its tree. -/
def document (result : ParseResult) : Document where
  encodingName := result.encoding.name
  startLine := result.source.startLine
  lineOffsets := result.source.lineOffsets.toList
  remarks := ⟨result.comments, result.magicComments, result.dataLocation, result.errors,
    result.warnings⟩
  root := (result.root.getD ⟨.missingNode, 0, ⟨0, 0⟩, .empty, false, .nil⟩).unmark
  constants := result.constants.slots.toList.map .ofText?

/-- What every result without newline marks satisfies that was loaded with a source: it is a
document that can be loaded back. -/
structure IsRegular (result : ParseResult) (source : ByteArray) (maxDepth : Nat) : Prop where
  bytes_eq : result.source.bytes = source
  encoding_eq : .ofName result.encoding.name = result.encoding
  root_isSome : result.root.isSome ↔ result.errors = []
  unmarked : ∀ root ∈ result.root, root.IsUnmarked
  height_le : ∀ root ∈ result.root, root.height ≤ maxDepth
  size_lt : result.constants.size < 2 ^ 32
  text_isSome : ∀ id, (result.constants.get? id).isSome ↔ id ∈ result.references
  readable : ∀ id ∈ result.references, result.encoding = .utf8

namespace IsRegular

variable {result : ParseResult} {source : ByteArray} {maxDepth : Nat} {id : ConstantId}
  {root : Node}

theorem errors_eq_nil (regular : result.IsRegular source maxDepth)
    (tree : result.root = some root) : result.errors = [] :=
  regular.root_isSome.1 (tree ▸ rfl)

theorem errors_ne_nil (regular : result.IsRegular source maxDepth) (tree : result.root = none) :
    result.errors ≠ [] := by
  intro none
  have some := regular.root_isSome.2 none
  rw [tree] at some
  cases some

theorem document_root (regular : result.IsRegular source maxDepth)
    (tree : result.root = some root) : result.document.root = root := by
  rw [document, tree]
  exact regular.unmarked root tree

theorem document_references (regular : result.IsRegular source maxDepth) :
    result.document.references = result.references := by
  unfold Document.references references
  cases tree : result.root with
  | none => exact if_neg (regular.errors_ne_nil tree)
  | some root =>
    rw [regular.document_root tree]
    exact if_pos (regular.errors_eq_nil tree)

/-- The document has the texts that the result has. -/
theorem text?_document {text : String} (found : result.constants.get? id = some text) :
    result.document.text? source id = some text := by
  have listed := ConstantTable.get?_eq_some_iff.1 found
  show ((result.constants.slots.toList.map PoolEntry.ofText?)[id.slot]?).bind _ = _
  rw [List.getElem?_map, Array.getElem?_toList, listed]
  exact PoolEntry.text?_ofText? source text

theorem document_table (regular : result.IsRegular source maxDepth) :
    result.document.table source = result.constants := by
  have size : (result.document.table source).size = result.constants.size := by
    rw [Document.size_table, document, List.length_map, Array.length_toList]
    rfl
  refine ConstantTable.eq_of_get? size (size ▸ regular.size_lt) fun id => ?_
  rw [Document.get?_table, regular.document_references]
  cases found : result.constants.get? id with
  | none =>
    have absent : id ∉ result.references := fun member => by
      have some := (regular.text_isSome id).2 member
      rw [found] at some
      cases some
    rw [if_neg absent]
  | some text =>
    have member := (regular.text_isSome id).1 (found ▸ rfl)
    rw [if_pos member, text?_document found]

/-- The document has a tree exactly if the result has it. -/
theorem document_tree (regular : result.IsRegular source maxDepth) :
    (result.document.result source).root = result.root := by
  show (if result.errors = [] then some result.document.root else none) = result.root
  cases tree : result.root with
  | none => rw [if_neg (regular.errors_ne_nil tree)]
  | some root => rw [if_pos (regular.errors_eq_nil tree), regular.document_root tree]

/-- The result is what its document says. -/
theorem document_result (regular : result.IsRegular source maxDepth) :
    result.document.result source = result := by
  have tree := regular.document_tree
  have lines : (result.document.result source).source = result.source := by
    rw [← regular.bytes_eq]
    rfl
  have table := regular.document_table
  have encoding := regular.encoding_eq
  obtain ⟨⟩ := result
  exact (ParseResult.mk.injEq ..).mpr ⟨tree, rfl, rfl, rfl, rfl, rfl, lines, table, encoding⟩

theorem isLoadable (regular : result.IsRegular source maxDepth) (none : result.errors = []) :
    result.document.IsLoadable source maxDepth := by
  obtain ⟨root, tree⟩ := Option.isSome_iff_exists.1 (regular.root_isSome.2 none)
  have same := regular.document_root tree
  refine ⟨?_, ?_, fun id member => ?_⟩
  · rw [same]
    exact regular.unmarked root tree
  · rw [same]
    exact regular.height_le root tree
  · have member : id ∈ result.references := by
      rw [references, tree]
      exact same ▸ member
    obtain ⟨text, found⟩ := Option.isSome_iff_exists.1 ((regular.text_isSome id).2 member)
    refine ⟨regular.encoding_eq.trans (regular.readable id member), ?_⟩
    rw [text?_document found]
    rfl

end IsRegular

end ParseResult

variable {serialized source : ByteArray} {options : LoadOptions} {result : ParseResult}

theorem isRegular_of_load (loaded : load serialized source (options.marking false) = .ok result) :
    result.IsRegular source options.maxDepth := by
  obtain ⟨bytes, isSome, shallow⟩ := tree_of_load loaded
  obtain ⟨_, _, run, encoding, state, state', stop, fresh, follows, constants⟩ :=
    follows_of_load loaded
  obtain ⟨size, kept, spelled⟩ := TreeState.kept?_of_follows fresh follows
  obtain ⟨name, named, -⟩ := Decoder.encoding_of_readPreamble run
  refine ⟨bytes, ?_, isSome, fun root tree => isUnmarked_of_load loaded tree, fun root tree => ?_,
    ?_, fun id => ?_, fun id member => ?_⟩
  · rw [encoding, named, Encoding.ofName_name_ofName]
  · have plain : root.unmark = root := isUnmarked_of_load loaded tree
    rw [← plain]
    exact shallow root tree
  · have small : state'.pool.size < 2 ^ 32 := size ▸ UInt32.toNat_lt _
    rw [constants]
    exact small
  · rw [constants]
    exact kept id
  · obtain ⟨text, found⟩ := Option.isSome_iff_exists.1 ((kept id).2 member)
    exact encoding.trans (spelled id text found).1

/-- Without newline marks, a result is loaded back from its document. -/
theorem load_document (loaded : load serialized source (options.marking false) = .ok result)
    (small : result.document.serialize.size < 2 ^ 31) :
    load result.document.serialize source (options.marking false) = .ok result := by
  have regular := isRegular_of_load loaded
  obtain ⟨tree, countable, form, written⟩ :=
    @Document.isWrittenAs_serialize _ source (Document.isCountable_of_size_lt small)
  have back := Document.load_assemble countable form regular.isLoadable
  rw [written, back, regular.document_result]

/-- Newline marks are not written. -/
theorem ParseResult.document_of_marked {result' : ParseResult}
    (marked : result.marked = .ok result') : result'.document = result.document := by
  unfold ParseResult.marked at marked
  cases tree : result.root with
  | none =>
    rw [tree] at marked
    cases marked
    rfl
  | some root =>
    rw [tree] at marked
    dsimp only at marked
    cases run : root.marked result.source with
    | error error =>
      rw [run] at marked
      cases marked
    | ok root' =>
      rw [run] at marked
      cases marked
      have same : root'.unmark = root.unmark := Node.unmark_of_marked run
      simp only [document, tree, Option.getD_some, same]

/-- What a load returns can be written and loaded again: if its document takes less than 2³¹ bytes,
a load of it with the same source and the same options returns the same result, whatever buffer the
result came from. -/
theorem load_rewritten (loaded : load serialized source options = .ok result) :
    (result.root.isSome ↔ result.errors = []) ∧
    (result.document.serialize.size < 2 ^ 31 →
      load result.document.serialize source options = .ok result) := by
  refine ⟨(tree_of_load loaded).2.1, fun small => ?_⟩
  by_cases marks : options.markNewlines = true
  · have same : options = options.marking true := by
      rw [LoadOptions.marking, ← marks]
    rw [same, load_marking] at loaded ⊢
    cases plainly : load serialized source (options.marking false) with
    | error error =>
      rw [plainly] at loaded
      cases loaded
    | ok plain =>
      rw [plainly] at loaded
      have marked : plain.marked = .ok result := loaded
      rw [ParseResult.document_of_marked marked] at small ⊢
      rw [load_document plainly small]
      exact marked
  · have same : options = options.marking false := by
      rw [LoadOptions.marking, ← Bool.eq_false_iff.2 marks]
    rw [same] at loaded ⊢
    exact load_document loaded small

/-- A method that returns a string, written at length: a padded number, a string that the source
spells, a wrong length for the method, a descriptor that nothing refers to, and a byte too many. -/
def paddedDefinition : ByteArray :=
  ⟨#[0x50, 0x52, 0x49, 0x53, 0x4D, 1, 3, 0, 0, 5, 85, 84, 70, 45, 56, 130, 0, 1, 0, 0, 0, 0, 0, 0,
    50, 0, 0, 0, 2, 45, 1, 0, 1, 9, 0, 0, 0, 0, 1, 0, 0, 141, 2, 0, 1, 0, 1, 0, 1, 0,
    0, 0, 0, 0, 1, 0, 0, 0, 255, 255, 255, 255, 255, 255, 255, 255, 7]⟩

theorem load_rewritten_paddedDefinition :
    ∃ result, load paddedDefinition ⟨#[65]⟩ { verifyDefLengths := false } = .ok result ∧
      result.document.serialize.size = 66 ∧
      load result.document.serialize ⟨#[65]⟩ { verifyDefLengths := false } = .ok result := by
  have size : (load paddedDefinition ⟨#[65]⟩ { verifyDefLengths := false }).toOption.map
      (·.document.serialize.size) = some 66 := by
    decide +kernel
  cases loaded : load paddedDefinition ⟨#[65]⟩ { verifyDefLengths := false } with
  | error error =>
    rw [loaded] at size
    cases size
  | ok result =>
    rw [loaded] at size
    have size : result.document.serialize.size = 66 := Option.some.inj size
    have small : result.document.serialize.size < 2 ^ 31 := by
      rw [size]
      decide
    exact ⟨result, rfl, size, (load_rewritten loaded).2 small⟩

end PrismTree
