import PrismTree.Proofs.Load.Constants
import PrismTree.Proofs.Load.Newlines
import PrismTree.Proofs.Serialize.Document
import PrismTree.Proofs.Wire.Inclusion

/-!
# Loading what was written

A document that was written is loaded back as it was: the preamble by its forms, the tree by its
forms, and each constant of the tree from its descriptor, wherever that points.
-/
namespace PrismTree

theorem exists_toNat_eq {n : Nat} (small : n < 2 ^ 32) : ∃ word : UInt32, word.toNat = n :=
  ⟨UInt32.ofNat n, UInt32.toNat_ofNat_of_lt' small⟩

namespace Document

variable {document : Document} {source : ByteArray} {tree : List UInt8} {id : ConstantId}
  {text : String}

/-- The text of a constant, if it has one. -/
def text? (document : Document) (source : ByteArray) (id : ConstantId) : Option String :=
  document.constants[id.slot]?.bind (·.text? source)

/-- The constants that a document with errors or with a tree refers to. -/
def references (document : Document) : List ConstantId :=
  if document.remarks.errors = [] then document.root.references else []

/-- The table of constants with the texts that the tree refers to. -/
def table (document : Document) (source : ByteArray) : ConstantTable :=
  ⟨(document.constants.mapIdx fun slot entry =>
    if slot ∈ document.references.map ConstantId.slot then entry.text? source else none).toArray⟩

/-- A document as the result of a load. -/
def result (document : Document) (source : ByteArray) : ParseResult where
  root := if document.remarks.errors = [] then some document.root else none
  comments := document.remarks.comments
  magicComments := document.remarks.magicComments
  dataLocation := document.remarks.dataLocation
  errors := document.remarks.errors
  warnings := document.remarks.warnings
  source := ⟨source, document.startLine, document.lineOffsets.toArray⟩
  constants := document.table source
  encoding := .ofName document.encodingName

/-- The preamble of a document. -/
def preamble (document : Document) (tree : List UInt8) : Preamble where
  heading := ⟨.ofName document.encodingName, document.startLine, document.lineOffsets.toArray⟩
  remarks := document.remarks
  pool := document.poolHeader tree

/-- The tree can be loaded: it has no newline marks, it is not nested too deeply, and the constants
to which it refers have texts, in an encoding that can be read. -/
structure IsLoadable (document : Document) (source : ByteArray) (maxDepth : Nat) : Prop where
  unmarked : document.root.IsUnmarked
  height_le : document.root.height ≤ maxDepth
  texts : ∀ id ∈ document.root.references,
    Encoding.ofName document.encodingName = .utf8 ∧ (document.text? source id).isSome

section

variable (countable : document.IsCountable tree)

include countable

theorem toNat_offset : (document.poolHeader tree).offset.toNat = document.poolOffset tree :=
  UInt32.toNat_ofNat_of_lt' countable.offset_lt

theorem toNat_count : (document.poolHeader tree).count.toNat = document.constants.length :=
  UInt32.toNat_ofNat_of_lt' countable.count_lt

/-- The preamble is read back. -/
theorem readPreamble_assemble :
    Decoder.readPreamble.runFrom (document.assemble tree) 0 =
      .ok (document.preamble tree) (document.opening tree).length := by
  have short : document.front.length < 2 ^ 32 := by
    have offset := countable.offset_lt
    unfold poolOffset at offset
    omega
  have front : document.front ∈ Wire.heading Varint.forms (document.preamble tree).heading *
      Wire.remarks Varint.forms document.remarks :=
    FormIfShort.append (Serialize.heading_isForm _ _ _) (Serialize.remarks_isForm _) short
  refine (Decoder.reads_readPreamble _ 0 (Nat.zero_le _) _ _).2
    ⟨document.opening tree, ?_, opening_stands, (Nat.zero_add _).symm⟩
  exact Language.append_mem_mul front (Serialize.poolHeader_mem _)

/-- A constant that has a text spells it. -/
theorem spells_assemble (encoding : Encoding) (found : document.text? source id = some text) :
    (ConstantPool.fresh encoding (document.poolHeader tree)).Spells (document.assemble tree) source
      id text := by
  obtain ⟨entry, listed, found⟩ := Option.bind_eq_some_iff.1 found
  obtain ⟨bytes, placed, decoded⟩ := Option.bind_eq_some_iff.1 found
  obtain rfl := fromUTF8?_eq_some_iff.1 decoded
  have stands := @descriptor_stands document tree id.slot entry listed
  rw [← toNat_offset countable] at stands
  cases entry with
  | quoted start length =>
    rw [PoolEntry.bytes?] at placed
    split at placed
    · next inside =>
      refine ⟨start, length, stands, ?_⟩
      rw [ConstantPool.designated?, if_pos inside, placed]
    · cases placed
  | owned bytes =>
    obtain rfl := Option.some.inj placed
    obtain ⟨inside, small⟩ := countable.owned_lt _ _ listed
    have bit : ConstantPool.ownedBit = 2 ^ 31 := rfl
    obtain ⟨start, start_eq⟩ := exists_toNat_eq
      (n := ConstantPool.ownedBit + document.ownedAt tree id.slot) (by omega)
    obtain ⟨length, length_eq⟩ := exists_toNat_eq small
    refine ⟨start, length, ?_, ?_⟩
    · rw [ConstantPool.HasDescriptor, start_eq, length_eq]
      exact stands
    · rw [ConstantPool.designated?, start_eq, if_neg (by omega), length_eq,
        Nat.add_sub_cancel_left]
      split
      · next none =>
        rw [none] at length_eq
        rw [ByteArray.size_eq_zero_iff.1 length_eq.symm]
      · exact ConstantPool.slice?_eq_some_iff.2 ⟨rfl, owned_stands listed⟩

omit countable in
theorem get?_table : (document.table source).get? id =
    if id ∈ document.references then document.text? source id else none := by
  have listed : id.slot ∈ document.references.map ConstantId.slot ↔ id ∈ document.references := by
    rw [List.mem_map]
    constructor
    · intro h
      obtain ⟨other, member, same⟩ := h
      rwa [← ConstantId.slot_injective same]
    · exact fun member => ⟨id, member, rfl⟩
  rw [ConstantTable.get?, table, List.getElem?_toArray, List.getElem?_mapIdx, text?]
  cases document.constants[id.slot]? with
  | none => simp
  | some entry => simp only [Option.map_some, Option.join_some, Option.bind_some, listed]

omit countable in
theorem size_table : (document.table source).size = document.constants.length := by
  rw [ConstantTable.size, table, List.size_toArray, List.length_mapIdx]

/-- A pool that has followed the references of a document keeps the table of the document. -/
theorem constants_eq_table {state state' : TreeState} {options : LoadOptions} {stop : Nat}
    (fresh : state.pool = .fresh (.ofName document.encodingName) (document.poolHeader tree))
    (follows : state.Follows ⟨document.assemble tree, source, options⟩ document.references stop
      state')
    (texts : ∀ id ∈ document.references, (document.text? source id).isSome) :
    state'.pool.constants = document.table source := by
  obtain ⟨size, kept, spelled⟩ := TreeState.kept?_of_follows fresh follows
  rw [toNat_count countable] at size
  have small : state'.pool.size < 2 ^ 32 := size ▸ countable.count_lt
  refine ConstantTable.eq_of_get? (size.trans size_table.symm) small fun id => ?_
  show state'.pool.kept? id = _
  rw [get?_table]
  split
  · next member =>
    obtain ⟨text, found⟩ := Option.isSome_iff_exists.1 (texts id member)
    obtain ⟨text', there⟩ := Option.isSome_iff_exists.1 ((kept id).2 member)
    have spells := (spelled id text' there).2
    rw [there, found, spells.unique (spells_assemble countable _ found)]
  · next absent =>
    exact Option.not_isSome_iff_eq_none.1 fun present => absent ((kept id).1 present)

/-- The tree is read back. -/
theorem readNode_assemble (options : LoadOptions) (trace : Trace)
    (form : tree ∈ document.root.forms (.reference source)) (none : document.remarks.errors = [])
    (loadable : document.IsLoadable source options.maxDepth) :
    let state : TreeState := ⟨(document.opening tree).length,
      .fresh (.ofName document.encodingName) (document.poolHeader tree), trace⟩
    ∃ state',
      TreeDecoder.readNode options.maxDepth ⟨document.assemble tree, source, options⟩ state =
        .ok document.root state' ∧
      state.Follows ⟨document.assemble tree, source, options⟩ document.root.references
        (document.poolOffset tree) state' := by
  intro state
  have whole : document.body tree = tree := if_pos none
  have stands := @body_stands document tree
  have ends := document.length_opening tree
  rw [whole] at stands ends
  have resolved : ∀ id ∈ document.root.references,
      state.pool.Resolves (document.assemble tree) source id := by
    intro id member
    obtain ⟨known, found⟩ := loadable.texts id member
    obtain ⟨text, found⟩ := Option.isSome_iff_exists.1 found
    refine ⟨?_, Or.inr ⟨known, text, spells_assemble countable _ found⟩⟩
    obtain ⟨entry, listed, -⟩ := Option.bind_eq_some_iff.1 found
    obtain ⟨inside, -⟩ := List.getElem?_eq_some_iff.1 listed
    show id.slot < (ConstantPool.fresh _ (document.poolHeader tree)).size
    rwa [ConstantPool.size_fresh, toNat_count countable]
  obtain ⟨state', follows⟩ : ∃ state', state.Follows ⟨document.assemble tree, source, options⟩
      document.root.references (document.poolOffset tree) state' :=
    TreeState.exists_follows_iff.2 resolved
  refine ⟨state', (TreeDecoder.reads_readNode _ _ state stands.1 _ _).2
    ⟨tree, mem_provided_mul.2 ⟨⟨loadable.height_le, loadable.unmarked⟩, ?_⟩, stands, ?_⟩, follows⟩
  · exact document.root.forms_mono (Rules.isNarrower_reference _ _) form
  · show TreeState.Follows _ _ ((document.opening tree).length + tree.length) _ _
    rwa [ends]

omit countable in
theorem result_eq (tree : List UInt8) :
    document.result source = (document.preamble tree).result source
    (if document.remarks.errors = [] then some document.root else none)
    (document.table source) :=
  rfl

/-- What was written is loaded back. -/
theorem load_assemble {options : LoadOptions}
    (form : document.remarks.errors = [] → tree ∈ document.root.forms (.reference source))
    (loadable : document.remarks.errors = [] → document.IsLoadable source options.maxDepth) :
    load (document.assemble tree) source (options.marking false) =
      .ok (document.result source) := by
  refine load_eq_ok_iff.2 ⟨document.preamble tree, (document.opening tree).length,
    readPreamble_assemble countable, ?_, outcome_eq_ok_iff.2 ?_⟩
  · have room := @pool_le_size document tree
    show (document.poolHeader tree).count.toNat * _ + (document.poolHeader tree).offset.toNat ≤ _
    rw [toNat_count countable, toNat_offset countable, Nat.add_comm]
    exact room
  · by_cases none : document.remarks.errors = []
    · obtain ⟨state', read, follows⟩ := readNode_assemble countable (options.marking false)
        ((document.preamble tree).trace ⟨document.assemble tree, source, options.marking false⟩)
        (form none) none (loadable none)
      refine Or.inr ⟨none, document.root, state'.pool, treeOutcome_eq_ok_iff.2
        ⟨document.root, state', read, ?_, rfl, rfl⟩, ?_⟩
      · rw [TreeState.position_of_follows follows]
        exact (toNat_offset countable).symm
      · have same : document.references = document.root.references := if_pos none
        have constants : state'.pool.constants = document.table source :=
          constants_eq_table countable rfl (same ▸ follows)
            (same ▸ fun id member => ((loadable none).texts id member).2)
        rw [result_eq tree, if_pos none, constants]
    · refine Or.inl ⟨none, ?_⟩
      have same : document.references = [] := if_neg none
      let state : TreeState :=
        ⟨0, .fresh (.ofName document.encodingName) (document.poolHeader tree), #[]⟩
      have follows : state.Follows ⟨document.assemble tree, source, options⟩ document.references 0
          state := by
        rw [same]
        exact TreeState.follows_nil.2 rfl
      have constants : state.pool.constants = document.table source :=
        constants_eq_table countable rfl follows (by simp [same])
      rw [result_eq tree, if_neg none, ← constants]
      rfl

end

/-- The buffers that may be written for a document, if everything in them can be counted. -/
def IsWrittenAs (document : Document) (source buffer : ByteArray) : Prop :=
  ∃ tree, document.IsCountable tree ∧
    (document.remarks.errors = [] → tree ∈ document.root.forms (.reference source)) ∧
    buffer = document.assemble tree

/-- What the serializer writes is one of these buffers. -/
theorem isWrittenAs_serialize (countable : document.IsCountable document.root.serialize) :
    document.IsWrittenAs source document.serialize := by
  refine ⟨document.root.serialize, countable, fun none => ?_, rfl⟩
  refine document.root.serialize_isForm ?_
  have offset := countable.offset_lt
  have whole : document.body document.root.serialize = document.root.serialize := if_pos none
  rw [poolOffset, whole] at offset
  omega

/-- Loading undoes writing: whichever form of its tree is written, a document that can be loaded is
loaded back with the texts of the constants to which its tree refers, and with its newlines marked
if they are to be marked. -/
theorem load_written (document : Document) (source : ByteArray) (options : LoadOptions)
    (loadable : document.remarks.errors = [] → document.IsLoadable source options.maxDepth) :
    (document.IsCountable document.root.serialize →
      document.IsWrittenAs source document.serialize) ∧
    ∀ buffer, document.IsWrittenAs source buffer →
      load buffer source (options.marking false) = .ok (document.result source) ∧
      load buffer source (options.marking true) = (document.result source).marked := by
  refine ⟨isWrittenAs_serialize, ?_⟩
  rintro _ ⟨tree, countable, form, rfl⟩
  have loaded := load_assemble countable form loadable
  refine ⟨loaded, ?_⟩
  rw [load_marking, loaded]
  rfl

/-- A document with one constant, which is quoted from the source. -/
def ofConstant : Document where
  encodingName := "UTF-8"
  startLine := 1
  lineOffsets := [0]
  remarks := ⟨[], [], none, [], []⟩
  root := ⟨.constantReadNode, 1, ⟨0, 1⟩, .empty, false,
    .cons (.datum (.constant ⟨1, UInt32.zero_ne_one.symm⟩)) .nil⟩
  constants := [.quoted 0 1]

theorem load_written_ofConstant :
    load ofConstant.serialize ⟨#[65]⟩ = (ofConstant.result ⟨#[65]⟩).marked := by
  have loadable : ofConstant.IsLoadable ⟨#[65]⟩ 5000 := by
    refine ⟨rfl, by decide, fun id member => ?_⟩
    obtain rfl := List.mem_singleton.1 member
    exact ⟨by decide +kernel, by decide +kernel⟩
  have countable : ofConstant.IsCountable ofConstant.root.serialize := by
    refine ⟨by decide +kernel, by decide, fun slot bytes found => ?_⟩
    cases slot <;> cases found
  obtain ⟨written, loads⟩ := load_written ofConstant ⟨#[65]⟩ {} fun _ => loadable
  exact (loads _ (written countable)).2

end Document

end PrismTree
