import PrismTree.Proofs.Load.Constants

/-!
# What a load looks at

A load that succeeds has looked at the bytes in front of its tree, at the tree, and at the
descriptors and the own bytes of the constants to which the tree refers. Any other byte may be
changed, and any bytes may be put behind the buffer: the result stays the same.
-/
namespace PrismTree

/-- A buffer is no shorter than another one, and has the same bytes at certain places. -/
structure AgreesOn (places : Set Nat) (buffer buffer' : ByteArray) : Prop where
  size_le : buffer.size ≤ buffer'.size
  same : ∀ place ∈ places, place < buffer.size → buffer'[place]? = buffer[place]?

section

variable {places : Set Nat} {buffer buffer' : ByteArray} {bytes : List UInt8}
  {position stop : Nat}

theorem AgreesOn.append (tail : ByteArray) : AgreesOn places buffer (buffer ++ tail) := by
  refine ⟨by rw [ByteArray.size_append]; omega, fun place _ inside => ?_⟩
  have longer : place < (buffer ++ tail).size := by
    rw [ByteArray.size_append]
    omega
  rw [getElem?_pos (buffer ++ tail) place longer, getElem?_pos buffer place inside,
    ByteArray.getElem_append_left inside]

theorem AgreesOn.mono {places' : Set Nat} (agrees : AgreesOn places buffer buffer')
    (fewer : places' ⊆ places) : AgreesOn places' buffer buffer' :=
  ⟨agrees.size_le, fun place member => agrees.same place (fewer member)⟩

/-- Bytes that stand at places of agreement stand in both buffers. -/
theorem StandsAt.of_agrees (stands : StandsAt bytes buffer position)
    (agrees : AgreesOn places buffer buffer')
    (covered : Set.Ico position (position + bytes.length) ⊆ places) :
    StandsAt bytes buffer' position := by
  induction bytes generalizing position with
  | nil =>
    have inside := stands.1
    exact standsAt_nil.2 (Nat.le_trans inside agrees.size_le)
  | cons byte rest ih =>
    obtain ⟨first, others⟩ := standsAt_cons.1 stands
    have here : position ∈ places := covered ⟨Nat.le_refl _, by simp⟩
    have inside := first.add_length_le
    rw [List.length_singleton] at inside
    refine standsAt_cons.2 ⟨?_, ih others fun place later => covered ?_⟩
    · rw [standsAt_singleton] at first ⊢
      rw [agrees.same position here inside, first]
    · obtain ⟨after, before⟩ := later
      rw [List.length_cons]
      exact ⟨by omega, by omega⟩

/-- What a decoder has read, it reads wherever the same bytes stand. -/
theorem Decoder.Reads.of_agrees {ε α : Type} {decoder : Decoder ε α} {forms : α → Language UInt8}
    {value : α} (reads : decoder.Reads forms) (inside : position ≤ buffer.size)
    (run : decoder.runFrom buffer position = .ok value stop)
    (agrees : AgreesOn places buffer buffer') (covered : Set.Ico position stop ⊆ places) :
    decoder.runFrom buffer' position = .ok value stop := by
  obtain ⟨bytes, form, stands, rfl⟩ := (reads buffer position inside value stop).1 run
  have inside' := Nat.le_trans inside agrees.size_le
  exact (reads buffer' position inside' value _).2
    ⟨bytes, form, stands.of_agrees agrees covered, rfl⟩

end

namespace ConstantPool

variable {pool : ConstantPool} {places : Set Nat} {serialized serialized' source : ByteArray}
  {id : ConstantId} {start length : UInt32} {text : String}

/-- Where the descriptor of a constant lies. -/
def descriptorPlaces (pool : ConstantPool) (id : ConstantId) : Set Nat :=
  let first := pool.tableOffset + id.slot * descriptorSize
  Set.Ico first (first + descriptorSize)

/-- Where the bytes lie that the buffer itself holds for a constant. -/
def ownedPlaces (pool : ConstantPool) (serialized : ByteArray) (id : ConstantId) : Set Nat :=
  {place | ∃ start length : UInt32, pool.HasDescriptor serialized id start length ∧
    ownedBit ≤ start.toNat ∧
    place ∈ Set.Ico (start.toNat - ownedBit) (start.toNat - ownedBit + length.toNat)}

theorem HasDescriptor.of_agrees (described : pool.HasDescriptor serialized id start length)
    (agrees : AgreesOn places serialized serialized')
    (covered : pool.descriptorPlaces id ⊆ places) :
    pool.HasDescriptor serialized' id start length := by
  refine StandsAt.of_agrees described agrees fun place inside => covered ?_
  rwa [List.length_append, Bytes.length_ofNat, Bytes.length_ofNat] at inside

/-- A text is spelled by its descriptor and, if it is not quoted, by bytes of the buffer. -/
theorem Spells.of_agrees (spells : pool.Spells serialized source id text)
    (agrees : AgreesOn places serialized serialized')
    (covered : pool.descriptorPlaces id ∪ pool.ownedPlaces serialized id ⊆ places) :
    pool.Spells serialized' source id text := by
  obtain ⟨descriptors, owned⟩ := Set.union_subset_iff.1 covered
  obtain ⟨start, length, described, designated⟩ := spells
  refine ⟨start, length, described.of_agrees agrees descriptors, ?_⟩
  unfold designated? at designated ⊢
  by_cases quoted : start.toNat < ownedBit
  · -- a quoted text lies in the source, which is the same for both
    rw [if_pos quoted] at designated ⊢
    exact designated
  · rw [if_neg quoted] at designated ⊢
    by_cases empty : length = 0
    · rw [if_pos empty] at designated ⊢
      exact designated
    · rw [if_neg empty] at designated ⊢
      obtain ⟨size, stands⟩ := slice?_eq_some_iff.1 designated
      refine slice?_eq_some_iff.2 ⟨size, stands.of_agrees agrees fun place inside => owned ?_⟩
      have whole : text.toUTF8.data.toList.length = length.toNat := size
      rw [whole] at inside
      exact ⟨start, length, described, Nat.not_lt.1 quoted, inside⟩

end ConstantPool

namespace TreeState

variable {input input' : TreeInput} {state state' after after' : TreeState}
  {ids : List ConstantId} {stop stop' : Nat} {encoding : Encoding} {header : PoolHeader}

/-- Pools that follow the same references from the same header keep the same texts, if every text
that is spelled for the one is spelled for the other. -/
theorem constants_eq_of_follows (fresh : state.pool = .fresh encoding header)
    (fresh' : state'.pool = .fresh encoding header)
    (follows : state.Follows input ids stop after)
    (follows' : state'.Follows input' ids stop' after')
    (spelled : ∀ id ∈ ids, ∀ text,
      (ConstantPool.fresh encoding header).Spells input.serialized input.source id text →
      (ConstantPool.fresh encoding header).Spells input'.serialized input'.source id text) :
    after'.pool.constants = after.pool.constants := by
  obtain ⟨size, kept, spells⟩ := kept?_of_follows fresh follows
  obtain ⟨size', kept', spells'⟩ := kept?_of_follows fresh' follows'
  have small : after'.pool.size < 2 ^ 32 := size' ▸ header.count.toNat_lt
  refine ConstantTable.eq_of_get? (size'.trans size.symm) small fun id => ?_
  show after'.pool.kept? id = after.pool.kept? id
  by_cases member : id ∈ ids
  · obtain ⟨text, found⟩ := Option.isSome_iff_exists.1 ((kept id).2 member)
    obtain ⟨text', found'⟩ := Option.isSome_iff_exists.1 ((kept' id).2 member)
    have same := (spells' id text' found').2.unique
      (spelled id member text (spells id text found).2)
    rw [found, found', same]
  · have none : ∀ pool : ConstantPool, ((pool.kept? id).isSome ↔ id ∈ ids) →
        pool.kept? id = none := by
      intro pool listed
      exact Option.not_isSome_iff_eq_none.1 fun present => member (listed.1 present)
    rw [none _ (kept id), none _ (kept' id)]

end TreeState

/-- Where the constants lie to which a tree refers: their descriptors, and the bytes that the buffer
holds for them. -/
def ConstantPool.places (pool : ConstantPool) (serialized : ByteArray) (ids : List ConstantId) :
    Set Nat :=
  ⋃ id ∈ ids, pool.descriptorPlaces id ∪ pool.ownedPlaces serialized id

section

variable {places : Set Nat} {serialized serialized' source : ByteArray} {options : LoadOptions}
  {encoding : Encoding} {header : PoolHeader}

theorem ConstantPool.places_subset {pool : ConstantPool} {ids : List ConstantId} {id : ConstantId}
    (covered : pool.places serialized ids ⊆ places) (member : id ∈ ids) :
    pool.descriptorPlaces id ∪ pool.ownedPlaces serialized id ⊆ places := by
  intro place here
  exact covered (Set.mem_biUnion member here)

/-- Where the descriptors of all other constants lie, less the bytes that the buffer holds for these
constants. -/
def ConstantPool.otherPlaces (pool : ConstantPool) (serialized : ByteArray)
    (ids : List ConstantId) : Set Nat :=
  {place | (∃ id ∉ ids, place ∈ pool.descriptorPlaces id) ∧
    ∀ id ∈ ids, place ∉ pool.ownedPlaces serialized id}

/-- Descriptors do not overlap. -/
theorem ConstantPool.otherPlaces_disjoint {pool : ConstantPool} {ids : List ConstantId} :
    Disjoint (pool.otherPlaces serialized ids) (pool.places serialized ids) := by
  refine Set.disjoint_left.2 fun place other here => ?_
  obtain ⟨⟨id, foreign, low, high⟩, unowned⟩ := other
  obtain ⟨id', member, ⟨low', high'⟩ | owned⟩ := Set.mem_iUnion₂.1 here
  · have same : id.slot = id'.slot := by
      rw [descriptorSize] at low high low' high'
      omega
    exact foreign (ConstantId.slot_injective same ▸ member)
  · exact unowned id' member owned

/-- A tree is read wherever its bytes and its constants are the same. -/
theorem TreeDecoder.readNode_of_agrees {state reached : TreeState} {depth : Nat} {root : Node}
    (fresh : state.pool = .fresh encoding header)
    (run : readNode depth ⟨serialized, source, options⟩ state = .ok root reached)
    (agrees : AgreesOn places serialized serialized')
    (tree : Set.Ico state.position reached.position ⊆ places)
    (constants : (ConstantPool.fresh encoding header).places serialized root.references ⊆ places)
    (trace : Trace) :
    ∃ reached', readNode depth ⟨serialized', source, options⟩
        ⟨state.position, .fresh encoding header, trace⟩ = .ok root reached' ∧
      reached'.position = reached.position ∧
      reached'.pool.constants = reached.pool.constants := by
  obtain ⟨bytes, form, stands, follows⟩ := exists_form_of_readNode run
  have stop := TreeState.position_of_follows follows
  have spelled : ∀ id ∈ root.references, ∀ text,
      (ConstantPool.fresh encoding header).Spells serialized source id text →
      (ConstantPool.fresh encoding header).Spells serialized' source id text :=
    fun id member text spells =>
      spells.of_agrees agrees (ConstantPool.places_subset constants member)
  let state' : TreeState := ⟨state.position, .fresh encoding header, trace⟩
  obtain ⟨reached', follows'⟩ : ∃ reached', state'.Follows ⟨serialized', source, options⟩
      root.references (state.position + bytes.length) reached' := by
    refine TreeState.exists_follows_iff.2 fun id member => ?_
    obtain ⟨listed, kept | ⟨known, text, spells⟩⟩ :=
      TreeState.exists_follows_iff.1 ⟨reached, follows⟩ id member
    · rw [fresh, ConstantPool.kept?_fresh] at kept
      cases kept
    · rw [fresh] at listed known spells
      exact ⟨listed, Or.inr ⟨known, text, spelled id member text spells⟩⟩
  have stands' : StandsAt bytes serialized' state.position :=
    stands.of_agrees agrees (stop ▸ tree)
  refine ⟨reached', (reads_readNode _ depth state' stands'.1 _ _).2
    ⟨bytes, form, stands', follows'⟩, ?_, ?_⟩
  · rw [TreeState.position_of_follows follows', stop]
  · exact TreeState.constants_eq_of_follows fresh rfl follows follows' spelled

end

/-- What a load has looked at when it succeeds with a result: everything up to the pool if there is
a tree, else everything up to the end of the pool header, and the constants of the tree. -/
def Preamble.places (preamble : Preamble) (stop : Nat) (serialized : ByteArray)
    (result : ParseResult) : Set Nat :=
  Set.Iio (if result.root.isSome then preamble.pool.offset.toNat else stop) ∪
    (ConstantPool.fresh preamble.heading.encoding preamble.pool).places serialized
      result.references

variable {serialized source : ByteArray} {options : LoadOptions} {result : ParseResult}

/-- The places that a load has looked at determine its result. -/
theorem load_of_agrees (loaded : load serialized source options = .ok result) :
    ∃ preamble stop, Decoder.readPreamble.runFrom serialized 0 = .ok preamble stop ∧
      (result.root.isSome → stop ≤ preamble.pool.offset.toNat) ∧
      ∀ serialized', AgreesOn (preamble.places stop serialized result) serialized serialized' →
        load serialized' source options = .ok result := by
  obtain ⟨preamble, stop, run, room, outcome⟩ := load_eq_ok_iff.1 loaded
  have front : ∀ places serialized', AgreesOn places serialized serialized' →
      Set.Ico 0 stop ⊆ places →
      Decoder.readPreamble.runFrom serialized' 0 = .ok preamble stop ∧
        preamble.pool.count.toNat * ConstantPool.descriptorSize + preamble.pool.offset.toNat ≤
          serialized'.size := by
    intro places serialized' agrees covered
    exact ⟨Decoder.reads_readPreamble.of_agrees (Nat.zero_le _) run agrees covered,
      Nat.le_trans room agrees.size_le⟩
  refine ⟨preamble, stop, run, ?_⟩
  obtain ⟨failed, rfl⟩ | ⟨none, root', pool', tree, rfl⟩ := outcome_eq_ok_iff.1 outcome
  · refine ⟨fun present => Bool.noConfusion present, fun serialized' agrees => ?_⟩
    obtain ⟨run', room'⟩ := front _ serialized' agrees fun place before => Or.inl before.2
    exact load_eq_ok_iff.2 ⟨preamble, stop, run', room', outcome_eq_ok_iff.2 (Or.inl ⟨failed, rfl⟩)⟩
  · obtain ⟨root, reached, read, ends, rfl, finished⟩ := treeOutcome_eq_ok_iff.1 tree
    have ends : reached.position = preamble.pool.offset.toNat := ends
    -- the tree begins where the preamble stops and ends where the pool begins
    have before : stop ≤ preamble.pool.offset.toNat := by
      obtain ⟨bytes, -, -, follows⟩ := TreeDecoder.exists_form_of_readNode read
      have reaches : reached.position = stop + bytes.length := TreeState.position_of_follows follows
      omega
    refine ⟨fun _ => before, fun serialized' agrees => ?_⟩
    obtain ⟨run', room'⟩ := front _ serialized' agrees
      fun place inside => Or.inl (Nat.lt_of_lt_of_le inside.2 before)
    have references := Node.references_of_finished finished
    obtain ⟨reached', read', ends', constants⟩ := TreeDecoder.readNode_of_agrees rfl read agrees
      (fun place inside => Or.inl (ends ▸ inside.2))
      (fun place inside => Or.inr (show place ∈ ConstantPool.places _ _ root'.references from
        references ▸ inside))
      (preamble.trace ⟨serialized', source, options⟩)
    refine load_eq_ok_iff.2 ⟨preamble, stop, run', room', outcome_eq_ok_iff.2 (Or.inr ?_)⟩
    refine ⟨none, root', reached'.pool, ?_, by rw [constants]⟩
    exact treeOutcome_eq_ok_iff.2 ⟨root, reached', read', ends'.trans ends, rfl, finished⟩

/-- The result of a load is determined by the places that the load has looked at. What is put behind
the buffer has no influence, and nor have the descriptors of constants to which the tree does not
refer. -/
theorem unread_of_load (loaded : load serialized source options = .ok result) :
    ∃ preamble stop, Decoder.readPreamble.runFrom serialized 0 = .ok preamble stop ∧
      (∀ serialized', AgreesOn (preamble.places stop serialized result) serialized serialized' →
        load serialized' source options = .ok result) ∧
      (∀ tail, load (serialized ++ tail) source options = .ok result) ∧
      ∀ serialized', AgreesOn (Set.Ici stop ∩ ConstantPool.otherPlaces
          (.fresh preamble.heading.encoding preamble.pool) serialized result.references)ᶜ
          serialized serialized' →
        load serialized' source options = .ok result := by
  obtain ⟨preamble, stop, run, before, same⟩ := load_of_agrees loaded
  refine ⟨preamble, stop, run, same, fun tail => same _ (.append tail), ?_⟩
  intro serialized' agrees
  refine same serialized' (agrees.mono fun place looked unread => ?_)
  obtain ⟨behind, other⟩ := unread
  obtain inFront | constant := looked
  · -- descriptors lie behind the pool offset, and what changes lies behind the preamble
    obtain ⟨⟨id, -, low, -⟩, -⟩ := other
    have behind : stop ≤ place := behind
    by_cases tree : result.root.isSome
    · rw [if_pos tree] at inFront
      have inFront : place < preamble.pool.offset.toNat := inFront
      have low : preamble.pool.offset.toNat + id.slot * ConstantPool.descriptorSize ≤ place := low
      omega
    · rw [if_neg tree] at inFront
      have inFront : place < stop := inFront
      omega
  · exact Set.disjoint_left.1 ConstantPool.otherPlaces_disjoint other constant

theorem unread_of_load_singleConstant :
    ∃ result, load singleConstant ⟨#[65]⟩ = .ok result ∧ result.root.isSome ∧
      ∀ tail, load (singleConstant ++ tail) ⟨#[65]⟩ = .ok result := by
  have tree : (load singleConstant ⟨#[65]⟩).toOption.map (·.root.isSome) = some true := by
    decide +kernel
  cases loaded : load singleConstant ⟨#[65]⟩ with
  | error error =>
    rw [loaded] at tree
    cases tree
  | ok result =>
    rw [loaded] at tree
    obtain ⟨_, _, -, -, appended, -⟩ := unread_of_load loaded
    exact ⟨result, rfl, Option.some.inj tree, appended⟩

end PrismTree
