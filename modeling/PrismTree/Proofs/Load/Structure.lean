import PrismTree.Proofs.Load.Unread
import PrismTree.Proofs.Wire.DefLength

/-!
# What the structure of a tree depends on

The structure of a tree depends on the bytes of the tree alone. Wherever the pool lies, whatever the
source is and whatever is asked for, two readings from the same position that succeed find the same
placed tree. So a loadable buffer cannot be given another pool: if another offset is written over
the one in it, the tree still ends where it ended, which is not where the pool begins.
-/
namespace PrismTree

namespace Bytes

/-- A buffer with other bytes written over it at a place. -/
def overwrite (bytes : List UInt8) (place : Nat) (buffer : ByteArray) : ByteArray :=
  ⟨(buffer.data.toList.take place ++ bytes ++
    buffer.data.toList.drop (place + bytes.length)).toArray⟩

variable {bytes : List UInt8} {place : Nat} {buffer : ByteArray}
  (fits : place + bytes.length ≤ buffer.size)

include fits

theorem length_take_place : (buffer.data.toList.take place).length = place := by
  have size : buffer.data.toList.length = buffer.size := rfl
  rw [List.length_take, size]
  omega

theorem size_overwrite : (overwrite bytes place buffer).size = buffer.size := by
  have size : buffer.data.toList.length = buffer.size := rfl
  have front := length_take_place fits
  show ((buffer.data.toList.take place ++ bytes ++
    buffer.data.toList.drop (place + bytes.length)).toArray).size = buffer.size
  simp only [List.size_toArray, List.length_append, List.length_drop, front, size]
  omega

theorem standsAt_overwrite : StandsAt bytes (overwrite bytes place buffer) place := by
  have front := length_take_place fits
  have size := size_overwrite fits
  refine ⟨by omega, ?_⟩
  show bytes <+: (buffer.data.toList.take place ++ bytes ++
    buffer.data.toList.drop (place + bytes.length)).drop place
  rw [List.append_assoc, List.drop_left' front]
  exact List.prefix_append _ _

/-- Everything else stays as it is. -/
theorem agreesOn_overwrite :
    AgreesOn (Set.Ico place (place + bytes.length))ᶜ buffer (overwrite bytes place buffer) := by
  have front := length_take_place fits
  refine ⟨(size_overwrite fits).ge, fun other outside inside => ?_⟩
  have list : ∀ array : ByteArray, array[other]? = array.data.toList[other]? := by
    intro array
    rw [Array.getElem?_toList]
    rfl
  rw [list, list]
  show (buffer.data.toList.take place ++ bytes ++
    buffer.data.toList.drop (place + bytes.length))[other]? = _
  by_cases before : other < place
  · rw [List.append_assoc, List.getElem?_append_left (by omega), List.getElem?_take_of_lt before]
  · have after : place + bytes.length ≤ other := by
      by_contra within
      exact outside ⟨Nat.not_lt.1 before, Nat.not_le.1 within⟩
    have both : (buffer.data.toList.take place ++ bytes).length = place + bytes.length := by
      rw [List.length_append, front]
    rw [List.getElem?_append_right (by omega), both, List.getElem?_drop]
    congr 1
    omega

end Bytes

/-- Two readings of nodes from the same position that succeed find the same placed tree. -/
theorem TreeDecoder.structure_of_readNode {serialized source source' : ByteArray}
    {options options' : LoadOptions} {depth depth' : Nat}
    {state state' reached reached' : TreeState} {node node' : Node}
    (start : state.position = state'.position)
    (run : readNode depth ⟨serialized, source, options⟩ state = .ok node reached)
    (run' : readNode depth' ⟨serialized, source', options'⟩ state' = .ok node' reached') :
    reached.position = reached'.position ∧ ∃ placed : PlacedNode,
      placed.LiesIn serialized state.position reached.position ∧
      node = placed.read source ∧ node' = placed.read source' := by
  obtain ⟨placed, lies, rfl⟩ := exists_placed_of_readNode run
  obtain ⟨placed', lies', rfl⟩ := exists_placed_of_readNode run'
  rw [← start] at lies'
  obtain ⟨rfl, stop⟩ := placed.unique placed' lies lies'
  exact ⟨stop, placed, lies, rfl, rfl⟩

section Agreement

variable {places : Set Nat} {serialized serialized' source : ByteArray} {options : LoadOptions}
  {depth : Nat} {state state' reached reached' : TreeState} {node node' : Node}
  (start : state'.position = state.position)
  (run : TreeDecoder.readNode depth ⟨serialized, source, options⟩ state = .ok node reached)
  (agrees : AgreesOn places serialized serialized')
  (covered : Set.Ico state.position reached.position ⊆ places)

include start run agrees covered

/-- Where the bytes of a tree are the same, no other tree is read. -/
theorem TreeDecoder.eq_of_readNode_of_agrees
    (run' : readNode depth ⟨serialized', source, options⟩ state' = .ok node' reached') :
    node' = node ∧ reached'.position = reached.position := by
  obtain ⟨bytes, form, stands, follows⟩ := exists_form_of_readNode run
  obtain ⟨bytes', form', stands', follows'⟩ := exists_form_of_readNode run'
  have stop := TreeState.position_of_follows follows
  have stop' := TreeState.position_of_follows follows'
  have kept : StandsAt bytes serialized' state'.position :=
    start ▸ stands.of_agrees agrees (stop ▸ covered)
  have reads := reads_readNode ⟨serialized', source, options⟩ depth
  rw [← start] at stop
  exact reads.unique ⟨bytes', form', stands', stop'⟩ ⟨bytes, form, kept, stop⟩

/-- Where the bytes of a tree are the same and its constants can be resolved, it is read. -/
theorem TreeDecoder.exists_readNode_of_agrees
    (resolves : ∀ id ∈ node.references, state'.pool.Resolves serialized' source id) :
    ∃ reached', readNode depth ⟨serialized', source, options⟩ state' = .ok node reached' ∧
      reached'.position = reached.position := by
  let input : TreeInput := ⟨serialized, source, options⟩
  let input' : TreeInput := ⟨serialized', source, options⟩
  obtain ⟨⟨bytes, form, stands, stop⟩, shallow, plain, -⟩ :=
    (readNode_accepts_iff input depth state node reached.position).1 ⟨reached, run, rfl⟩
  have kept : StandsAt bytes serialized' state'.position :=
    start ▸ stands.of_agrees agrees (stop ▸ covered)
  rw [← start] at stop
  exact (readNode_accepts_iff input' depth state' node reached.position).2
    ⟨⟨bytes, form, kept, stop⟩, shallow, plain, resolves⟩

end Agreement

section

variable {serialized serialized' source : ByteArray} {options : LoadOptions}
  {preamble : Preamble} {middle place start : Nat} {offset : UInt32}

section Preamble

variable (heading : Decoder.readHeading.runFrom serialized 0 = .ok preamble.heading middle)
  (remarks : Decoder.readRemarks.runFrom serialized middle = .ok preamble.remarks place)
  (header : Decoder.readPoolHeader.runFrom serialized place = .ok preamble.pool start)

include heading remarks header

/-- Behind the remarks stands the offset of the pool, and behind that the number of constants. -/
theorem Decoder.standsAt_of_readPreamble :
    middle ≤ serialized.size ∧ middle ≤ place ∧
      StandsAt (Bytes.ofNat 4 preamble.pool.offset.toNat) serialized place ∧
      ∃ count ∈ Varint.forms preamble.pool.count,
        StandsAt count serialized (place + 4) ∧ start = place + 4 + count.length := by
  have inside : middle ≤ serialized.size := by
    obtain ⟨bytes, -, there, rfl⟩ :=
      (reads_readHeading serialized 0 (Nat.zero_le _) _ _).1 heading
    exact there.add_length_le
  obtain ⟨_, -, there, rfl⟩ := (reads_readRemarks serialized middle inside _ _).1 remarks
  have inside' := there.add_length_le
  obtain ⟨_, form, placed, rfl⟩ := (reads_readPoolHeader serialized _ inside' _ _).1 header
  obtain ⟨_, rfl, count, counted, rfl⟩ := Language.mem_mul.1 form
  obtain ⟨word, behind⟩ := standsAt_append.1 placed
  rw [Bytes.length_ofNat] at behind
  refine ⟨inside, Nat.le_add_right _ _, word, count, counted, behind, ?_⟩
  rw [List.length_append, Bytes.length_ofNat, ← Nat.add_assoc]

/-- With another offset in its place, the preamble is the same but for the offset. -/
theorem Decoder.readPreamble_of_offset
    (agrees : AgreesOn (Set.Ico place (place + 4))ᶜ serialized serialized')
    (stands : StandsAt (Bytes.ofNat 4 offset.toNat) serialized' place) :
    readPreamble.runFrom serialized' 0 =
      .ok { preamble with pool := ⟨offset, preamble.pool.count⟩ } start := by
  obtain ⟨inside, front, -, count, counted, behind, stop⟩ :=
    standsAt_of_readPreamble heading remarks header
  have heading' : readHeading.runFrom serialized' 0 = .ok preamble.heading middle := by
    apply reads_readHeading.of_agrees (Nat.zero_le _) heading agrees
    rintro other ⟨-, before⟩ ⟨after, -⟩
    omega
  have remarks' : readRemarks.runFrom serialized' middle = .ok preamble.remarks place := by
    apply reads_readRemarks.of_agrees inside remarks agrees
    rintro other ⟨-, before⟩ ⟨after, -⟩
    omega
  have count' : StandsAt count serialized' (place + 4) := by
    apply behind.of_agrees agrees
    rintro other ⟨after, -⟩ ⟨-, before⟩
    omega
  have header' : readPoolHeader.runFrom serialized' place =
      .ok ⟨offset, preamble.pool.count⟩ start := by
    apply (reads_readPoolHeader serialized' place stands.1 _ _).2
    refine ⟨Bytes.ofNat 4 offset.toNat ++ count, Language.append_mem_mul rfl counted, ?_, ?_⟩
    · apply standsAt_append.2
      rw [Bytes.length_ofNat]
      exact ⟨stands, count'⟩
    · rw [List.length_append, Bytes.length_ofNat, ← Nat.add_assoc]
      exact stop
  exact readPreamble_eq_ok_iff.2 ⟨middle, place, heading', remarks', header'⟩

end Preamble

/-- A tree that does not end where the pool begins is refused. -/
theorem load_eq_trailingBytes {root : Node} {reached : TreeState}
    (run : Decoder.readPreamble.runFrom serialized 0 = .ok preamble start)
    (room : preamble.pool.count.toNat * ConstantPool.descriptorSize +
      preamble.pool.offset.toNat ≤ serialized.size) (none : preamble.remarks.errors = [])
    (read : TreeDecoder.readNode options.maxDepth ⟨serialized, source, options⟩
      ⟨start, .fresh preamble.heading.encoding preamble.pool,
        preamble.trace ⟨serialized, source, options⟩⟩ = .ok root reached)
    (elsewhere : reached.position ≠ preamble.pool.offset.toNat) :
    load serialized source options =
      .error (.ofCause (.trailingBytes preamble.pool.offset.toNat reached.position)) := by
  have other : ¬reached.position =
      (ConstantPool.fresh preamble.heading.encoding preamble.pool).tableOffset := elsewhere
  rw [load_eq_treeOutcome run room none]
  unfold treeOutcome
  simp only [read]
  rw [if_neg other]
  rfl

/-- A tree ends where it ends, so no load succeeds with another offset in the header of its pool. -/
theorem load_of_offset {root : Node} {reached : TreeState} {trace : Trace}
    (run : Decoder.readPreamble.runFrom serialized' 0 =
      .ok { preamble with pool := ⟨offset, preamble.pool.count⟩ } start)
    (none : preamble.remarks.errors = [])
    (read : TreeDecoder.readNode options.maxDepth ⟨serialized, source, options⟩
      ⟨start, .fresh preamble.heading.encoding preamble.pool, trace⟩ = .ok root reached)
    (ends : reached.position = preamble.pool.offset.toNat) (other : offset ≠ preamble.pool.offset)
    (agrees : AgreesOn (Set.Ici start) serialized serialized') :
    let pool := ConstantPool.fresh preamble.heading.encoding ⟨offset, preamble.pool.count⟩
    (∃ error, load serialized' source options = .error error) ∧
    (pool.size * ConstantPool.descriptorSize + offset.toNat ≤ serialized'.size →
      (∀ id ∈ root.references, pool.Resolves serialized' source id) →
      load serialized' source options = .error
        (.ofCause (.trailingBytes offset.toNat preamble.pool.offset.toNat))) := by
  intro pool
  have apart : preamble.pool.offset.toNat ≠ offset.toNat :=
    fun same => other (UInt32.toNat_inj.1 same.symm)
  have covered : Set.Ico start reached.position ⊆ Set.Ici start := Set.Ico_subset_Ici_self
  let preamble' : Preamble := { preamble with pool := ⟨offset, preamble.pool.count⟩ }
  let state' : TreeState := ⟨start, pool, preamble'.trace ⟨serialized', source, options⟩⟩
  have start' : state'.position = start := rfl
  constructor
  · cases loaded : load serialized' source options with
    | error error => exact ⟨error, rfl⟩
    | ok result =>
      obtain ⟨preamble', start', run', -, outcome⟩ := load_eq_ok_iff.1 loaded
      rw [run, EStateM.Result.ok.injEq] at run'
      obtain ⟨rfl, rfl⟩ := run'
      obtain ⟨failed, -⟩ | ⟨-, _, _, found, -⟩ := outcome_eq_ok_iff.1 outcome
      · exact absurd none failed
      · obtain ⟨_, reached', read', ends', -⟩ := treeOutcome_eq_ok_iff.1 found
        -- a tree that ends where the pool begins would have two ends
        have same := TreeDecoder.eq_of_readNode_of_agrees start' read agrees covered read'
        have ends' : reached'.position = offset.toNat := ends'
        omega
  · intro room resolves
    obtain ⟨reached', read', stop⟩ :=
      TreeDecoder.exists_readNode_of_agrees start' read agrees covered resolves
    have size : pool.size = preamble.pool.count.toNat := ConstantPool.size_fresh
    rw [size] at room
    have stop : reached'.position = preamble.pool.offset.toNat := stop.trans ends
    have trailing := load_eq_trailingBytes run room none read' (stop ▸ apart)
    rw [stop] at trailing
    exact trailing

end

/-- The structure of a tree depends on its bytes alone: with any sources, pools and options,
readings stop at the same position with the same placed tree. So the tree determines the offset of
the pool, and a load with another one fails. -/
theorem structure_of_tree :
    (∀ (serialized source source' : ByteArray) (options options' : LoadOptions) (depth depth' : Nat)
      (state state' reached reached' : TreeState) (node node' : Node),
      state.position = state'.position →
      TreeDecoder.readNode depth ⟨serialized, source, options⟩ state = .ok node reached →
      TreeDecoder.readNode depth' ⟨serialized, source', options'⟩ state' = .ok node' reached' →
      reached.position = reached'.position ∧ ∃ placed : PlacedNode,
        placed.LiesIn serialized state.position reached.position ∧
        node = placed.read source ∧ node' = placed.read source') ∧
    ∀ (serialized source : ByteArray) (options : LoadOptions) (result : ParseResult) (root : Node),
      load serialized source options = .ok result → root ∈ result.root →
      ∃ (preamble : Preamble) (middle place start : Nat),
        Decoder.readHeading.runFrom serialized 0 = .ok preamble.heading middle ∧
        Decoder.readRemarks.runFrom serialized middle = .ok preamble.remarks place ∧
        Decoder.readPoolHeader.runFrom serialized place = .ok preamble.pool start ∧
        StandsAt (Bytes.ofNat 4 preamble.pool.offset.toNat) serialized place ∧
        ∀ offset : UInt32, offset ≠ preamble.pool.offset →
          let serialized' := Bytes.overwrite (Bytes.ofNat 4 offset.toNat) place serialized
          let pool := ConstantPool.fresh preamble.heading.encoding ⟨offset, preamble.pool.count⟩
          (∃ error, load serialized' source options = .error error) ∧
          (pool.size * ConstantPool.descriptorSize + offset.toNat ≤ serialized'.size →
            (∀ id ∈ root.references, pool.Resolves serialized' source id) →
            load serialized' source options = .error
              (.ofCause (.trailingBytes offset.toNat preamble.pool.offset.toNat))) := by
  constructor
  · intro serialized source source' options options' depth depth' state state' reached reached'
      node node' start run run'
    exact TreeDecoder.structure_of_readNode start run run'
  · intro serialized source options result root loaded tree
    obtain ⟨preamble, start, run, room, outcome⟩ := load_eq_ok_iff.1 loaded
    obtain ⟨-, rfl⟩ | ⟨none, root', pool', found, rfl⟩ := outcome_eq_ok_iff.1 outcome
    · cases tree
    · cases tree
      obtain ⟨plain, reached, read, ends, rfl, finished⟩ := treeOutcome_eq_ok_iff.1 found
      obtain ⟨middle, place, heading, remarks, header⟩ := Decoder.readPreamble_eq_ok_iff.1 run
      obtain ⟨-, -, word, count, -, behind, stop⟩ :=
        Decoder.standsAt_of_readPreamble heading remarks header
      refine ⟨preamble, middle, place, start, heading, remarks, header, word, ?_⟩
      intro offset other serialized' pool
      have length : (Bytes.ofNat 4 offset.toNat).length = 4 := Bytes.length_ofNat 4 _
      have fits : place + (Bytes.ofNat 4 offset.toNat).length ≤ serialized.size := by
        have inside := behind.1
        omega
      have agrees := Bytes.agreesOn_overwrite fits
      have stands := Bytes.standsAt_overwrite fits
      rw [length] at agrees
      have run' := Decoder.readPreamble_of_offset heading remarks header agrees stands
      -- the tree lies behind the offset, where nothing has changed
      have behind : AgreesOn (Set.Ici start) serialized serialized' := by
        apply agrees.mono
        rintro later after ⟨-, before⟩
        have after : start ≤ later := after
        omega
      rw [Node.references_of_finished finished]
      exact load_of_offset run' none read ends other behind

end PrismTree
