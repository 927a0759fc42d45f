import PrismTree.Proofs.Failure.Part

/-!
# Where the reading of a tree fails

However deep a tree is nested, a reading that fails does so at one node. From the root this node is
reached by descending from nodes into their children, and on the way all that stands in front of
each child has been read. At the failing node it is the depth, the tag, a part that is not made
of nodes, the number of children in a field, or the declared length that is at fault, and its
ancestors add nothing to the error.
-/
namespace PrismTree

open TreeState

/-- A part begins at an offset in a node of the given kind that begins at `start`: the tag of the
node and the parts in front stand in between. -/
def Kind.ComesTo (kind : Kind) (rules : Rules) (buffer : ByteArray) (part : NodePart)
    (start offset : Nat) : Prop :=
  ∃ before after, kind.parts = before ++ part :: after ∧
    StandsBetween ({[kind.tag]} * (before.map (NodePart.forms rules)).prod) buffer start offset

/-- A child begins in a field that begins at an offset: there, or in a list of nodes behind their
number and behind earlier ones. -/
inductive FieldKind.HasChildAt (rules : Rules) (buffer : ByteArray) :
    FieldKind → (offset start : Nat) → Prop
  | node {offset : Nat} : HasChildAt rules buffer .node offset offset
  | optNode {offset : Nat} (present : ¬StandsAt [0] buffer offset) :
    HasChildAt rules buffer .optNode offset offset
  | nodes {offset first start count : Nat}
    (counted : StandsBetween (Wire.count Varint.forms count) buffer offset first)
    (earlier : List Node) (fewer : earlier.length < count)
    (stand : StandsBetween (Node.formsAll rules earlier) buffer first start) :
    HasChildAt rules buffer .nodes offset start

/-- From a node that begins at `start`, a number of levels further down, to a node that begins at
`inner`. -/
inductive Descends (rules : Rules) (buffer : ByteArray) : (levels start inner : Nat) → Prop
  | here {start : Nat} : Descends rules buffer 0 start start
  | child {levels start offset next inner : Nat} {kind : Kind} {field : Field}
    (comes : kind.ComesTo rules buffer (.field field) start offset)
    (child : field.kind.HasChildAt rules buffer offset next)
    (rest : Descends rules buffer levels next inner) :
    Descends rules buffer (levels + 1) start inner

/-- The reading of a node that begins at `start`, with the depth that is left, fails at that node
and in none of its data: too deep, at its tag, at a number of children, or at the length that was
declared. -/
inductive FailsOutsideData (input : TreeInput) : (depth start : Nat) → LoadError.Cause → Prop
  | tooDeep {start : Nat} :
    FailsOutsideData input 0 start (.nestingTooDeep input.options.maxDepth)
  | noTag {depth : Nat} :
    FailsOutsideData input (depth + 1) input.serialized.size
      (.read (.truncated input.serialized.size 1 0))
  | unknownTag {depth start : Nat} {tag : UInt8} (stands : StandsAt [tag] input.serialized start)
    (unknown : Kind.ofTag? tag = none) :
    FailsOutsideData input (depth + 1) start (.unknownNodeType tag)
  | count {depth start offset stop : Nat} {kind : Kind} {name : String} {error : ReadError}
    (comes : kind.ComesTo input.rules input.serialized (.field ⟨name, .nodes⟩) start offset)
    (fails : (Decoder.readCount Node.minSize).runFrom input.serialized offset =
      .error error stop) :
    FailsOutsideData input (depth + 1) start (.read error)
  | wrongLength {depth start stop : Nat} {node : Node} {declared : UInt32}
    (stands : StandsBetween ({[node.kind.tag]} * node.parts input.rules (some declared))
      input.serialized start stop)
    (asked : input.options.verifyDefLengths) (wrong : stop - start - 5 ≠ declared.toNat) :
    FailsOutsideData input (depth + 1) start (.defLengthMismatch declared (stop - start - 5))

/-- The reading of a node of the given kind that begins at `start` fails in a part that begins at an
offset and is not made of nodes. Some constants of the pool may have been resolved before. -/
structure FailsInDatum (input : TreeInput) (pool : ConstantPool) (start : Nat) (kind : Kind)
    (part : NodePart) (offset : Nat) (error : LoadError) : Prop where
  comes : kind.ComesTo input.rules input.serialized part start offset
  fails : ∃ decoder state reached, part.datum? = some decoder ∧ state.position = offset ∧
    SamePool pool state.pool ∧ decoder input state = .error error reached

/-- The reading of a node that begins at `start` fails there and not in a child. Only a failure in a
datum is marked. -/
inductive StopsAt (input : TreeInput) (pool : ConstantPool) :
    (depth start : Nat) → LoadError → Prop
  | outside {depth start : Nat} {cause : LoadError.Cause}
    (fails : FailsOutsideData input depth start cause) :
    StopsAt input pool depth start (.ofCause cause)
  | datum {depth start offset : Nat} {kind : Kind} {part : NodePart} {error : LoadError}
    (fails : FailsInDatum input pool start kind part offset error) :
    StopsAt input pool (depth + 1) start (error.within (.inField kind part.name offset))

namespace TreeDecoder

variable {input : TreeInput} {pool : ConstantPool} {state reached : TreeState} {kind : Kind}
  {depth : Nat} {error : LoadError}

/-- A part that is made of nodes fails with one of them, or with their number. -/
theorem read_field_eq_error {field : Field} (children : NodePart.datum? (.field field) = none)
    (inside : state.position ≤ input.serialized.size)
    (run : NodePart.read (readNode depth) kind (.field field) input state = .error error reached) :
    (∃ middle, field.kind.HasChildAt input.rules input.serialized state.position middle.position ∧
      middle.position ≤ input.serialized.size ∧ SamePool state.pool middle.pool ∧
      readNode depth input middle = .error error reached) ∨
    field.kind = .nodes ∧ ∃ read stop,
      (Decoder.readCount Node.minSize).runFrom input.serialized state.position =
        .error read stop ∧ error = .ofCause (.read read) := by
  obtain ⟨name, fieldKind⟩ := field
  have run : readValue (readNode depth) kind name fieldKind input state = .error error reached :=
    map_eq_error_iff.1 run
  cases fieldKind with
  | datum datumKind => cases children
  | node => exact Or.inl ⟨state, .node, inside, .refl _, map_eq_error_iff.1 run⟩
  | optNode =>
    rw [readValue_optNode] at run
    obtain ⟨present, failed⟩ := optional_eq_error (map_eq_error_iff.1 run)
    exact Or.inl ⟨state, .optNode present, inside, .refl _, failed⟩
  | nodes =>
    rw [readValue_nodes] at run
    obtain ⟨stop, refused, -⟩ | ⟨count, first, earlier, last, counted, fewer, stand, follows,
      failed⟩ := counted_eq_error (Decoder.announces_readCount Node.minSize).lift
        (reads_readNode input depth) inside (map_eq_error_iff.1 run)
    · obtain ⟨read, short, rfl⟩ := Decoder.mapError_eq_error_iff.1 refused
      exact Or.inr ⟨rfl, read, stop, short, rfl⟩
    · have same : SamePool state.pool last.pool := by
        obtain ⟨after, refers, moved⟩ := follows
        rw [moved, pool_moveTo]
        exact samePool_of_referAll? refers
      refine Or.inl ⟨last, .nodes counted earlier fewer (stand.mono ?_), stand.le.2, same, failed⟩
      intro bytes form
      rw [prod_childForms] at form
      exact (mem_provided_mul.1 form).2

/-- A reading that fails behind the tag of a node stops at that node, or fails in a child of it. -/
theorem readBody_eq_error {start : Nat}
    (tag : StandsAt [kind.tag] input.serialized start)
    (run : readBody depth kind input state = .error error reached)
    (here : state.position = start + 1) (same : SamePool pool state.pool) :
    StopsAt input pool (depth + 1) start error ∨
    ∃ field offset middle, kind.ComesTo input.rules input.serialized (.field field) start offset ∧
      field.kind.HasChildAt input.rules input.serialized offset middle.position ∧
      middle.position ≤ input.serialized.size ∧ SamePool pool middle.pool ∧
      readNode depth input middle = .error error reached := by
  have inside : state.position ≤ input.serialized.size := by
    rw [here]
    exact tag.add_length_le
  have parts : readParts (readNode depth) kind kind.parts input state = .error error reached := by
    rw [← forget_readBody]
    exact map_eq_error_iff.2 run
  obtain ⟨before, part, after, middle, split, stands, same', failed⟩ :=
    readParts_eq_error inside parts
  have same := same.trans same'
  have comes : kind.ComesTo input.rules input.serialized part start middle.position := by
    refine ⟨before, after, split, standsBetween_mul.2 ⟨start + 1, ?_, here ▸ stands⟩⟩
    exact standsBetween_singleton.2 ⟨tag, rfl⟩
  cases found : part.datum? with
  | some decoder =>
    rw [read_of_datum? found] at failed
    obtain ⟨inner, cause, rfl⟩ := inField_eq_error_iff.1 failed
    exact Or.inl (.datum ⟨comes, decoder, middle, reached, found, rfl, same, cause⟩)
  | none =>
    obtain ⟨field, rfl⟩ : ∃ field, part = .field field := by
      cases part with
      | field field => exact ⟨field, rfl⟩
      | _ => cases found
    obtain ⟨last, child, inside', same', below⟩ | ⟨list, read, stop, count, rfl⟩ :=
      read_field_eq_error found stands.le.2 failed
    · exact Or.inr ⟨field, middle.position, last, comes, child, inside', same.trans same', below⟩
    · obtain ⟨name, fieldKind⟩ := field
      obtain rfl : fieldKind = .nodes := list
      exact Or.inl (.outside (.count comes count))

/-- Where no tag can be read, the buffer has ended. -/
theorem stopsAt_of_noTag (inside : state.position ≤ input.serialized.size)
    (run : (liftM Decoder.readByte : TreeDecoder UInt8) input state = .error error reached) :
    StopsAt input pool (depth + 1) state.position error := by
  obtain ⟨stop, failed, -⟩ := liftM_eq_error_iff.1 run
  obtain ⟨read, missing, rfl⟩ := Decoder.mapError_eq_error_iff.1 failed
  obtain ⟨outside, rfl, -⟩ := Decoder.readByte_eq_error_iff.1 missing
  rw [Nat.le_antisymm inside outside]
  exact .outside .noTag

/-- Where a declared length is refused, the whole node has been read. -/
theorem stopsAt_of_checkDefLength {start : Nat} {body : Option UInt32 × Node}
    {middle : TreeState} (tag : StandsAt [kind.tag] input.serialized start)
    (read : readBody depth kind input (state.moveTo (start + 1)) = .ok body middle)
    (run : (checkDefLength body.1 (start + 1) >>= fun _ => pure body.2) input middle =
      .error error reached) :
    StopsAt input pool (depth + 1) start error := by
  obtain ⟨declared?, node⟩ := body
  have inside : (state.moveTo (start + 1)).position ≤ input.serialized.size := tag.add_length_le
  have reads := reads_readBody (reads_readNode input depth) kind
  obtain ⟨bytes, form, there, stop⟩ := reads.standsBetween inside read
  obtain ⟨⟨rfl, -⟩, parts⟩ := mem_provided_mul.1 form
  obtain failed | ⟨_, _, -, finish⟩ := bind_eq_error_iff.1 run
  · cases declared? with
    | none => cases failed
    | some declared =>
      rw [checkDefLength_some_apply] at failed
      split at failed
      · next wrong =>
        simp only [Bool.and_eq_true, bne_iff_ne] at wrong
        have actual : middle.position - (start + 1) - Node.defLengthSize =
            middle.position - start - 5 := by
          rw [Node.defLengthSize]
          omega
        rw [actual] at wrong failed
        cases failed
        have whole := standsBetween_mul.2
          ⟨start + 1, standsBetween_singleton.2 ⟨tag, rfl⟩, bytes, parts, there, stop⟩
        exact .outside (.wrongLength whole wrong.1 wrong.2)
      · cases failed
  · cases finish

/-- A reading of a node that fails stops at one node, to which it has descended. -/
theorem readNode_eq_error (inside : state.position ≤ input.serialized.size)
    (same : SamePool pool state.pool)
    (run : readNode depth input state = .error error reached) :
    ∃ levels inner, levels ≤ depth ∧
      Descends input.rules input.serialized levels state.position inner ∧
      StopsAt input pool (depth - levels) inner error := by
  induction depth generalizing state with
  | zero =>
    refine ⟨0, state.position, Nat.le_refl 0, .here, ?_⟩
    cases run
    exact .outside .tooDeep
  | succ depth ih =>
    have stopping : StopsAt input pool (depth + 1) state.position error →
        ∃ levels inner, levels ≤ depth + 1 ∧
          Descends input.rules input.serialized levels state.position inner ∧
          StopsAt input pool (depth + 1 - levels) inner error :=
      fun stops => ⟨0, state.position, Nat.zero_le _, .here, stops⟩
    rw [readNode_succ] at run
    obtain failed | ⟨tag, middle, read, run⟩ := bind_eq_error_iff.1 run
    · exact stopping (stopsAt_of_noTag inside failed)
    · obtain ⟨stop, byte, rfl⟩ := liftM_eq_ok_iff.1 read
      obtain ⟨stands, rfl⟩ := Decoder.readByte_eq_ok_iff.1 ((Decoder.mapError_eq_ok_iff _).1 byte)
      cases known : Kind.ofTag? tag with
      | none =>
        simp only [known] at run
        refine stopping ?_
        cases run
        exact .outside (.unknownTag stands known)
      | some kind =>
        simp only [known] at run
        obtain rfl := Kind.tag_of_ofTag? known
        obtain failed | ⟨afterTag, _, here, run⟩ := bind_eq_error_iff.1 run
        · cases failed
        cases here
        obtain failed | ⟨body, last, read, run⟩ := bind_eq_error_iff.1 run
        · obtain stops | ⟨field, offset, middle, comes, child, inside', same', below⟩ :=
            readBody_eq_error stands failed rfl same
          · exact stopping stops
          · obtain ⟨levels, inner, shallow, descends, stops⟩ := ih inside' same' below
            refine ⟨levels + 1, inner, Nat.succ_le_succ shallow, .child comes child descends, ?_⟩
            rwa [Nat.succ_sub_succ]
        · exact stopping (stopsAt_of_checkDefLength stands read run)

end TreeDecoder

section

variable {input : TreeInput} {pool : ConstantPool} {depth start offset : Nat} {kind : Kind}
  {part : NodePart} {error : LoadError} {cause : LoadError.Cause}

theorem Kind.ComesTo.offset_le {rules : Rules} {buffer : ByteArray}
    (comes : kind.ComesTo rules buffer part start offset) : offset ≤ buffer.size := by
  obtain ⟨before, after, -, stands⟩ := comes
  exact stands.le.2

theorem FailsOutsideData.isTrueOf (fails : FailsOutsideData input depth start cause) :
    cause.IsTrueOf input := by
  cases fails with
  | tooDeep => exact rfl
  | noTag => exact ⟨Nat.add_zero _, Nat.one_pos⟩
  | unknownTag stands unknown => exact unknown
  | @count _ _ offset stop kind name error comes fails =>
    exact (Decoder.failsTruly_readCount (Nat.le_refl 5) offset error stop comes.offset_le fails).2
  | wrongLength stands asked wrong => exact wrong.symm

theorem FailsOutsideData.ne_trailingBytes (fails : FailsOutsideData input depth start cause)
    (expected actual : Nat) : cause ≠ .trailingBytes expected actual := by
  cases fails <;> nofun

theorem FailsInDatum.isPlainFrom (declared : input.Declares pool)
    (fails : FailsInDatum input pool start kind part offset error) :
    error.IsPlainFrom input offset := by
  obtain ⟨comes, decoder, state, reached, found, rfl, same, failed⟩ := fails
  exact TreeDecoder.failsPlainly_of_datum? declared found state error reached comes.offset_le same
    failed

end

end PrismTree
