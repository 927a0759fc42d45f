import PrismTree.Proofs.Failure.Datum
import PrismTree.Proofs.Wire.DefLength

/-!
# The parts of a node

Behind its tag a node is a sequence of parts: its id, its span, the length that a method definition
declares, its flags and its fields. To read a node is to read its parts in order, so a reading that
fails there has read all parts in front of the one that fails. A part that is made of nodes passes
the failures of these nodes on; every other part puts its name and its place on its failures.
-/
namespace PrismTree

/-- A part of a node behind the tag. -/
inductive NodePart where
  | id
  | location
  | defLength
  | flags
  | field (field : Field)

namespace NodePart

/-- The name of a part in an error. -/
def name : NodePart → String
  | .id => "node_id"
  | .location => "location"
  | .defLength => "serialized_length"
  | .flags => "flags"
  | .field part => part.name

/-- The forms of a part, whatever it holds. -/
def forms (rules : Rules) : NodePart → Language UInt8
  | .id => ⨆ number, rules.varint number
  | .location => ⨆ span, Wire.location rules.varint span
  | .defLength => ⨆ declared : UInt32, {Bytes.ofNat 4 declared.toNat}
  | .flags => ⨆ flags, Wire.flags rules.varint flags
  | .field part => ⨆ value : Value part.kind, value.forms rules

/-- How a part is read that is not made of nodes. -/
def datum? : NodePart → Option (TreeDecoder Unit)
  | .id => some (forget Decoder.readVarint)
  | .location => some (forget Decoder.readLocation)
  | .defLength => some (forget Decoder.readUInt32)
  | .flags => some (forget Decoder.readFlags)
  | .field ⟨_, .datum kind⟩ => some (forget (TreeDecoder.readDatum kind))
  | .field _ => none

/-- Read a part of a node of the given kind, given how to read a child. -/
def read (readChild : TreeDecoder Node) (kind : Kind) : NodePart → TreeDecoder Unit
  | .id => forget (TreeDecoder.inField kind "node_id" Decoder.readVarint)
  | .location => forget (TreeDecoder.inField kind "location" Decoder.readLocation)
  | .defLength => forget (TreeDecoder.inField kind "serialized_length" Decoder.readUInt32)
  | .flags => forget (TreeDecoder.inField kind "flags" Decoder.readFlags)
  | .field part => forget (TreeDecoder.readValue readChild kind part.name part.kind)

end NodePart

/-- The parts of a node behind its tag, in order. -/
def Kind.parts (kind : Kind) : List NodePart :=
  .id :: .location :: (if kind = .defNode then [.defLength] else []) ++
    .flags :: kind.layout.map .field

theorem StandsBetween.mono {forms forms' : Language UInt8} {buffer : ByteArray} {start stop : Nat}
    (stands : StandsBetween forms buffer start stop) (le : forms ≤ forms') :
    StandsBetween forms' buffer start stop := by
  obtain ⟨bytes, form, there, rfl⟩ := stands
  exact ⟨bytes, le form, there, rfl⟩

namespace TreeDecoder

open TreeState

variable {α β : Type} {input : TreeInput} {pool : ConstantPool} {state reached : TreeState}
  {readChild : TreeDecoder Node} {kind : Kind} {depth : Nat}

/-- Read parts in order, given how to read a child. -/
def readParts (readChild : TreeDecoder Node) (kind : Kind) : List NodePart → TreeDecoder Unit
  | [] => pure ()
  | part :: rest => part.read readChild kind >>= fun _ => readParts readChild kind rest

theorem forget_bind (decoder : TreeDecoder α) (next : Unit → TreeDecoder β) :
    forget decoder >>= next = decoder >>= fun _ => next () :=
  bind_map_left _ _ _

theorem readParts_cons (part : NodePart) (rest : List NodePart) :
    readParts readChild kind (part :: rest) =
      part.read readChild kind >>= fun _ => readParts readChild kind rest :=
  rfl

theorem forget_readFields (layout : List Field) :
    forget (readFields readChild kind layout) =
      readParts readChild kind (layout.map .field) := by
  induction layout with
  | nil => rfl
  | cons field layout ih =>
    rw [List.map_cons, readParts_cons, NodePart.read, forget_bind, ← ih]
    simp only [forget, readFields, map_bind, map_pure]
    refine bind_congr fun value => ?_
    rw [map_eq_pure_bind]

theorem forget_readBody (depth : Nat) (kind : Kind) :
    forget (readBody depth kind) = readParts (readNode depth) kind kind.parts := by
  have fields := @forget_readFields (readNode depth) kind kind.layout
  rw [forget, map_eq_pure_bind] at fields
  by_cases definition : kind = .defNode
  · have parts : kind.parts =
        .id :: .location :: .defLength :: .flags :: kind.layout.map .field := by
      rw [Kind.parts, if_pos definition]
      rfl
    simp only [parts, readParts_cons, NodePart.read, forget_bind, ← fields]
    simp only [forget, readBody, readDefLength, if_pos definition, map_bind, map_pure,
      bind_map_left]
  · have parts : kind.parts = .id :: .location :: .flags :: kind.layout.map .field := by
      rw [Kind.parts, if_neg definition]
      rfl
    simp only [parts, readParts_cons, NodePart.read, forget_bind, ← fields]
    simp only [forget, readBody, readDefLength, if_neg definition, map_bind, map_pure, pure_bind]

theorem Reads.of_forget {decoder : TreeDecoder α} {forms : α → Language UInt8}
    {references : α → List ConstantId} (reads : decoder.Reads input forms references)
    (inside : state.position ≤ input.serialized.size) {any : Language UInt8}
    (le : ∀ value, forms value ≤ any) (run : forget decoder input state = .ok () reached) :
    StandsBetween any input.serialized state.position reached.position ∧
      SamePool state.pool reached.pool := by
  obtain ⟨value, run, -⟩ := map_eq_ok_iff.1 run
  obtain ⟨-, -, same⟩ := reads.advances state value reached inside run
  exact ⟨(reads.standsBetween inside run).mono (le value), same⟩

/-- Where a part is read, one of its forms stands. -/
theorem standsBetween_of_readPart {part : NodePart}
    (inside : state.position ≤ input.serialized.size)
    (run : part.read (readNode depth) kind input state = .ok () reached) :
    StandsBetween (part.forms input.rules) input.serialized state.position reached.position ∧
      SamePool state.pool reached.pool := by
  cases part with
  | id =>
    exact (Reads.ofDecoder Decoder.reads_readVarint.lift).inField.of_forget inside
      (le_iSup Varint.forms) run
  | location =>
    exact (Reads.ofDecoder Decoder.reads_readLocation.lift).inField.of_forget inside
      (le_iSup (Wire.location Varint.forms)) run
  | defLength =>
    exact (Reads.ofDecoder Decoder.reads_readUInt32.lift).inField.of_forget inside
      (le_iSup fun declared : UInt32 => {Bytes.ofNat 4 declared.toNat}) run
  | flags =>
    exact (Reads.ofDecoder Decoder.reads_readFlags).inField.of_forget inside
      (le_iSup (Wire.flags Varint.forms)) run
  | field part =>
    have reads := reads_readValue (reads_readNode input depth) kind part.name part.kind
    refine reads.of_forget inside (fun value bytes form => ?_) run
    exact Language.mem_iSup.2 ⟨value, (mem_provided_mul.1 form).2⟩

/-- Of parts in sequence one fails, and those in front of it stand in the buffer. -/
theorem readParts_eq_error {parts : List NodePart} {error : LoadError}
    (inside : state.position ≤ input.serialized.size)
    (run : readParts (readNode depth) kind parts input state = .error error reached) :
    ∃ before part after middle, parts = before ++ part :: after ∧
      StandsBetween (before.map (NodePart.forms input.rules)).prod input.serialized
        state.position middle.position ∧
      SamePool state.pool middle.pool ∧
      part.read (readNode depth) kind input middle = .error error reached := by
  induction parts generalizing state with
  | nil => cases run
  | cons part rest ih =>
    obtain failed | ⟨⟨⟩, middle, first, run⟩ := bind_eq_error_iff.1 run
    · exact ⟨[], part, rest, state, rfl, ⟨[], rfl, standsAt_nil.2 inside, rfl⟩, .refl _, failed⟩
    · obtain ⟨stands, same⟩ := standsBetween_of_readPart inside first
      obtain ⟨before, part', after, last, rfl, behind, same', failed⟩ := ih stands.le.2 run
      refine ⟨part :: before, part', after, last, rfl, ?_, same.trans same', failed⟩
      rw [List.map_cons, List.prod_cons]
      exact standsBetween_mul.2 ⟨middle.position, stands, behind⟩

section Items

variable {decoder : TreeDecoder α} {forms : α → Language UInt8} {references : α → List ConstantId}
  {error : LoadError}

/-- What may be absent fails only if it is there. -/
theorem optional_eq_error
    (run : ((liftM Decoder.readAbsent : TreeDecoder Bool) >>= fun absent =>
      if absent then pure none else some <$> decoder) input state = .error error reached) :
    ¬StandsAt [0] input.serialized state.position ∧ decoder input state = .error error reached := by
  obtain failed | ⟨absent, middle, peeked, run⟩ := bind_eq_error_iff.1 run
  · obtain ⟨stop, failed, -⟩ := liftM_eq_error_iff.1 failed
    exact absurd failed runFrom_readAbsent_ne_error
  · obtain ⟨stop, looked, rfl⟩ := liftM_eq_ok_iff.1 peeked
    have looked := readAbsent_eq_ok_iff.1 looked
    cases absent with
    | true => cases run
    | false =>
      obtain ⟨present, rfl⟩ := looked
      exact ⟨present, map_eq_error_iff.1 run⟩

/-- Of counted items one fails, if their number can be read, and those in front of it stand behind
the number. -/
theorem counted_eq_error {counter : Decoder LoadError Nat} {least minSize : Nat}
    (announces : counter.Announces least minSize) (reads : decoder.Reads input forms references)
    (inside : state.position ≤ input.serialized.size)
    (run : ((liftM counter : TreeDecoder Nat) >>= fun count => readMany count fun _ => decoder)
      input state = .error error reached) :
    (∃ stop, counter.runFrom input.serialized state.position = .error error stop ∧
        reached = state.moveTo stop) ∨
      ∃ count first, ∃ earlier : List α, ∃ last,
        StandsBetween (Wire.count Varint.forms count) input.serialized state.position first ∧
        earlier.length < count ∧
        StandsBetween (earlier.map forms).prod input.serialized first last.position ∧
        state.Follows input (earlier.flatMap references) last.position last ∧
        decoder input last = .error error reached := by
  obtain failed | ⟨count, middle, counted, run⟩ := bind_eq_error_iff.1 run
  · exact Or.inl (liftM_eq_error_iff.1 failed)
  · obtain ⟨stop, announced, rfl⟩ := liftM_eq_ok_iff.1 counted
    obtain ⟨-, -, number, form, stands, rfl⟩ := (announces _ _ inside count stop).1 announced
    obtain ⟨index, earlier, last, fewer, rfl, before, failed⟩ := readMany_eq_error run
    obtain ⟨bytes, items, stand, follows⟩ :=
      (reads_readMany (fun _ => reads) earlier.length _ stands.add_length_le earlier last).1 before
    have here := position_of_follows follows
    exact Or.inr ⟨count, _, earlier, last, ⟨number, form, stands, rfl⟩, fewer,
      ⟨bytes, (mem_provided_mul.1 items).2, stand, here⟩, here ▸ follows_moveTo.1 follows, failed⟩

end Items

theorem inField_forget (field : String) (decoder : TreeDecoder α) :
    inField kind field (forget decoder) = forget (inField kind field decoder) := by
  funext input state
  show inField kind field (decoder >>= fun _ => pure ()) input state =
    (inField kind field decoder >>= fun _ => pure ()) input state
  rw [inField_apply, bind_apply, bind_apply, inField_apply]
  cases decoder input state <;> rfl

theorem read_of_datum? {part : NodePart} {decoder : TreeDecoder Unit}
    (found : part.datum? = some decoder) :
    part.read readChild kind = inField kind part.name decoder := by
  cases part with
  | field part =>
    obtain ⟨name, fieldKind⟩ := part
    cases fieldKind with
    | datum datumKind =>
      cases found
      rw [inField_forget]
      exact Functor.map_map _ _ _
    | _ => cases found
  | _ =>
    cases found
    exact (inField_forget _ _).symm

theorem failsPlainly_of_datum? (declared : input.Declares pool) {part : NodePart}
    {decoder : TreeDecoder Unit} (found : part.datum? = some decoder) :
    decoder.FailsPlainly input pool := by
  cases part with
  | id =>
    cases found
    exact (failsPlainly_liftM Decoder.failsTruly_readVarint.lift).map _
  | location =>
    cases found
    exact (failsPlainly_liftM Decoder.failsTruly_readLocation.lift).map _
  | defLength =>
    cases found
    exact (failsPlainly_liftM Decoder.failsTruly_readUInt32.lift).map _
  | flags =>
    cases found
    exact (failsPlainly_liftM Decoder.failsPlainly_readFlags).map _
  | field part =>
    obtain ⟨name, fieldKind⟩ := part
    cases fieldKind with
    | datum datumKind =>
      cases found
      exact (failsPlainly_readDatum declared datumKind).map _
    | _ => cases found

end TreeDecoder

end PrismTree
