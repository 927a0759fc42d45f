import PrismTree.Proofs.Wire.Placement

/-!
# Nodes by their heads

A node is its head and its fields. The head is read at one go, without a look at the constant pool,
and takes at least as many bytes as the smallest node; the children stand behind it.
-/
namespace PrismTree

/-- The node with a head and fields, as it is read. -/
def NodeHead.node (head : NodeHead) (fields : Fields head.kind.layout) : Node :=
  ⟨head.kind, head.id, head.location, head.flags, false, fields⟩

theorem NodeHead.minSize_le_of_mem_forms {head : NodeHead} {bytes : List UInt8}
    (form : bytes ∈ head.forms) : Node.minSize ≤ bytes.length := by
  have number : ∀ n, ∀ bytes ∈ Varint.forms n, 1 ≤ bytes.length :=
    fun _ _ => Varint.length_pos_of_mem_forms
  have length : ∀ bytes ∈ Wire.defLength head.kind head.declared?, 0 ≤ bytes.length :=
    fun _ _ => Nat.zero_le _
  have behind := add_le_length_of_mem_mul length (number head.flags.bits.toUInt32)
  have span := add_le_length_of_mem_mul (Wire.two_le_length_of_location head.location) behind
  exact add_le_length_of_mem_mul Wire.one_le_length_of_byte
    (add_le_length_of_mem_mul (number head.id) span) bytes form

namespace TreeDecoder

/-- Read what stands between the tag of a node of the given kind and its fields. -/
def readHeadOf (kind : Kind) : TreeDecoder NodeHead := do
  let id ← inField kind "node_id" Decoder.readVarint
  let location ← inField kind "location" Decoder.readLocation
  let declared? ← readDefLength kind
  let flags ← inField kind "flags" Decoder.readFlags
  return ⟨kind, id, location, declared?, flags⟩

/-- Read the head of a node, and give it back with the position behind the tag. -/
def readHead : TreeDecoder (Nat × NodeHead) := do
  let tag ← Decoder.readByte
  match Kind.ofTag? tag with
  | none => fail (.unknownNodeType tag)
  | some kind =>
    let afterTag ← position
    let head ← readHeadOf kind
    return (afterTag, head)

/-- Read a node, given how to read a child. -/
def readNodeWith (readChild : TreeDecoder Node) : TreeDecoder Node := do
  let (afterTag, head) ← readHead
  let fields ← readFields readChild head.kind head.kind.layout
  checkDefLength head.declared? afterTag
  return head.node fields

theorem readNode_eq (depth : Nat) : readNode (depth + 1) = readNodeWith (readNode depth) := by
  rw [readNode, readNodeWith, readHead, bind_assoc]
  apply bind_congr
  intro tag
  cases Kind.ofTag? tag with
  | none => rfl
  | some kind => simp only [readHeadOf, bind_assoc, pure_bind, NodeHead.node]

variable {input : TreeInput} {state middle : TreeState}

theorem reads_readHeadOf (kind : Kind) :
    (readHeadOf kind).Reads input
      (fun head => provided (head.kind = kind) *
        (Varint.forms head.id * (Wire.location Varint.forms head.location *
          (Wire.defLength head.kind head.declared? * Wire.flags Varint.forms head.flags))))
      fun _ => [] := by
  refine ((Reads.ofDecoder Decoder.reads_readVarint.lift).inField.bindAfter fun id =>
    (Reads.ofDecoder Decoder.reads_readLocation.lift).inField.bindAfter fun location =>
    (reads_readDefLength kind).bindAfter fun declared? =>
    (Reads.ofDecoder Decoder.reads_readFlags).inField.map
      (fun flags => NodeHead.mk kind id location declared? flags) _ fun _ => rfl).congr ?_
  rintro ⟨kind', id, location, declared?, flags⟩
  ext bytes
  simp only [Language.mul_iSup, mul_provided_mul, Language.mem_iSup, mem_provided_mul]
  constructor
  · rintro ⟨_, _, _, _, ⟨⟩, form⟩
    exact ⟨rfl, form⟩
  · rintro ⟨rfl, form⟩
    exact ⟨_, _, _, _, rfl, form⟩

/-- Where a head was read it stands, and nothing but the position has changed. -/
theorem standsBetween_of_readHead {afterTag : Nat} {head : NodeHead}
    (run : readHead input state = .ok (afterTag, head) middle) :
    afterTag = state.position + 1 ∧
      StandsBetween head.forms input.serialized state.position middle.position ∧
      middle = state.moveTo middle.position := by
  obtain ⟨tag, _, read, run⟩ := bind_eq_ok_iff.1 run
  obtain ⟨stop, byte, rfl⟩ := liftM_eq_ok_iff.1 read
  obtain ⟨stands, rfl⟩ := Decoder.readByte_eq_ok_iff.1 ((Decoder.mapError_eq_ok_iff _).1 byte)
  cases known : Kind.ofTag? tag with
  | none =>
    simp only [known] at run
    cases run
  | some kind =>
    simp only [known] at run
    obtain ⟨_, _, here, run⟩ := bind_eq_ok_iff.1 run
    cases here
    obtain ⟨head', reached, read, finish⟩ := bind_eq_ok_iff.1 run
    obtain ⟨paired, rfl⟩ := pure_eq_ok_iff.1 finish
    cases paired
    obtain ⟨bytes, form, there, follows⟩ :=
      (reads_readHeadOf kind _ stands.add_length_le head middle).1 read
    obtain rfl := TreeState.follows_nil.1 follows
    obtain ⟨rfl, behind⟩ := mem_provided_mul.1 form
    refine ⟨rfl, standsBetween_mul.2 ⟨state.position + 1, ?_, bytes, behind, there, rfl⟩, rfl⟩
    exact standsBetween_singleton.2 ⟨(Kind.tag_of_ofTag? known) ▸ stands, rfl⟩

/-- A head that is read takes at least as many bytes as the smallest node. -/
theorem add_minSize_le_of_readHead {afterTag : Nat} {head : NodeHead}
    (run : readHead input state = .ok (afterTag, head) middle) :
    state.position + Node.minSize ≤ middle.position ∧
      middle.position ≤ input.serialized.size := by
  obtain ⟨-, ⟨bytes, form, stands, stop⟩, -⟩ := standsBetween_of_readHead run
  have long := NodeHead.minSize_le_of_mem_forms form
  have inside := stands.add_length_le
  omega

end TreeDecoder

end PrismTree
