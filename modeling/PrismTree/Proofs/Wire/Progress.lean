import PrismTree.Proofs.Failure.Datum
import PrismTree.Proofs.Wire.DefLength
import PrismTree.Proofs.Wire.Head

/-!
# Progress through the buffer

The reader of nodes recurs on the depth that is left, which is as great as its user likes. What ends
the recursion is the buffer all the same: a node takes at least five bytes, and the reading of a
child begins behind the head of its parent. So the reader can as well recur on the bytes that are
left, and the depth is no more than a test.
-/
namespace PrismTree

namespace TreeDecoder

variable {α β : Type} {input : TreeInput} {state reached : TreeState}

/-- A node that is read takes at least as many bytes as the smallest node. -/
theorem add_minSize_le_of_readNode {depth : Nat} {node : Node}
    (run : readNode depth input state = .ok node reached) :
    state.position + Node.minSize ≤ reached.position ∧
      reached.position ≤ input.serialized.size := by
  obtain ⟨bytes, form, stands, follows⟩ := exists_form_of_readNode run
  have stop := TreeState.position_of_follows follows
  have long : Node.minSize ≤ bytes.length := Node.minSize_le_of_mem_forms
    (fun _ _ => Varint.length_pos_of_mem_forms) (mem_provided_mul.1 form).2
  have inside := stands.add_length_le
  omega

/-- Two decoders do the same at all positions of the buffer from a given one on. -/
def SameFrom (input : TreeInput) (start : Nat) (decoder decoder' : TreeDecoder α) : Prop :=
  ∀ state, start ≤ state.position → state.position ≤ input.serialized.size →
    decoder input state = decoder' input state

section Rules

variable {start : Nat} {decoder decoder' : TreeDecoder α}

theorem SameFrom.refl (decoder : TreeDecoder α) : SameFrom input start decoder decoder :=
  fun _ _ _ => rfl

/-- What follows a decoder that advances begins behind the position as well. -/
theorem SameFrom.bind {next next' : α → TreeDecoder β}
    (first : SameFrom input start decoder decoder')
    (advances : decoder.Advances input)
    (second : ∀ value, SameFrom input start (next value) (next' value)) :
    SameFrom input start (decoder >>= next) (decoder' >>= next') := by
  intro state behind inside
  rw [bind_apply, bind_apply, ← first state behind inside]
  cases run : decoder input state with
  | error error reached => rfl
  | ok value middle =>
    obtain ⟨le, inside', -⟩ := advances state value middle inside run
    exact second value middle (by omega) inside'

theorem SameFrom.map (f : α → β) (first : SameFrom input start decoder decoder') :
    SameFrom input start (f <$> decoder) (f <$> decoder') := by
  intro state behind inside
  rw [map_eq_pure_bind, map_eq_pure_bind, bind_apply, bind_apply, first state behind inside]

theorem SameFrom.readMany {item item' : Nat → TreeDecoder α}
    (each : ∀ index, SameFrom input start (item index) (item' index))
    (advances : ∀ index, (item index).Advances input) (count : Nat) :
    SameFrom input start (PrismTree.readMany count item) (PrismTree.readMany count item') :=
  @readMany_related TreeDecoder _ α item item' (SameFrom input start)
    (fun values => .refl (pure values))
    (fun index _ _ rest => (each index).bind (advances index) rest) count

end Rules

section Fields

variable {start depth : Nat} {readChild : TreeDecoder Node}
  (child : SameFrom input start (readNode depth) readChild)

include child

theorem sameFrom_readValue (kind : Kind) (name : String) (fieldKind : FieldKind) :
    SameFrom input start (readValue (readNode depth) kind name fieldKind)
      (readValue readChild kind name fieldKind) := by
  cases fieldKind with
  | node => exact child.map _
  | optNode =>
    apply (SameFrom.refl _).bind (advances_liftM advances_readAbsent)
    intro absent
    cases absent with
    | true => exact .refl _
    | false => exact child.bind (reads_readNode input depth).advances fun _ => .refl _
  | nodes =>
    apply (SameFrom.refl _).bind
      (advances_liftM (Decoder.announces_readCount Node.minSize).lift.advances)
    intro count
    rw [← map_eq_pure_bind, ← map_eq_pure_bind]
    exact (SameFrom.readMany (fun _ => child) (fun _ => (reads_readNode input depth).advances)
      count).map _
  | datum datumKind => exact .refl _

/-- Fields are read in the same way if their children are. -/
theorem sameFrom_readFields (kind : Kind) (layout : List Field) :
    SameFrom input start (readFields (readNode depth) kind layout)
      (readFields readChild kind layout) := by
  induction layout with
  | nil => exact .refl _
  | cons field layout ih =>
    have advances := (reads_readValue (reads_readNode input depth) kind field.name
      field.kind).advances
    apply (sameFrom_readValue child kind field.name field.kind).bind advances
    intro value
    rw [← map_eq_pure_bind, ← map_eq_pure_bind]
    exact ih.map _

end Fields

/-- Read a node that lies in a number of others. The reading of a child has to begin behind the tag
and inside the buffer, or something else is done. -/
def readNodeOnward (otherwise : TreeDecoder Node) (nesting : Nat) : TreeDecoder Node :=
  fun input state =>
    if input.options.maxDepth ≤ nesting then
      fail (.nestingTooDeep input.options.maxDepth) input state
    else
      readNodeWith (fun _ inner =>
        if state.position < inner.position ∧ inner.position ≤ input.serialized.size then
          readNodeOnward otherwise (nesting + 1) input inner
        else otherwise input inner) input state
termination_by input state => input.serialized.size - state.position

/-- Whatever would be done instead, the reading of a child always begins behind the tag of its
parent. So the reader of nodes ends by the bytes that are left alone. -/
theorem readNodeOnward_eq (otherwise : TreeDecoder Node) (nesting : Nat) (input : TreeInput)
    (state : TreeState) :
    readNodeOnward otherwise nesting input state =
      readNode (input.options.maxDepth - nesting) input state := by
  induction left : input.serialized.size - state.position using Nat.strong_induction_on
    generalizing nesting state with
  | _ bytesLeft ih =>
    rw [readNodeOnward]
    by_cases deep : input.options.maxDepth ≤ nesting
    · rw [if_pos deep, Nat.sub_eq_zero_of_le deep]
      rfl
    · obtain ⟨depth, depth_eq⟩ : ∃ depth, input.options.maxDepth - nesting = depth + 1 :=
        ⟨input.options.maxDepth - nesting - 1, by omega⟩
      rw [if_neg deep, depth_eq, readNode_eq]
      apply bind_congr_run
      rintro ⟨afterTag, head⟩ middle front
      obtain ⟨long, inside⟩ := add_minSize_le_of_readHead front
      rw [Node.minSize] at long
      have child : SameFrom input middle.position (readNode depth) fun _ inner =>
          if state.position < inner.position ∧ inner.position ≤ input.serialized.size then
            readNodeOnward otherwise (nesting + 1) input inner
          else otherwise input inner := by
        intro inner behind inside'
        have further : state.position < inner.position := by omega
        have less : input.serialized.size - inner.position < bytesLeft := by omega
        have depth_eq' : input.options.maxDepth - (nesting + 1) = depth := by omega
        have known : state.position < inner.position ∧
            inner.position ≤ input.serialized.size := ⟨further, inside'⟩
        simp only [if_pos known]
        rw [ih _ less (nesting + 1) inner rfl, depth_eq']
      have fields := sameFrom_readFields child head.kind head.kind.layout middle (Nat.le_refl _)
        inside
      show (readFields _ _ _ >>= _) input middle = (readFields _ _ _ >>= _) input middle
      rw [bind_apply, bind_apply, fields]

end TreeDecoder

end PrismTree
