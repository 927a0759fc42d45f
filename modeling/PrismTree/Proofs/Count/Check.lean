import PrismTree.Node.Decoder

/-!
# Trees with a check of counts

Whenever a number tells how many items follow, it is refused if the rest of the buffer has no room
for so many. Here every reader of trees that looks at a count takes this check as a parameter, so
that a tree can be read without it: a count is then simply followed by the reading of as many items.
With the check of a load, each of these readers is the reader of a load.
-/
namespace PrismTree

/-- What is done with a count before its items are read, given the size of the smallest item. -/
def CountCheck : Type :=
  UInt32 → Nat → Decoder ReadError Nat

namespace CountCheck

/-- The check of a load: as many of the smallest items have to fit into the rest of the buffer. -/
def room : CountCheck :=
  Decoder.ensureCount

/-- No check: every count is believed. -/
def trust : CountCheck := fun count _ =>
  pure count.toNat

variable (check : CountCheck)

/-- Read the count of a list, given the size of its smallest item. -/
def readCount (minSize : Nat) : Decoder ReadError Nat := do
  check (← Decoder.readVarint) minSize

/-- Read an integer: its sign, then the counted words of its magnitude, of which there is one at
least. -/
def readInteger : Decoder LoadError Int := do
  let sign ← Decoder.readByte
  let count ← Decoder.readVarint
  if count = 0 then
    Decoder.fail .emptyInteger
  else
    let count ← check count 1
    let words ← readMany count fun _ => Decoder.readVarint
    return if sign = 0 then Decoder.magnitude words else -Decoder.magnitude words

/-- Read a counted list of references to constants. -/
def readConstants : TreeDecoder (List ConstantId) := do
  let count ← check.readCount 1
  readMany count fun _ => TreeDecoder.readConstant

/-- Read a datum. Only integers and lists of constants are counted. -/
def readDatum : (kind : DatumKind) → TreeDecoder (Datum kind)
  | .constants => .constants <$> check.readConstants
  | .integer => do return .integer (← check.readInteger)
  | kind => TreeDecoder.readDatum kind

/-- Read the value of a field of a node of the given kind, given how to read a child. -/
def readValue (readChild : TreeDecoder Node) (kind : Kind) (name : String) :
    (fieldKind : FieldKind) → TreeDecoder (Value fieldKind)
  | .nodes => do
    let count ← check.readCount Node.minSize
    return .nodes (← readMany count fun _ => readChild)
  | .datum datumKind => .datum <$> TreeDecoder.inField kind name (check.readDatum datumKind)
  | fieldKind => TreeDecoder.readValue readChild kind name fieldKind

/-- Read the fields of a layout in order, given how to read a child. -/
def readFields (readChild : TreeDecoder Node) (kind : Kind) :
    (layout : List Field) → TreeDecoder (Fields layout)
  | [] => return .nil
  | field :: layout => do
    let value ← check.readValue readChild kind field.name field.kind
    let rest ← readFields readChild kind layout
    return .cons value rest

/-- Read a node with at most the given depth. -/
def readNode : (depth : Nat) → TreeDecoder Node
  | 0 => do TreeDecoder.fail (.nestingTooDeep (← TreeDecoder.input).options.maxDepth)
  | depth + 1 => do
    let tag ← Decoder.readByte
    match Kind.ofTag? tag with
    | none => TreeDecoder.fail (.unknownNodeType tag)
    | some kind =>
      let afterTag ← TreeDecoder.position
      let id ← TreeDecoder.inField kind "node_id" Decoder.readVarint
      let location ← TreeDecoder.inField kind "location" Decoder.readLocation
      let declared? ← TreeDecoder.readDefLength kind
      let flags ← TreeDecoder.inField kind "flags" Decoder.readFlags
      let fields ← check.readFields (readNode depth) kind kind.layout
      TreeDecoder.checkDefLength declared? afterTag
      return ⟨kind, id, location, flags, false, fields⟩

theorem readDatum_room (kind : DatumKind) : room.readDatum kind = TreeDecoder.readDatum kind := by
  cases kind <;> rfl

theorem readValue_room (readChild : TreeDecoder Node) (kind : Kind) (name : String)
    (fieldKind : FieldKind) :
    room.readValue readChild kind name fieldKind =
      TreeDecoder.readValue readChild kind name fieldKind := by
  cases fieldKind with
  | node => rfl
  | optNode => rfl
  | nodes => rfl
  | datum datumKind => rw [readValue, readDatum_room, TreeDecoder.readValue]

theorem readFields_room (readChild : TreeDecoder Node) (kind : Kind) (layout : List Field) :
    room.readFields readChild kind layout = TreeDecoder.readFields readChild kind layout := by
  induction layout with
  | nil => rfl
  | cons field layout ih => rw [readFields, readValue_room, ih, TreeDecoder.readFields]

theorem readNode_room (depth : Nat) : room.readNode depth = TreeDecoder.readNode depth := by
  induction depth with
  | zero => rfl
  | succ depth ih =>
    rw [readNode, ih, TreeDecoder.readNode]
    refine bind_congr fun tag => ?_
    cases Kind.ofTag? tag with
    | none => rfl
    | some kind => simp only [readFields_room]

end CountCheck

end PrismTree
