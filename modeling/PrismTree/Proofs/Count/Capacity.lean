import PrismTree.Proofs.Count.Outcome
import PrismTree.Proofs.Wire.Scalar

/-!
# The capacity of lists

A list is sized before its items are read, by the number that the check of counts lets pass. A check
may watch that number: where it is more than the rest of the buffer can hold, it does something
else. In a load it never has to, since all items take space and the number has been compared with
that.
-/
namespace PrismTree

namespace CountCheck

/-- Two checks do the same with items that take space. -/
def AgreesWith (check check' : CountCheck) : Prop :=
  ∀ count minSize, 0 < minSize → check count minSize = check' count minSize

section

variable {α : Type} {check check' : CountCheck} (same : check.AgreesWith check')

include same

theorem AgreesWith.readCount {minSize : Nat} (space : 0 < minSize) :
    check.readCount minSize = check'.readCount minSize := by
  unfold CountCheck.readCount
  apply bind_congr
  intro count
  exact same count minSize space

theorem AgreesWith.readLines : check.readLines = check'.readLines := by
  unfold CountCheck.readLines
  rw [same.readCount (by decide)]

theorem AgreesWith.readRecords (kind : RecordKind) {minSize : Nat} (space : 0 < minSize)
    (record : Decoder LoadError α) :
    check.readRecords kind minSize record = check'.readRecords kind minSize record := by
  unfold CountCheck.readRecords
  rw [same.readCount space]

theorem AgreesWith.readPreamble : check.readPreamble = check'.readPreamble := by
  have heading : check.readHeading = check'.readHeading := by
    unfold CountCheck.readHeading
    rw [same.readLines]
  have remarks : check.readRemarks = check'.readRemarks := by
    unfold CountCheck.readRemarks
    rw [same.readRecords .comment (by decide), same.readRecords .magicComment (by decide),
      same.readRecords .error (by decide), same.readRecords .warning (by decide)]
  unfold CountCheck.readPreamble
  rw [heading, remarks]

theorem AgreesWith.readDatum (kind : DatumKind) : check.readDatum kind = check'.readDatum kind := by
  cases kind with
  | constants =>
    unfold CountCheck.readDatum CountCheck.readConstants
    rw [same.readCount (by decide)]
  | integer =>
    unfold CountCheck.readDatum CountCheck.readInteger
    simp only [same _ 1 Nat.one_pos]
  | _ => rfl

theorem AgreesWith.readFields (readChild : TreeDecoder Node) (kind : Kind) (layout : List Field) :
    check.readFields readChild kind layout = check'.readFields readChild kind layout := by
  have value : ∀ name fieldKind, check.readValue readChild kind name fieldKind =
      check'.readValue readChild kind name fieldKind := by
    intro name fieldKind
    cases fieldKind with
    | nodes =>
      unfold CountCheck.readValue
      rw [same.readCount (by decide)]
    | datum datumKind => rw [CountCheck.readValue, CountCheck.readValue, same.readDatum]
    | _ => rfl
  induction layout with
  | nil => rfl
  | cons field layout ih => rw [CountCheck.readFields, CountCheck.readFields, value, ih]

theorem AgreesWith.readNode (depth : Nat) : check.readNode depth = check'.readNode depth := by
  induction depth with
  | zero => rfl
  | succ depth ih =>
    rw [CountCheck.readNode, CountCheck.readNode, ih]
    simp only [same.readFields]

/-- Checks that agree on items that take space make the same load. -/
theorem AgreesWith.load (serialized source : ByteArray) (options : LoadOptions) :
    check.load serialized source options = check'.load serialized source options := by
  have trees : check.treeOutcome = check'.treeOutcome := by
    funext input source pool position trace
    unfold CountCheck.treeOutcome
    rw [same.readNode]
  unfold CountCheck.load CountCheck.outcome
  rw [same.readPreamble, trees]

end

/-- The check of a load, with something else done where it lets more items pass than the smallest of
which the rest of the buffer can hold. -/
def roomOr (otherwise : CountCheck) : CountCheck := fun count minSize => do
  let capacity ← Decoder.ensureCount count minSize
  if (← Decoder.remaining) / minSize < capacity then
    otherwise count minSize
  else
    return capacity

theorem agreesWith_roomOr (otherwise : CountCheck) : (roomOr otherwise).AgreesWith room := by
  intro count minSize space
  funext buffer position
  show (roomOr otherwise count minSize).runFrom buffer position =
    (Decoder.ensureCount count minSize).runFrom buffer position
  rw [roomOr, Decoder.runFrom_bind]
  cases run : (Decoder.ensureCount count minSize).runFrom buffer position with
  | error error stop => rfl
  | ok capacity stop =>
    obtain ⟨rfl, rfl, enough⟩ := Decoder.ensureCount_eq_ok_iff.1 run
    have fits : ¬(buffer.size - stop) / minSize < count.toNat :=
      Nat.not_lt.2 ((Nat.le_div_iff_mul_le space).2 enough)
    have left : (Decoder.remaining : Decoder ReadError Nat).runFrom buffer stop =
        .ok (buffer.size - stop) stop := rfl
    dsimp only
    rw [Decoder.runFrom_bind, left]
    dsimp only
    rw [if_neg fits]
    rfl

/-- Whatever would be done instead, a load sizes each list for no more items than the rest of the
buffer can hold. -/
theorem load_roomOr (otherwise : CountCheck) (serialized source : ByteArray)
    (options : LoadOptions) :
    (roomOr otherwise).load serialized source options =
      PrismTree.load serialized source options := by
  rw [(agreesWith_roomOr otherwise).load, load_room]

end CountCheck

end PrismTree
