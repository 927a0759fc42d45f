import PrismTree.Proofs.Cursor.Movement

/-!
# Reading with machine words

On a machine a position is a word of 64 bits. Sums and products of words stop at the ends of their
range, a number is put together with shifts and masks, and a program that slices outside its buffer
or lets a sum overflow does not go on at all. A decoder over natural numbers has none of this. For
every buffer that a machine can address the two agree, from every position inside the buffer: so the
machine never stops, and its words are those of the exact numbers.
-/
namespace PrismTree

variable {α β : Type}

/-- The word nearest to a number. -/
def saturate (n : Int) : UInt64 :=
  UInt64.ofNat (min n.toNat (2 ^ 64 - 1))

/-- A reading by machine words: none if the machine cannot go on. -/
def Machine (α : Type) : Type :=
  ByteArray → UInt64 → Option (EStateM.Result ReadError UInt64 α)

namespace Machine

/-- Run a machine on a buffer from a position. -/
def runFrom (machine : Machine α) (bytes : ByteArray) (position : UInt64) :
    Option (EStateM.Result ReadError UInt64 α) :=
  machine bytes position

/-- Go on from the position that was reached; stop at the first failure, and for good if the machine
cannot go on. -/
protected def bind (machine : Machine α) (next : α → Machine β) : Machine β :=
  fun bytes position =>
    (machine bytes position).bind fun
      | .ok value position => next value bytes position
      | .error error position => some (.error error position)

instance : Monad Machine where
  pure value := fun _ position => some (.ok value position)
  bind := Machine.bind

theorem runFrom_bind (machine : Machine α) (next : α → Machine β) (bytes : ByteArray)
    (position : UInt64) :
    (machine >>= next).runFrom bytes position =
      (machine.runFrom bytes position).bind fun
        | .ok value position => (next value).runFrom bytes position
        | .error error position => some (.error error position) :=
  rfl

/-- Fail at the current position. -/
protected def throw (error : ReadError) : Machine α := fun _ position =>
  some (.error error position)

/-- Do not go on at all. -/
def trap : Machine α := fun _ _ => none

/-- The current position. -/
def position : Machine UInt64 := fun _ position =>
  some (.ok position position)

/-- Number of bytes after the current position. -/
def remaining : Machine UInt64 := fun bytes position =>
  some (.ok (saturate (bytes.size - position.toNat)) position)

/-- Move to a position, or to the end if the position lies past it. -/
def seek (target : UInt64) : Machine Unit := fun bytes _ =>
  some (.ok () (min target (UInt64.ofNat bytes.size)))

/-- Move by a signed distance, stopping at the ends of the range of words and at the end of the
buffer. -/
def skip (distance : Int64) : Machine Unit := fun bytes position =>
  some (.ok () (min (saturate (position.toNat + distance.toInt)) (UInt64.ofNat bytes.size)))

/-- The byte at the current position, without moving. -/
def peek : Machine (Option UInt8) := fun bytes position =>
  some (.ok bytes[position.toNat]? position)

/-- Read one byte; the position must not overflow. -/
def readByte : Machine UInt8 := fun bytes position =>
  match bytes[position.toNat]? with
  | some byte => if position.toNat + 1 < 2 ^ 64 then some (.ok byte (position + 1)) else none
  | none => some (.error (.truncated position.toNat 1 0) position)

/-- Read a number of bytes, or as many as remain; they must be a slice of the buffer. -/
def readUpTo (count : UInt64) : Machine ByteArray := fun bytes position =>
  let stop := min (saturate (position.toNat + count.toNat)) (UInt64.ofNat bytes.size)
  (Bytes.slice? bytes position.toNat stop.toNat).map fun part => .ok part stop

/-- Read exactly a number of bytes. -/
def readExactly (count : UInt64) : Machine ByteArray := do
  let available ← remaining
  if available < count then
    Machine.throw (.truncated (← position).toNat count.toNat available.toNat)
  else
    readUpTo count

/-- Read bytes into an array of a fixed width; there must be as many as it holds. -/
def readArray (width : UInt64) : Machine ByteArray := do
  let part ← readExactly width
  if part.size = width.toNat then return part else trap

/-- Read four bytes as a number. -/
def readUInt32 : Machine UInt32 :=
  (fun part => UInt32.ofNat (Bytes.toNat part.data.toList)) <$> readArray 4

/-- Read eight bytes as a binary64 number. -/
def readDouble : Machine Double :=
  (fun part => ⟨UInt64.ofNat (Bytes.toNat part.data.toList)⟩) <$> readArray 8

/-- Read the groups of a number that go to these places, behind the groups that are read already.
There is no room for more than four bits in the last place. -/
def readGroups (offset : UInt64) (value : UInt32) : List UInt32 → Machine UInt32
  | [] => Machine.throw (.varintOverflow offset.toNat)
  | shift :: shifts => do
    let byte ← readByte
    let group := (byte &&& 0x7F).toUInt32
    if shift = 28 ∧ 0x0F < group then Machine.throw (.varintOverflow offset.toNat)
    else if byte &&& 0x80 = 0 then return value ||| group <<< shift
    else readGroups offset (value ||| group <<< shift) shifts

/-- Read a number of variable length. -/
def readVarint : Machine UInt32 := do
  readGroups (← position) 0 [0, 7, 14, 21, 28]

/-- The signed number that a number stands for, by its bits. -/
def unzigzag (n : UInt32) : Int32 :=
  (n >>> 1).toInt32 ^^^ -(n &&& 1).toInt32

/-- Read a signed number of variable length. -/
def readSignedVarint : Machine Int32 :=
  unzigzag <$> readVarint

/-- Refuse a count of items that the remaining bytes cannot hold. -/
def ensureCount (count : UInt32) (minItemSize : UInt64) : Machine Nat := do
  let remaining ← remaining
  if remaining < saturate (count.toUInt64.toNat * minItemSize.toNat) then
    Machine.throw (.countTooLarge (← position).toNat count remaining.toNat)
  else
    return count.toUInt64.toNat

/-- Read the count of a list, given the size of its smallest item. -/
def readCount (minItemSize : UInt64) : Machine Nat := do
  ensureCount (← readVarint) minItemSize

/-- Read a span: its start, then its length. -/
def readLocation : Machine Location := do
  let start ← readVarint
  let length ← readVarint
  return ⟨start, length⟩

/-- Read a span that may be absent: a zero byte, or another byte and the span. -/
def readOptionalLocation : Machine (Option Location) := do
  let present ← readByte
  if present = 0 then return none else some <$> readLocation

/-- Read bytes that their length precedes. -/
def readEmbedded : Machine ByteArray := do
  let length ← readVarint
  readExactly length.toUInt64

end Machine

/-- The outcome of a run with its position as a word. -/
def toWords {ε : Type} : EStateM.Result ε Nat α → EStateM.Result ε UInt64 α
  | .ok value stop => .ok value (UInt64.ofNat stop)
  | .error error stop => .error error (UInt64.ofNat stop)

/-- A machine does what a decoder does, from every position inside a buffer that it can address: the
size of a buffer is at most the largest signed word. -/
def Machine.Implements (machine : Machine α) (decoder : Decoder ReadError α) : Prop :=
  ∀ buffer position, buffer.size < 2 ^ 63 → position ≤ buffer.size →
    machine.runFrom buffer (UInt64.ofNat position) =
      some (toWords (decoder.runFrom buffer position))

namespace Machine

section Rules

variable {machine : Machine α} {decoder : Decoder ReadError α} {most : Nat}

theorem implements_pure (value : α) : (pure value : Machine α).Implements (pure value) :=
  fun _ _ _ _ => rfl

theorem implements_throw (error : ReadError) :
    (Machine.throw error : Machine α).Implements (Decoder.throw error) :=
  fun _ _ _ _ => rfl

/-- The first reading ends inside the buffer, where the second one begins. -/
theorem Implements.bind {next : α → Machine β} {next' : α → Decoder ReadError β}
    (first : machine.Implements decoder) (moves : ∀ buffer, decoder.Moves buffer most)
    (second : ∀ value, (next value).Implements (next' value)) :
    (machine >>= next).Implements (decoder >>= next') := by
  intro buffer position addressable inside
  have here := first buffer position addressable inside
  obtain ⟨-, within, -⟩ := moves buffer position inside
  rw [runFrom_bind, here, Decoder.runFrom_bind]
  cases run : decoder.runFrom buffer position with
  | error error stop => rfl
  | ok value stop =>
    rw [run] at within
    exact second value buffer stop addressable within

theorem Implements.map (f : α → β) (first : machine.Implements decoder) :
    (f <$> machine).Implements (f <$> decoder) := by
  intro buffer position addressable inside
  show (machine >>= fun value => pure (f value)).runFrom buffer (UInt64.ofNat position) = _
  rw [runFrom_bind, first buffer position addressable inside, map_eq_pure_bind,
    Decoder.runFrom_bind]
  cases decoder.runFrom buffer position <;> rfl

theorem Implements.ite {machine' : Machine α} {decoder' : Decoder ReadError α} {p q : Prop}
    [Decidable p] [Decidable q] (same : p ↔ q) (whenTrue : machine.Implements decoder)
    (whenFalse : machine'.Implements decoder') :
    (if p then machine else machine').Implements (if q then decoder else decoder') := by
  by_cases holds : p
  · rwa [if_pos holds, if_pos (same.1 holds)]
  · rwa [if_neg holds, if_neg (mt same.2 holds)]

end Rules

section Words

variable {n size position : Nat}

theorem toNat_ofNat_of_le (addressable : size < 2 ^ 63) (inside : n ≤ size) :
    (UInt64.ofNat n).toNat = n :=
  UInt64.toNat_ofNat_of_lt' (Nat.lt_of_le_of_lt inside (Nat.lt_trans addressable (by decide)))

/-- The end of the buffer is the lesser of two words as it is the lesser of two numbers. -/
theorem min_ofNat (addressable : size < 2 ^ 63) (target : UInt64) :
    min target (UInt64.ofNat size) = UInt64.ofNat (min target.toNat size) := by
  have last := toNat_ofNat_of_le addressable (Nat.le_refl size)
  rw [UInt64.min_def]
  split
  case isTrue inside =>
    rw [UInt64.le_iff_toNat_le, last] at inside
    rw [Nat.min_eq_left inside, UInt64.ofNat_toNat]
  case isFalse outside =>
    rw [UInt64.le_iff_toNat_le, last] at outside
    rw [Nat.min_eq_right (Nat.le_of_not_le outside)]

theorem toNat_saturate (n : Int) : (saturate n).toNat = min n.toNat (2 ^ 64 - 1) :=
  UInt64.toNat_ofNat_of_lt' (show _ < 2 ^ 64 by omega)

/-- A sum that is too large for a word is also past the end of the buffer. -/
theorem min_saturate (addressable : size < 2 ^ 63) (n : Int) :
    min (saturate n) (UInt64.ofNat size) = UInt64.ofNat (min n.toNat size) := by
  have : min (min n.toNat (2 ^ 64 - 1)) size = min n.toNat size := by omega
  rw [min_ofNat addressable, toNat_saturate, this]

theorem saturate_lt_iff (addressable : size < 2 ^ 63) (n : Int) (inside : position ≤ size) :
    UInt64.ofNat position < saturate n ↔ position < n.toNat := by
  rw [UInt64.lt_iff_toNat_lt, toNat_saturate, toNat_ofNat_of_le addressable inside]
  omega

end Words

theorem implements_seek (target : UInt64) :
    (seek target).Implements (Decoder.seek target.toNat) := by
  intro buffer position addressable inside
  show some (EStateM.Result.ok () (min target (UInt64.ofNat buffer.size))) = _
  rw [min_ofNat addressable]
  rfl

theorem implements_skip (distance : Int64) :
    (skip distance).Implements (Decoder.skip distance.toInt) := by
  intro buffer position addressable inside
  show some (EStateM.Result.ok () (min (saturate _) (UInt64.ofNat buffer.size))) = _
  rw [min_saturate addressable, toNat_ofNat_of_le addressable inside]
  rfl

/-- What remains of the buffer is a word as well. -/
theorem runFrom_remaining_bind {buffer : ByteArray} {position : Nat} (next : UInt64 → Machine β)
    (addressable : buffer.size < 2 ^ 63) (inside : position ≤ buffer.size) :
    (remaining >>= next).runFrom buffer (UInt64.ofNat position) =
      (next (UInt64.ofNat (buffer.size - position))).runFrom buffer (UInt64.ofNat position) := by
  have rest : saturate (buffer.size - (UInt64.ofNat position).toNat) =
      UInt64.ofNat (buffer.size - position) := by
    rw [← UInt64.toNat_inj, toNat_saturate, toNat_ofNat_of_le addressable inside,
      toNat_ofNat_of_le addressable (Nat.sub_le _ _)]
    omega
  show (next (saturate _)).runFrom buffer _ = _
  rw [rest]

theorem implements_remaining : (UInt64.toNat <$> remaining).Implements Decoder.remaining := by
  intro buffer position addressable inside
  show (remaining >>= fun rest => pure rest.toNat).runFrom buffer _ = _
  rw [runFrom_remaining_bind _ addressable inside, toNat_ofNat_of_le addressable (Nat.sub_le _ _)]
  rfl

theorem implements_peek : peek.Implements Decoder.peek := by
  intro buffer position addressable inside
  show some (EStateM.Result.ok buffer[(UInt64.ofNat position).toNat]? _) = _
  rw [toNat_ofNat_of_le addressable inside]
  rfl

theorem implements_readByte : readByte.Implements Decoder.readByte := by
  intro buffer position addressable inside
  rw [runFrom, readByte, toNat_ofNat_of_le addressable inside, Decoder.runFrom_readByte]
  cases here : buffer[position]? with
  | none => rfl
  | some byte =>
    obtain ⟨less, -⟩ := getElem?_eq_some_iff.1 here
    dsimp only
    have fits : position + 1 < 2 ^ 64 :=
      Nat.lt_of_le_of_lt less (Nat.lt_trans addressable (by decide))
    rw [if_pos fits, toWords, UInt64.ofNat_add]
    rfl

/-- The bytes that are read always are a slice of the buffer. -/
theorem implements_readUpTo (count : UInt64) :
    (readUpTo count).Implements (Decoder.readUpTo count.toNat) := by
  intro buffer position addressable inside
  have stop : min (saturate ((UInt64.ofNat position).toNat + count.toNat))
      (UInt64.ofNat buffer.size) = UInt64.ofNat (min (position + count.toNat) buffer.size) := by
    rw [min_saturate addressable, toNat_ofNat_of_le addressable inside]
    congr 2
  rw [runFrom, readUpTo, stop, toNat_ofNat_of_le addressable inside,
    toNat_ofNat_of_le addressable (Nat.min_le_right _ _), Bytes.slice?,
    if_pos ⟨by omega, Nat.min_le_right _ _⟩]
  rfl

theorem implements_readExactly (count : UInt64) :
    (readExactly count).Implements (Decoder.readExactly count.toNat) := by
  intro buffer position addressable inside
  have rest := toNat_ofNat_of_le addressable (Nat.sub_le buffer.size position)
  rw [readExactly, runFrom_remaining_bind _ addressable inside, Decoder.runFrom_readExactly]
  by_cases short : buffer.size - position < count.toNat
  · rw [if_pos (UInt64.lt_iff_toNat_lt.2 (rest.symm ▸ short)), if_pos short, rest]
    show some (EStateM.Result.error (ReadError.truncated (UInt64.ofNat position).toNat _ _) _) = _
    rw [toNat_ofNat_of_le addressable inside]
    rfl
  · rw [if_neg fun less => short (rest ▸ UInt64.lt_iff_toNat_lt.1 less), if_neg short]
    exact implements_readUpTo count buffer position addressable inside

/-- An array is filled with as many bytes as it holds. -/
theorem implements_readArray (width : UInt64) :
    (readArray width).Implements (Decoder.readExactly width.toNat) := by
  intro buffer position addressable inside
  rw [readArray, runFrom_bind, implements_readExactly width buffer position addressable inside,
    Decoder.runFrom_readExactly]
  split
  case isTrue short => rfl
  case isFalse enough =>
    have size : (buffer.extract position (min (position + width.toNat) buffer.size)).size =
        width.toNat := by
      rw [ByteArray.size_extract]
      omega
    dsimp only [toWords, Option.bind_some]
    rw [if_pos size]
    rfl

theorem implements_readUInt32 : readUInt32.Implements Decoder.readUInt32 := by
  rw [Decoder.readUInt32_eq]
  exact (implements_readArray 4).map _

theorem implements_readDouble : readDouble.Implements Decoder.readDouble := by
  rw [Decoder.readDouble_eq]
  exact (implements_readArray 8).map _

section Groups

variable {byte : UInt8} {value : UInt32} {more : Nat}

theorem toNat_group (byte : UInt8) : (byte &&& 0x7F).toUInt32.toNat = byte.toNat % 128 := by
  rw [UInt8.toNat_toUInt32, UInt8.toNat_and]
  exact Nat.and_two_pow_sub_one_eq_mod byte.toNat 7

theorem toUInt32_group (byte : UInt8) :
    (byte &&& 0x7F).toUInt32 = UInt32.ofNat (byte.toNat % 128) := by
  rw [← UInt32.toNat_inj, toNat_group, UInt32.toNat_ofNat_of_lt' (show _ < 2 ^ 32 by omega)]

/-- The high bit is clear exactly in the bytes below 128. -/
theorem and_high_eq_zero_iff (byte : UInt8) : byte &&& 0x80 = 0 ↔ byte < 0x80 := by
  have small := byte.toNat_lt
  have high : (byte &&& 0x80).toNat = (byte.toNat.testBit 7).toNat * 2 ^ 7 := by
    rw [UInt8.toNat_and]
    exact Nat.and_two_pow byte.toNat 7
  rw [← UInt8.toNat_inj, high, UInt8.lt_iff_toNat_lt, Nat.testBit_eq_decide_div_mod_eq]
  show _ = 0 ↔ byte.toNat < 128
  by_cases set : byte.toNat / 2 ^ 7 % 2 = 1
  · rw [decide_eq_true set]
    simp only [Bool.toNat_true]
    omega
  · rw [decide_eq_false set]
    simp only [Bool.toNat_false]
    omega

/-- A byte fits in the last place exactly if its group does and its high bit is clear. -/
theorem le_last_iff (byte : UInt8) :
    byte ≤ 0x0F ↔ ¬0x0F < (byte &&& 0x7F).toUInt32 ∧ byte &&& 0x80 = 0 := by
  rw [and_high_eq_zero_iff, UInt32.lt_iff_toNat_lt, toNat_group, UInt8.le_iff_toNat_le,
    UInt8.lt_iff_toNat_lt]
  show byte.toNat ≤ 15 ↔ ¬15 < byte.toNat % 128 ∧ byte.toNat < 128
  omega

/-- The places of the last groups: the last one, and `more` before it. -/
def places : (more : Nat) → List UInt32
  | 0 => [28]
  | more + 1 => UInt32.ofNat (28 - 7 * (more + 1)) :: places more

/-- A group and the groups behind it share no bits, so they are put together like digits. -/
theorem or_group_or (value : UInt32) (group rest : Nat) (more : Nat) (few : more + 1 ≤ 4)
    (digit : group < 128) :
    value ||| UInt32.ofNat group <<< UInt32.ofNat (28 - 7 * (more + 1)) |||
        UInt32.ofNat (rest <<< (28 - 7 * more)) =
      value ||| UInt32.ofNat ((group + 128 * rest) <<< (28 - 7 * (more + 1))) := by
  rw [UInt32.or_assoc, ← UInt32.ofNat_shiftLeft _ _ (by omega), ← UInt32.ofNat_or]
  congr 2
  have digits : group + 128 * rest = group ||| rest <<< 7 := by
    rw [Nat.shiftLeft_eq, Nat.add_comm, Nat.mul_comm rest, Nat.or_comm]
    exact Nat.two_pow_add_eq_or_of_lt (show group < 2 ^ 7 from digit) rest
  rw [digits, Nat.shiftLeft_or_distrib, ← Nat.shiftLeft_add]
  congr 2
  omega

/-- The loop over the places puts together, on top of what it has, the number that the groups are
the digits of. -/
theorem implements_readGroups (offset : UInt64) (value : UInt32) (few : more ≤ 4) :
    (readGroups offset value (places more)).Implements
      ((fun rest => value ||| UInt32.ofNat (rest <<< (28 - 7 * more))) <$>
        Varint.readGroups offset.toNat more) := by
  induction more generalizing value with
  | zero =>
    rw [places, readGroups, Varint.readGroups, map_bind]
    refine implements_readByte.bind (fun _ => Decoder.moves_readByte) fun byte => ?_
    dsimp only
    by_cases small : byte ≤ 0x0F
    · obtain ⟨room, ends⟩ := (le_last_iff byte).1 small
      have group : byte.toNat % 128 = byte.toNat :=
        Nat.mod_eq_of_lt (Nat.lt_of_le_of_lt (UInt8.le_iff_toNat_le.1 small) (by decide))
      rw [if_neg fun large => room large.2, if_pos ends, if_pos small, map_pure, toUInt32_group,
        group, UInt32.ofNat_shiftLeft _ _ (by omega)]
      exact implements_pure _
    · rw [if_neg small, readGroups]
      by_cases large : 0x0F < (byte &&& 0x7F).toUInt32
      · rw [if_pos ⟨rfl, large⟩]
        exact implements_throw _
      · rw [if_neg fun large' => large large'.2,
          if_neg fun ends => small ((le_last_iff byte).2 ⟨large, ends⟩)]
        exact implements_throw _
  | succ more ih =>
    rw [places, readGroups, Varint.readGroups, map_bind]
    refine implements_readByte.bind (fun _ => Decoder.moves_readByte) fun byte => ?_
    have earlier : UInt32.ofNat (28 - 7 * (more + 1)) ≠ 28 := by
      rw [Ne, ← UInt32.toNat_inj, UInt32.toNat_ofNat_of_lt' (show _ < 2 ^ 32 by omega)]
      show ¬28 - 7 * (more + 1) = 28
      omega
    dsimp only
    rw [if_neg fun last => earlier last.1, toUInt32_group]
    by_cases ends : byte < 0x80
    · have group : byte.toNat % 128 = byte.toNat := Nat.mod_eq_of_lt (UInt8.lt_iff_toNat_lt.1 ends)
      rw [if_pos ((and_high_eq_zero_iff byte).2 ends), if_pos ends, map_pure, group,
        UInt32.ofNat_shiftLeft _ _ (by omega)]
      exact implements_pure _
    · rw [if_neg (mt (and_high_eq_zero_iff byte).1 ends), if_neg ends]
      have together := ih (value ||| UInt32.ofNat (byte.toNat % 128) <<<
        UInt32.ofNat (28 - 7 * (more + 1))) (by omega)
      simp only [or_group_or value _ _ more few (Nat.mod_lt _ (by decide))] at together
      rw [map_bind]
      simp only [map_pure]
      rwa [← map_eq_pure_bind]

end Groups

/-- The place of a number is where its reading begins. -/
theorem implements_position_bind {next : UInt64 → Machine α} {next' : Nat → Decoder ReadError α}
    (same : ∀ buffer position, buffer.size < 2 ^ 63 → position ≤ buffer.size →
      (next (UInt64.ofNat position)).runFrom buffer (UInt64.ofNat position) =
        some (toWords ((next' position).runFrom buffer position))) :
    (position >>= next).Implements (Decoder.position >>= next') :=
  same

theorem implements_readVarint : readVarint.Implements Decoder.readVarint := by
  refine implements_position_bind fun buffer position addressable inside => ?_
  have loop := implements_readGroups (UInt64.ofNat position) 0 (Nat.le_refl 4) buffer position
    addressable inside
  have whole : (fun rest : Nat => (0 : UInt32) ||| UInt32.ofNat (rest <<< (28 - 7 * 4))) =
      UInt32.ofNat :=
    funext fun rest => UInt32.zero_or
  rw [toNat_ofNat_of_le addressable inside, whole, map_eq_pure_bind] at loop
  exact loop

/-- Half of a number, or the complement of the half, is what the number stands for. -/
theorem unzigzag_eq (n : UInt32) : unzigzag n = Varint.unzigzag n := by
  have half : (n >>> 1).toInt32 = Int32.ofInt (n.toNat / 2) := by
    have shifted : (n >>> 1).toBitVec.toNat = n.toNat / 2 := UInt32.toNat_shiftRight n 1
    have small := n.toNat_lt
    have exact : (n >>> 1).toInt32.toInt = n.toNat / 2 := by
      show (n >>> 1).toBitVec.toInt = _
      rw [BitVec.toInt_eq_toNat_of_lt (by omega), shifted]
      rfl
    rw [← Int32.toInt_inj, exact, Int32.toInt_ofInt_of_le (by omega) (by omega)]
  have bit : n &&& 1 = UInt32.ofNat (n.toNat % 2) := by
    rw [← UInt32.toNat_inj, UInt32.toNat_and, UInt32.toNat_ofNat_of_lt' (show _ < 2 ^ 32 by omega)]
    exact Nat.and_one_is_mod n.toNat
  rw [unzigzag, Varint.unzigzag, half, bit]
  obtain even | odd := Nat.mod_two_eq_zero_or_one n.toNat
  · rw [if_pos even, even]
    exact Int32.xor_zero
  · rw [if_neg (by omega), odd, Int32.ofInt_sub, Int32.ofInt_neg]
    exact Int32.xor_neg_one.trans (Int32.not_eq_neg_add _)

theorem implements_readSignedVarint :
    readSignedVarint.Implements Decoder.readSignedVarint := by
  have same : Machine.unzigzag = Varint.unzigzag := funext unzigzag_eq
  rw [readSignedVarint, same]
  exact implements_readVarint.map _

theorem implements_ensureCount (count : UInt32) (minItemSize : UInt64) :
    (ensureCount count minItemSize).Implements
      (Decoder.ensureCount count minItemSize.toNat) := by
  intro buffer position addressable inside
  have rest := toNat_ofNat_of_le addressable (Nat.sub_le buffer.size position)
  have same := saturate_lt_iff addressable (count.toNat * minItemSize.toNat)
    (Nat.sub_le buffer.size position)
  rw [ensureCount, runFrom_remaining_bind _ addressable inside, Decoder.runFrom_ensureCount]
  by_cases short : buffer.size - position < count.toNat * minItemSize.toNat
  · rw [UInt32.toNat_toUInt64, if_pos (same.2 short), if_pos short, rest]
    show some (EStateM.Result.error
      (ReadError.countTooLarge (UInt64.ofNat position).toNat _ _) _) = _
    rw [toNat_ofNat_of_le addressable inside]
    rfl
  · rw [UInt32.toNat_toUInt64, if_neg (mt same.1 short), if_neg short]
    rfl

theorem implements_readCount (minItemSize : UInt64) :
    (readCount minItemSize).Implements (Decoder.readCount minItemSize.toNat) :=
  implements_readVarint.bind (fun _ => Decoder.moves_readVarint) fun count =>
    implements_ensureCount count minItemSize

theorem implements_readLocation : readLocation.Implements Decoder.readLocation :=
  implements_readVarint.bind (fun _ => Decoder.moves_readVarint) fun _ =>
    implements_readVarint.bind (fun _ => Decoder.moves_readVarint) fun _ => implements_pure _

theorem implements_readOptionalLocation :
    readOptionalLocation.Implements Decoder.readOptionalLocation :=
  implements_readByte.bind (fun _ => Decoder.moves_readByte) fun _ =>
    Implements.ite Iff.rfl (implements_pure _) (implements_readLocation.map _)

theorem implements_readEmbedded : readEmbedded.Implements Decoder.readEmbedded :=
  implements_readVarint.bind (fun _ => Decoder.moves_readVarint) fun length =>
    implements_readExactly length.toUInt64

end Machine

end PrismTree
