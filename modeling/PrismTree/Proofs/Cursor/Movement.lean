import PrismTree.Proofs.Failure.Read

/-!
# How far a reading moves

Whether a reading succeeds or fails, it does not move backwards, it stays inside the buffer, and it
moves by no more than its largest form. Readings in sequence move by no more than the sum of these
lengths, and a number of variable length moves by five bytes at most.
-/
namespace PrismTree

variable {ε α β : Type} {buffer : ByteArray} {position most most' : Nat}

/-- Where a run has stopped, with a value or with an error. -/
def reached : EStateM.Result ε Nat α → Nat
  | .ok _ stop => stop
  | .error _ stop => stop

namespace Decoder

/-- Wherever it begins inside a buffer, a decoder stops inside it, at most so many bytes further
on. -/
def Moves (buffer : ByteArray) (most : Nat) (decoder : Decoder ε α) : Prop :=
  ∀ position ≤ buffer.size, position ≤ reached (decoder.runFrom buffer position) ∧
    reached (decoder.runFrom buffer position) ≤ buffer.size ∧
    reached (decoder.runFrom buffer position) ≤ position + most

section Rules

variable {decoder : Decoder ε α}

theorem Moves.mono (moves : decoder.Moves buffer most) (le : most ≤ most') :
    decoder.Moves buffer most' := by
  intro position inside
  obtain ⟨onward, within, near⟩ := moves position inside
  exact ⟨onward, within, Nat.le_trans near (Nat.add_le_add_left le position)⟩

theorem moves_pure (value : α) : (pure value : Decoder ε α).Moves buffer 0 :=
  fun position inside => ⟨Nat.le_refl position, inside, Nat.le_refl position⟩

theorem moves_throw (error : ε) : (Decoder.throw error : Decoder ε α).Moves buffer 0 :=
  fun position inside => ⟨Nat.le_refl position, inside, Nat.le_refl position⟩

theorem Moves.bind {next : α → Decoder ε β} (first : decoder.Moves buffer most)
    (second : ∀ value, (next value).Moves buffer most') :
    (decoder >>= next).Moves buffer (most + most') := by
  intro position inside
  obtain ⟨onward, within, near⟩ := first position inside
  rw [runFrom_bind]
  cases run : decoder.runFrom buffer position with
  | error error stop =>
    rw [run] at onward within near
    exact ⟨onward, within, Nat.le_trans near (by omega)⟩
  | ok value middle =>
    rw [run, reached] at onward within near
    obtain ⟨onward', within', near'⟩ := second value middle within
    exact ⟨Nat.le_trans onward onward', within', Nat.le_trans near' (by omega)⟩

theorem Moves.map (f : α → β) (moves : decoder.Moves buffer most) :
    (f <$> decoder).Moves buffer most := by
  rw [map_eq_pure_bind]
  exact moves.bind fun value => moves_pure (f value)

theorem Moves.ite {decoder' : Decoder ε α} {p : Prop} [Decidable p]
    (whenTrue : decoder.Moves buffer most) (whenFalse : decoder'.Moves buffer most) :
    (if p then decoder else decoder').Moves buffer most := by
  by_cases holds : p
  · rwa [if_pos holds]
  · rwa [if_neg holds]

end Rules

theorem moves_position : (Decoder.position : Decoder ε Nat).Moves buffer 0 :=
  fun position inside => ⟨Nat.le_refl position, inside, Nat.le_refl position⟩

theorem moves_readByte : readByte.Moves buffer 1 := by
  intro position inside
  rw [runFrom_readByte]
  cases here : buffer[position]? with
  | none => exact ⟨Nat.le_refl position, inside, Nat.le_succ position⟩
  | some byte =>
    obtain ⟨less, -⟩ := getElem?_eq_some_iff.1 here
    exact ⟨Nat.le_succ position, less, Nat.le_refl _⟩

/-- Every group takes a byte, so the groups that may follow bound how far the reading goes. -/
theorem moves_readGroups (start more : Nat) :
    (Varint.readGroups start more).Moves buffer (more + 1) := by
  induction more with
  | zero =>
    rw [Varint.readGroups]
    exact moves_readByte.bind fun byte => (moves_pure _).ite (moves_throw _)
  | succ more ih =>
    rw [Varint.readGroups, Nat.add_comm]
    exact moves_readByte.bind fun byte =>
      ((moves_pure _).mono (Nat.zero_le _)).ite (ih.bind fun rest => moves_pure _)

theorem moves_readVarint : readVarint.Moves buffer Varint.maxLength := by
  rw [readVarint]
  exact (moves_position.bind fun start =>
    (moves_readGroups start 4).bind fun value => moves_pure _).mono (Nat.le_refl 5)

theorem moves_readSignedVarint : readSignedVarint.Moves buffer Varint.maxLength :=
  moves_readVarint.map _

theorem moves_ensureCount (count : UInt32) (minItemSize : Nat) :
    (ensureCount count minItemSize).Moves buffer 0 := by
  intro position inside
  rw [runFrom_ensureCount]
  split <;> exact ⟨Nat.le_refl position, inside, Nat.le_refl position⟩

theorem moves_readCount (minItemSize : Nat) :
    (readCount minItemSize).Moves buffer Varint.maxLength :=
  moves_readVarint.bind fun count => moves_ensureCount count minItemSize

theorem moves_readLocation : readLocation.Moves buffer (2 * Varint.maxLength) := by
  rw [readLocation, Nat.two_mul]
  exact moves_readVarint.bind fun start => moves_readVarint.bind fun length => moves_pure _

theorem moves_readOptionalLocation :
    readOptionalLocation.Moves buffer (1 + 2 * Varint.maxLength) := by
  rw [readOptionalLocation]
  exact moves_readByte.bind fun present =>
    ((moves_pure _).mono (Nat.zero_le _)).ite (moves_readLocation.map _)

theorem moves_readExactly (count : Nat) : (readExactly count).Moves buffer count := by
  intro position inside
  rw [runFrom_readExactly]
  split
  case isTrue short => exact ⟨Nat.le_refl position, inside, Nat.le_add_right position count⟩
  case isFalse enough => simp only [reached]; omega

theorem moves_readEmbedded : readEmbedded.Moves buffer (Varint.maxLength + 2 ^ 32) :=
  moves_readVarint.bind fun length =>
    (moves_readExactly length.toNat).mono (Nat.le_of_lt length.toNat_lt)

/-- A word of four bytes is what the bytes stand for. -/
theorem readUInt32_eq : readUInt32 =
    (fun part : ByteArray => UInt32.ofNat (Bytes.toNat part.data.toList)) <$> readExactly 4 := by
  rw [readUInt32, readWord]
  simp only [map_eq_pure_bind, bind_assoc, pure_bind]

theorem readDouble_eq : readDouble =
    (fun part : ByteArray => ⟨UInt64.ofNat (Bytes.toNat part.data.toList)⟩) <$> readExactly 8 := by
  rw [readDouble, readWord]
  simp only [map_eq_pure_bind, bind_assoc, pure_bind]

end Decoder

end PrismTree
