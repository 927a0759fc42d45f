import PrismTree.Proofs.Failure.Read
import PrismTree.Proofs.Serialize.Preamble

/-!
# The codec of numbers

Numbers are written and read back, in any mix and one directly behind the other. The bytes that a
reader takes for a number are told by their high bits alone: all but the last have it set, there
are five at most, and the fifth has room for four bits. Of all the bytes that stand for a number the
written ones are the fewest. A reading that fails has run out of bytes, or has met five bytes of
which none ends the number with what room there is.
-/
namespace PrismTree

namespace Varint

/-- Bytes that a reader takes for a number: the high bit is set on all of them but the last, there
are no more than five, and the fifth has room for four bits. -/
structure IsNumber (bytes : List UInt8) : Prop where
  one_le_length : 1 ≤ bytes.length
  length_le : bytes.length ≤ maxLength
  continues : ∀ byte ∈ bytes.dropLast, 0x80 ≤ byte
  ends : ∀ byte ∈ bytes.getLast?, byte < 0x80
  room : ∀ byte ∈ bytes[4]?, byte ≤ 0x0F

/-- Bytes that are too many for a number: five of them, of which the first four do not end it and
the last has no room. -/
def IsOverlong (bytes : List UInt8) : Prop :=
  ∃ front last, bytes = front ++ [last] ∧ front.length = 4 ∧ (∀ byte ∈ front, 0x80 ≤ byte) ∧
    0x0F < last

variable {bytes : List UInt8} {n : UInt32}

/-- Groups of seven bits are the digits of a number to the base 128. -/
theorem value_eq_sum (bytes : List UInt8) :
    value bytes = ∑ i : Fin bytes.length, bytes[i].toNat % 128 * 128 ^ i.val := by
  induction bytes with
  | nil => rfl
  | cons byte rest ih =>
    rw [value, ih, Finset.mul_sum]
    show _ = ∑ i : Fin (rest.length + 1), _
    rw [Fin.sum_univ_succ]
    refine congrArg₂ (· + ·) (by simp) (Finset.sum_congr rfl fun i _ => ?_)
    simp only [Fin.getElem_fin, Fin.val_succ, List.getElem_cons_succ]
    ring

theorem isTerminated_iff :
    IsTerminated bytes ↔ 1 ≤ bytes.length ∧ (∀ byte ∈ bytes.dropLast, 0x80 ≤ byte) ∧
      ∀ byte ∈ bytes.getLast?, byte < 0x80 := by
  induction bytes with
  | nil => simp [IsTerminated]
  | cons byte rest ih =>
    cases rest with
    | nil => simp [IsTerminated]
    | cons next rest =>
      rw [IsTerminated, ih]
      simp [and_assoc]

theorem exists_concat_of_length_eq_add_one {count : Nat} (length : bytes.length = count + 1) :
    ∃ front last, bytes = front ++ [last] ∧ front.length = count := by
  obtain rfl | ⟨front, last, rfl⟩ := List.eq_nil_or_concat' bytes
  · cases length
  · exact ⟨front, last, rfl, by simpa using length⟩

/-- The value of groups is below the bound that their number gives. -/
theorem value_lt (bytes : List UInt8) : value bytes < 128 ^ bytes.length := by
  induction bytes with
  | nil => exact Nat.one_pos
  | cons byte rest ih =>
    have low := Nat.mod_lt byte.toNat (show 0 < 128 by decide)
    rw [value, List.length_cons, pow_succ]
    omega

theorem value_append (xs ys : List UInt8) :
    value (xs ++ ys) = value xs + 128 ^ xs.length * value ys := by
  induction xs with
  | nil => simp [value]
  | cons byte rest ih =>
    rw [List.cons_append, value, ih, value, List.length_cons, pow_succ]
    ring

/-- Behind four groups there is room for numbers below `2 ^ 32` in four bits. -/
theorem value_lt_iff_of_four {front : List UInt8} {last : UInt8} (four : front.length = 4)
    (ends : last < 0x80) : value (front ++ [last]) < 2 ^ 32 ↔ last ≤ 0x0F := by
  have low := value_lt front
  have small : last.toNat < 128 := ends
  rw [value_append, four, value_singleton ends]
  rw [four] at low
  show _ ↔ last.toNat ≤ 15
  omega

theorem getLast?_of_four {front : List UInt8} (last : UInt8) (four : front.length = 4) :
    (front ++ [last]).getLast? = some last ∧ (front ++ [last])[4]? = some last := by
  refine ⟨List.getLast?_concat, ?_⟩
  rw [List.getElem?_append_right (Nat.le_of_eq four), four]
  rfl

/-- The room in the fifth byte is what keeps a number below `2 ^ 32`. -/
theorem IsNumber.value_lt (number : IsNumber bytes) : value bytes < 2 ^ 32 := by
  obtain short | five := Nat.lt_or_eq_of_le number.length_le
  · calc value bytes < 128 ^ bytes.length := Varint.value_lt bytes
      _ ≤ 128 ^ 4 := Nat.pow_le_pow_right (by decide) (Nat.le_of_lt_succ short)
      _ ≤ 2 ^ 32 := by decide
  · obtain ⟨front, last, rfl, four⟩ := exists_concat_of_length_eq_add_one five
    obtain ⟨ends, fifth⟩ := getLast?_of_four last four
    exact (value_lt_iff_of_four four (number.ends last ends)).2 (number.room last fifth)

/-- Whatever a reader takes for a number is one of 32 bits. -/
theorem IsNumber.exists_value_eq (number : IsNumber bytes) : ∃ n : UInt32, value bytes = n.toNat :=
  ⟨UInt32.ofNat (value bytes), (UInt32.toNat_ofNat_of_lt' number.value_lt).symm⟩

/-- The forms of a number are the bytes that a reader takes for it. -/
theorem mem_forms_iff : bytes ∈ forms n ↔ IsNumber bytes ∧ value bytes = n.toNat := by
  rw [forms, mem_stringsWith, isTerminated_iff]
  constructor
  · intro h
    obtain ⟨⟨some, continues, ends⟩, length, same⟩ := h
    refine ⟨⟨some, length, continues, ends, fun byte fifth => ?_⟩, same⟩
    obtain ⟨inside, -⟩ := List.getElem?_eq_some_iff.1 fifth
    obtain ⟨front, last, rfl, four⟩ :=
      exists_concat_of_length_eq_add_one (Nat.le_antisymm length inside)
    obtain ⟨last?, fifth?⟩ := getLast?_of_four last four
    obtain rfl : last = byte := Option.some.inj (fifth?.symm.trans fifth)
    exact (value_lt_iff_of_four four (ends last last?)).1 (same ▸ n.toNat_lt)
  · rintro ⟨number, same⟩
    exact ⟨⟨number.one_le_length, number.continues, number.ends⟩, number.length_le, same⟩

/-- No bytes for a number are fewer than those that are written, and no others are as few. -/
theorem length_encodeGroups_le {more : Nat} (terminated : IsTerminated bytes)
    (length : bytes.length ≤ more + 1) :
    (encodeGroups more (value bytes)).length ≤ bytes.length ∧
      (bytes.length ≤ (encodeGroups more (value bytes)).length →
        bytes = encodeGroups more (value bytes)) := by
  induction more generalizing bytes with
  | zero =>
    obtain ⟨byte, rest, rfl⟩ := List.exists_cons_of_ne_nil terminated.ne_nil
    obtain rfl : rest = [] := by simpa using length
    rw [value_singleton terminated, encodeGroups, UInt8.ofNat_toNat]
    exact ⟨Nat.le_refl _, fun _ => rfl⟩
  | succ more ih =>
    obtain ⟨byte, rest, rfl⟩ := List.exists_cons_of_ne_nil terminated.ne_nil
    rw [encodeGroups]
    split
    · next small =>
      refine ⟨Nat.succ_le_succ (Nat.zero_le _), fun single => ?_⟩
      obtain rfl : rest = [] := by simpa using single
      rw [value_singleton terminated, UInt8.ofNat_toNat]
    · next large =>
      have others : rest ≠ [] := by
        rintro rfl
        have bound : byte.toNat < 128 := terminated
        rw [value_singleton terminated] at large
        exact large bound
      obtain ⟨high, terminated⟩ := (isTerminated_cons others).1 terminated
      have high : 128 ≤ byte.toNat := high
      have bound := byte.toNat_lt
      have first : UInt8.ofNat (value (byte :: rest) % 128 + 128) = byte := by
        apply UInt8.toNat_inj.1
        rw [UInt8.toNat_ofNat_of_lt' (show _ < 256 by omega), value]
        omega
      have behind : value (byte :: rest) / 128 = value rest := by
        rw [value]
        omega
      obtain ⟨fewest, unique⟩ := ih terminated (Nat.le_of_succ_le_succ length)
      rw [first, behind]
      refine ⟨Nat.succ_le_succ fewest, fun short => ?_⟩
      rw [← unique (Nat.le_of_succ_le_succ short)]

theorem zigzag_unzigzag (n : UInt32) : zigzag (unzigzag n) = n := by
  have bound := n.toNat_lt
  apply UInt32.toNat_inj.1
  by_cases even : n.toNat % 2 = 0
  · have half : (unzigzag n).toInt = n.toNat / 2 := by
      rw [unzigzag, if_pos even]
      exact Int32.toInt_ofInt_of_le (by omega) (by omega)
    rw [zigzag, if_pos (by omega), half]
    rw [UInt32.toNat_ofNat_of_lt' (by simp only [UInt32.size]; omega)]
    omega
  · have half : (unzigzag n).toInt = -(n.toNat / 2) - 1 := by
      rw [unzigzag, if_neg even]
      exact Int32.toInt_ofInt_of_le (by omega) (by omega)
    rw [zigzag, if_neg (by omega), half]
    rw [UInt32.toNat_ofNat_of_lt' (by simp only [UInt32.size]; omega)]
    omega

/-- A number to be written, as it is, or in a zig-zag because it may be negative. -/
inductive Number where
  | unsigned (value : UInt32)
  | signed (value : Int32)
  deriving DecidableEq

namespace Number

/-- Is the number written in a zig-zag? -/
def isSigned : Number → Bool
  | .unsigned _ => false
  | .signed _ => true

/-- The written form of a number. -/
def encode : Number → List UInt8
  | .unsigned n => Varint.encode n
  | .signed n => encodeSigned n

/-- Read a number of one sort or the other. -/
def read (isSigned : Bool) : Decoder ReadError Number :=
  if isSigned then .signed <$> Decoder.readSignedVarint else .unsigned <$> Decoder.readVarint

/-- Read numbers of given sorts, in order. -/
def readAll (sorts : List Bool) : Decoder ReadError (List Number) :=
  sorts.mapM read

theorem reads_read (number : Number) {buffer : ByteArray} {position : Nat}
    (stands : StandsAt number.encode buffer position) :
    (read number.isSigned).runFrom buffer position =
      .ok number (position + number.encode.length) := by
  cases number with
  | unsigned n =>
    refine ((Decoder.reads_readVarint.map unsigned) buffer position stands.1 _ _).2 ⟨_, ?_, stands,
      rfl⟩
    exact mem_iSup_provided_mul.2 ⟨n, rfl, encode_mem_forms n⟩
  | signed n =>
    refine ((Decoder.reads_readSignedVarint.map signed) buffer position stands.1 _ _).2
      ⟨_, ?_, stands, rfl⟩
    refine mem_iSup_provided_mul.2 ⟨n, rfl, mem_iSup_provided_mul.2 ⟨zigzag n, ?_, ?_⟩⟩
    · exact (unzigzag_zigzag n).symm
    · exact encode_mem_forms _

/-- Numbers that were written one behind the other are read back. -/
theorem runFrom_readAll (numbers : List Number) {buffer : ByteArray} {position : Nat}
    (stands : StandsAt (numbers.flatMap encode) buffer position) :
    (readAll (numbers.map isSigned)).runFrom buffer position =
      .ok numbers (position + (numbers.flatMap encode).length) := by
  induction numbers generalizing position with
  | nil => rfl
  | cons number rest ih =>
    rw [List.flatMap_cons] at stands ⊢
    obtain ⟨first, others⟩ := standsAt_append.1 stands
    rw [List.map_cons, readAll, List.mapM_cons, List.length_append, ← Nat.add_assoc]
    refine Decoder.bind_eq_ok_iff.2 ⟨number, _, reads_read number first, ?_⟩
    exact Decoder.bind_eq_ok_iff.2 ⟨rest, _, ih others, rfl⟩

end Number

end Varint

namespace Decoder

open Varint

variable {buffer : ByteArray} {position stop : Nat} {error : ReadError}

/-- Groups that do not end a number decide nothing about how its reading fails. -/
theorem readGroups_behind_eq_error_iff {start more : Nat} {front : List UInt8}
    (high : ∀ byte ∈ front, 0x80 ≤ byte) (stands : StandsAt front buffer position) :
    (readGroups start (more + front.length)).runFrom buffer position = .error error stop ↔
      (readGroups start more).runFrom buffer (position + front.length) = .error error stop := by
  induction front generalizing position with
  | nil => rfl
  | cons byte rest ih =>
    obtain ⟨first, others⟩ := List.forall_mem_cons.1 high
    obtain ⟨here, behind⟩ := standsAt_cons.1 stands
    have read : readByte.runFrom buffer position = .ok byte (position + 1) :=
      readByte_eq_ok_iff.2 ⟨here, rfl⟩
    rw [List.length_cons, ← Nat.add_assoc, readGroups, runFrom_bind, read]
    dsimp only
    rw [if_neg (UInt8.not_lt.2 first), ← map_eq_pure_bind, map_eq_error_iff, ih others behind,
      Nat.add_right_comm, Nat.add_assoc]

theorem readVarint_eq_error_iff :
    readVarint.runFrom buffer position = .error error stop ↔
      (readGroups position 4).runFrom buffer position = .error error stop :=
  map_eq_error_iff (f := UInt32.ofNat)

/-- Five bytes that are too many for a number are refused with the place where they begin. -/
theorem readVarint_of_isOverlong {bytes : List UInt8} (long : IsOverlong bytes)
    (stands : StandsAt bytes buffer position) :
    readVarint.runFrom buffer position = .error (.varintOverflow position) (position + 5) := by
  obtain ⟨front, last, rfl, four, high, large⟩ := long
  obtain ⟨front_stands, last_stands⟩ := standsAt_append.1 stands
  have groups := @readGroups_behind_eq_error_iff buffer position (position + 5)
    (.varintOverflow position) position 0 front high front_stands
  rw [four] at groups last_stands
  have read : readByte.runFrom buffer (position + 4) = .ok last (position + 5) :=
    readByte_eq_ok_iff.2 ⟨last_stands, rfl⟩
  refine readVarint_eq_error_iff.2 (groups.2 ?_)
  rw [readGroups, runFrom_bind, read]
  dsimp only
  rw [if_neg (UInt8.not_le.2 large)]
  rfl

/-- Where the bytes end and none of them has ended the number, one more is missing. -/
theorem readVarint_of_end {front : List UInt8} (high : ∀ byte ∈ front, 0x80 ≤ byte)
    (short : front.length ≤ 4) (stands : StandsAt front buffer position)
    (last : position + front.length = buffer.size) :
    readVarint.runFrom buffer position = .error (.truncated buffer.size 1 0) buffer.size := by
  have groups := @readGroups_behind_eq_error_iff buffer position buffer.size
    (.truncated buffer.size 1 0) position (4 - front.length) front high stands
  rw [Nat.sub_add_cancel short, last] at groups
  have missing : readByte.runFrom buffer buffer.size =
      .error (.truncated buffer.size 1 0) buffer.size :=
    readByte_eq_error_iff.2 ⟨Nat.le_refl _, rfl, rfl⟩
  refine readVarint_eq_error_iff.2 (groups.2 ?_)
  cases 4 - front.length with
  | zero => rw [readGroups, runFrom_bind, missing]
  | succ more => rw [readGroups, runFrom_bind, missing]

end Decoder

namespace Varint

/-- Bytes that go on as long as they may, and then end or run out of room. -/
theorem isNumber_concat {front : List UInt8} {last : UInt8} (high : ∀ byte ∈ front, 0x80 ≤ byte)
    (ends : last < 0x80) (short : front.length ≤ 4) (room : front.length = 4 → last ≤ 0x0F) :
    IsNumber (front ++ [last]) := by
  refine ⟨by simp, by simpa [maxLength] using Nat.lt_succ_of_le short,
    by simpa using high, by simpa using ends, ?_⟩
  intro byte fifth
  obtain less | four := Nat.lt_or_eq_of_le short
  · rw [List.getElem?_eq_none (by simpa using less)] at fifth
    cases fifth
  · obtain rfl := Option.some.inj ((getLast?_of_four last four).2.symm.trans fifth)
    exact room four

/-- Bytes end a number behind fewer groups than there may be, or go on as long as they may, or are
too few. -/
theorem exists_concat_or (most : Nat) (bytes : List UInt8) :
    (∃ front last, front ++ [last] <+: bytes ∧ front.length < most ∧
      (∀ byte ∈ front, 0x80 ≤ byte) ∧ last < 0x80) ∨
    (∃ front last, front ++ [last] <+: bytes ∧ front.length = most ∧
      ∀ byte ∈ front, 0x80 ≤ byte) ∨
    bytes.length ≤ most ∧ ∀ byte ∈ bytes, 0x80 ≤ byte := by
  induction most generalizing bytes with
  | zero =>
    cases bytes with
    | nil => exact Or.inr (Or.inr ⟨Nat.le_refl 0, List.forall_mem_nil _⟩)
    | cons byte rest =>
      exact Or.inr (Or.inl ⟨[], byte, ⟨rest, rfl⟩, rfl, List.forall_mem_nil _⟩)
  | succ most ih =>
    cases bytes with
    | nil => exact Or.inr (Or.inr ⟨Nat.zero_le _, List.forall_mem_nil _⟩)
    | cons byte rest =>
      by_cases ends : byte < 0x80
      · exact Or.inl ⟨[], byte, ⟨rest, rfl⟩, Nat.succ_pos most, List.forall_mem_nil _, ends⟩
      · have more := UInt8.not_lt.1 ends
        obtain ⟨front, last, start, less, high, ends⟩ | ⟨front, last, start, length, high⟩ |
          ⟨few, high⟩ := ih rest
        · exact Or.inl ⟨byte :: front, last, List.cons_prefix_cons.2 ⟨rfl, start⟩,
            Nat.succ_lt_succ less, List.forall_mem_cons.2 ⟨more, high⟩, ends⟩
        · exact Or.inr (Or.inl ⟨byte :: front, last, List.cons_prefix_cons.2 ⟨rfl, start⟩,
            congrArg (· + 1) length, List.forall_mem_cons.2 ⟨more, high⟩⟩)
        · exact Or.inr (Or.inr ⟨Nat.succ_le_succ few, List.forall_mem_cons.2 ⟨more, high⟩⟩)

/-- Bytes begin with a number, or with too many bytes for one, or end before there is one. -/
theorem exists_isNumber_or (bytes : List UInt8) :
    (∃ taken, IsNumber taken ∧ taken <+: bytes) ∨ (∃ taken, IsOverlong taken ∧ taken <+: bytes) ∨
      bytes.length ≤ 4 ∧ ∀ byte ∈ bytes, 0x80 ≤ byte := by
  obtain ⟨front, last, start, less, high, ends⟩ | ⟨front, last, start, four, high⟩ | short :=
    exists_concat_or 4 bytes
  · exact Or.inl ⟨_, isNumber_concat high ends (Nat.le_of_lt less)
      fun four => absurd four (Nat.ne_of_lt less), start⟩
  · by_cases room : last ≤ 0x0F
    · have ends : last < 0x80 := UInt8.lt_of_le_of_lt room (by decide)
      exact Or.inl ⟨_, isNumber_concat high ends (Nat.le_of_eq four) fun _ => room, start⟩
    · exact Or.inr (Or.inl ⟨_, ⟨front, last, rfl, four, high, UInt8.not_le.1 room⟩, start⟩)
  · exact Or.inr (Or.inr short)

end Varint

/-- What stands behind the first bytes of a buffer is what the rest begins with. -/
theorem standsAt_behind_iff {before bytes taken : List UInt8} :
    StandsAt taken ⟨(before ++ bytes).toArray⟩ before.length ↔ taken <+: bytes := by
  have inside : before.length ≤ ByteArray.size ⟨(before ++ bytes).toArray⟩ := by
    show _ ≤ (before ++ bytes).toArray.size
    rw [List.size_toArray, List.length_append]
    exact Nat.le_add_right _ _
  rw [StandsAt, and_iff_right inside, List.toList_toArray, List.drop_left]

open Varint Decoder

section Reading

variable {before bytes : List UInt8} {n : UInt32} {stop : Nat} {error : ReadError}

/-- A reading of a number behind other bytes. -/
theorem readVarint_behind_eq_ok_iff :
    readVarint.runFrom ⟨(before ++ bytes).toArray⟩ before.length = .ok n stop ↔
      ∃ taken, IsNumber taken ∧ taken <+: bytes ∧ value taken = n.toNat ∧
        stop = before.length + taken.length := by
  rw [reads_readVarint _ _ (standsAt_nil.1 (standsAt_behind_iff.2 List.nil_prefix))]
  simp only [mem_forms_iff, standsAt_behind_iff, and_assoc]
  refine exists_congr fun taken => and_congr_right fun _ => and_left_comm

/-- A reading of a number that fails has met too many bytes or the end of them. -/
theorem readVarint_behind_eq_error
    (run : readVarint.runFrom ⟨(before ++ bytes).toArray⟩ before.length = .error error stop) :
    (error = .varintOverflow before.length ∧ ∃ taken, IsOverlong taken ∧ taken <+: bytes) ∨
      error = .truncated (before ++ bytes).length 1 0 ∧ stop = (before ++ bytes).length := by
  obtain ⟨taken, number, start⟩ | ⟨taken, long, start⟩ | ⟨few, high⟩ := exists_isNumber_or bytes
  · obtain ⟨n, same⟩ := number.exists_value_eq
    rw [readVarint_behind_eq_ok_iff.2 ⟨taken, number, start, same, rfl⟩] at run
    cases run
  · rw [readVarint_of_isOverlong long (standsAt_behind_iff.2 start)] at run
    cases run
    exact Or.inl ⟨rfl, taken, long, start⟩
  · have last : before.length + bytes.length = ByteArray.size ⟨(before ++ bytes).toArray⟩ := by
      rw [← List.length_append]
      rfl
    rw [readVarint_of_end high few (standsAt_behind_iff.2 (List.prefix_refl _)) last] at run
    cases run
    exact Or.inr ⟨rfl, rfl⟩

end Reading

/-- Numbers of both sorts that are written one behind the other are read back in order. A reading
succeeds exactly on the padded forms of a number, of which the written one is the only shortest, and
every failure is an overflow or the end of the bytes. -/
theorem codec_of_numbers :
    (∀ (before after : List UInt8) (numbers : List Number),
      (Number.readAll (numbers.map Number.isSigned)).runFrom
          ⟨(before ++ (numbers.flatMap Number.encode ++ after)).toArray⟩ before.length =
        .ok numbers (before.length + (numbers.flatMap Number.encode).length)) ∧
    (∀ n, zigzag (unzigzag n) = n) ∧ (∀ n, unzigzag (zigzag n) = n) ∧
    (∀ bytes : List UInt8,
      value bytes = ∑ i : Fin bytes.length, bytes[i].toNat % 128 * 128 ^ i.val) ∧
    ∀ before bytes : List UInt8,
      let run := readVarint.runFrom ⟨(before ++ bytes).toArray⟩ before.length
      (∀ n stop, run = .ok n stop ↔ ∃ taken, IsNumber taken ∧ taken <+: bytes ∧
        value taken = n.toNat ∧ stop = before.length + taken.length) ∧
      ((∃ n stop, run = .ok n stop) ↔ ∃ taken, IsNumber taken ∧ taken <+: bytes) ∧
      (∀ n stop, run = .ok n stop → IsNumber (encode n) ∧ value (encode n) = n.toNat ∧
        before.length + (encode n).length ≤ stop ∧
        ∀ others, IsNumber others → value others = n.toNat →
          others.length ≤ (encode n).length → others = encode n) ∧
      (∀ offset, (∃ stop, run = .error (.varintOverflow offset) stop) ↔
        offset = before.length ∧ ∃ taken, IsOverlong taken ∧ taken <+: bytes) ∧
      ∀ error stop, run = .error error stop → (¬∃ taken, IsOverlong taken ∧ taken <+: bytes) →
        error = .truncated (before ++ bytes).length 1 0 ∧ stop = (before ++ bytes).length := by
  refine ⟨fun before after numbers => ?_, zigzag_unzigzag, unzigzag_zigzag, value_eq_sum,
    fun before bytes => ⟨fun n stop => readVarint_behind_eq_ok_iff, ⟨?_, ?_⟩, ?_, fun offset =>
      ⟨?_, ?_⟩, ?_⟩⟩
  · exact Number.runFrom_readAll numbers
      (standsAt_behind_iff.2 (List.prefix_append _ after))
  · rintro ⟨n, stop, run⟩
    obtain ⟨taken, number, start, -⟩ := readVarint_behind_eq_ok_iff.1 run
    exact ⟨taken, number, start⟩
  · rintro ⟨taken, number, start⟩
    obtain ⟨n, same⟩ := number.exists_value_eq
    exact ⟨n, _, readVarint_behind_eq_ok_iff.2 ⟨taken, number, start, same, rfl⟩⟩
  · intro n stop run
    obtain ⟨taken, number, -, same, rfl⟩ := readVarint_behind_eq_ok_iff.1 run
    have fewest : ∀ others, IsNumber others → value others = n.toNat →
        (encode n).length ≤ others.length ∧
          (others.length ≤ (encode n).length → others = encode n) := by
      intro others number same
      rw [encode, ← same]
      exact length_encodeGroups_le (isTerminated_iff.2
        ⟨number.one_le_length, number.continues, number.ends⟩) number.length_le
    obtain ⟨written, whole⟩ := mem_forms_iff.1 (encode_mem_forms n)
    exact ⟨written, whole, Nat.add_le_add_left (fewest taken number same).1 _,
      fun others number same => (fewest others number same).2⟩
  · rintro ⟨stop, run⟩
    obtain ⟨overflow, long⟩ | ⟨ended, -⟩ := readVarint_behind_eq_error run
    · cases overflow
      exact ⟨rfl, long⟩
    · cases ended
  · rintro ⟨rfl, taken, long, start⟩
    exact ⟨_, readVarint_of_isOverlong long (standsAt_behind_iff.2 start)⟩
  · intro error stop run other
    obtain ⟨-, long⟩ | ended := readVarint_behind_eq_error run
    · exact absurd long other
    · exact ended

end PrismTree
