import PrismTree.Proofs.Wire.Acceptance
import PrismTree.Varint

/-!
# The forms of a number

A number of variable length has a shortest form and longer ones, in which zero groups follow the
last group that counts. All forms of at most five bytes are accepted. A count in front of a list is
accepted only if the rest of the buffer could hold that many items; this refuses nothing whose
items are all there.
-/
namespace PrismTree

namespace Varint

/-- The high bit is set on every byte but the last. -/
def IsTerminated : List UInt8 → Prop
  | [] => False
  | [last] => last < 0x80
  | byte :: next :: rest => 0x80 ≤ byte ∧ IsTerminated (next :: rest)

/-- The number that groups of seven bits stand for, the lowest group first. -/
def value : List UInt8 → Nat
  | [] => 0
  | byte :: rest => byte.toNat % 128 + 128 * value rest

/-- The forms of a number, the shortest and the padded ones, with at most five bytes. -/
def forms (n : UInt32) : Language UInt8 :=
  stringsWith fun bytes => IsTerminated bytes ∧ bytes.length ≤ maxLength ∧ value bytes = n.toNat

theorem isTerminated_cons {byte : UInt8} {rest : List UInt8} (more : rest ≠ []) :
    IsTerminated (byte :: rest) ↔ 0x80 ≤ byte ∧ IsTerminated rest := by
  obtain ⟨next, rest, rfl⟩ := List.exists_cons_of_ne_nil more
  rfl

theorem IsTerminated.ne_nil {bytes : List UInt8} (h : IsTerminated bytes) : bytes ≠ [] := by
  rintro rfl
  exact h

theorem length_pos_of_mem_forms {n : UInt32} {bytes : List UInt8} (h : bytes ∈ forms n) :
    1 ≤ bytes.length :=
  List.length_pos_iff.2 h.1.ne_nil

theorem value_singleton {byte : UInt8} (last : byte < 0x80) : value [byte] = byte.toNat := by
  have bound : byte.toNat < 128 := last
  simp only [value]
  omega

/-- One group more makes room for numbers that are 128 times as large. -/
theorem two_pow_group (more extra : Nat) :
    2 ^ (7 * (more + 1) + extra) = 128 * 2 ^ (7 * more + extra) := by
  have longer : 7 * (more + 1) + extra = 7 + (7 * more + extra) := by omega
  rw [longer, pow_add]
  omega

/-- The bound on the groups that remain is what keeps the number below `2 ^ 32`. -/
theorem reads_readGroups (start more : Nat) :
    (readGroups start more).Reads fun n => stringsWith fun bytes =>
      IsTerminated bytes ∧ bytes.length ≤ more + 1 ∧ value bytes = n ∧ n < 2 ^ (7 * more + 4) := by
  induction more with
  | zero =>
    refine (Decoder.reads_readByte.bind fun byte =>
      (Decoder.reads_pure _).ite (Decoder.reads_throw _)).congr fun n => ?_
    ext bytes
    simp only [Language.mem_iSup, Language.mem_mul, mem_spelling, mem_stringsWith]
    constructor
    · intro h
      obtain ⟨byte, _, rfl, ys, hy, rfl⟩ := h
      by_cases small : byte ≤ 0x0F
      · rw [if_pos small] at hy
        obtain ⟨rfl, rfl⟩ := hy
        have bound : byte.toNat ≤ 15 := small
        have last : byte < 0x80 := UInt8.lt_of_le_of_lt small (by decide)
        refine ⟨last, by simp, ?_, by omega⟩
        rw [List.append_nil, value_singleton last]
      · rw [if_neg small] at hy
        exact absurd hy (Language.notMem_zero ys)
    · intro h
      obtain ⟨terminated, length, rfl, bound⟩ := h
      obtain ⟨byte, rest, rfl⟩ := List.exists_cons_of_ne_nil terminated.ne_nil
      obtain rfl : rest = [] := by simpa using length
      have last : byte < 0x80 := terminated
      rw [value_singleton last] at bound ⊢
      have small : byte ≤ 0x0F := by
        rw [UInt8.le_iff_toNat_le]
        simp
        omega
      refine ⟨byte, [byte], rfl, [], ?_, by simp⟩
      rw [if_pos small]
      exact ⟨rfl, rfl⟩
  | succ more ih =>
    refine (Decoder.reads_readByte.bind fun byte => (Decoder.reads_pure _).ite
      (ih.bind fun rest => Decoder.reads_pure _)).congr fun n => ?_
    have grows := two_pow_group more 4
    have large : 1 ≤ 2 ^ (7 * more + 4) := Nat.one_le_two_pow
    ext bytes
    simp only [Language.mem_iSup, Language.mem_mul, mem_spelling, mem_stringsWith]
    constructor
    · intro h
      obtain ⟨byte, _, rfl, ys, hy, rfl⟩ := h
      by_cases last : byte < 0x80
      · rw [if_pos last] at hy
        obtain ⟨rfl, rfl⟩ := hy
        have bound : byte.toNat < 128 := last
        refine ⟨last, by simp, ?_, by omega⟩
        rw [List.append_nil, value_singleton last]
      · rw [if_neg last] at hy
        simp only [Language.mem_iSup, mem_mul_provided, mem_stringsWith] at hy
        obtain ⟨rest, rfl, terminated, length, rfl, bound⟩ := hy
        refine ⟨?_, ?_, rfl, ?_⟩
        · exact (isTerminated_cons terminated.ne_nil).2 ⟨UInt8.not_lt.1 last, terminated⟩
        · simp only [List.singleton_append, List.length_cons]
          omega
        · omega
    · intro h
      obtain ⟨terminated, length, rfl, bound⟩ := h
      obtain ⟨byte, rest, rfl⟩ := List.exists_cons_of_ne_nil terminated.ne_nil
      refine ⟨byte, [byte], rfl, rest, ?_, rfl⟩
      by_cases none : rest = []
      · subst none
        have last : byte < 0x80 := terminated
        rw [if_pos last]
        exact ⟨value_singleton last, rfl⟩
      · obtain ⟨continues, terminated⟩ := (isTerminated_cons none).1 terminated
        rw [if_neg (UInt8.not_lt.2 continues)]
        simp only [Language.mem_iSup, mem_mul_provided, mem_stringsWith]
        simp only [value] at bound
        refine ⟨value rest, rfl, terminated, ?_, rfl, by omega⟩
        simp only [List.length_cons] at length
        omega

theorem isTerminated_ofNat {n : Nat} (small : n < 128) :
    IsTerminated [UInt8.ofNat n] ∧ value [UInt8.ofNat n] = n := by
  have same : (UInt8.ofNat n).toNat = n := UInt8.toNat_ofNat_of_lt' (show _ < 256 by omega)
  have last : UInt8.ofNat n < 0x80 := by
    rw [UInt8.lt_iff_toNat_lt, same]
    exact small
  exact ⟨last, by rw [value_singleton last, same]⟩

theorem isTerminated_encodeGroups (more n : Nat) (bound : n < 2 ^ (7 * more + 7)) :
    IsTerminated (encodeGroups more n) ∧ (encodeGroups more n).length ≤ more + 1 ∧
      value (encodeGroups more n) = n := by
  induction more generalizing n with
  | zero =>
    have small : n < 128 := by simpa using bound
    obtain ⟨last, same⟩ := isTerminated_ofNat small
    exact ⟨last, by simp [encodeGroups], same⟩
  | succ more ih =>
    rw [encodeGroups]
    split
    · next small =>
      obtain ⟨last, same⟩ := isTerminated_ofNat small
      exact ⟨last, by simp, same⟩
    · next large =>
      have same : (UInt8.ofNat (n % 128 + 128)).toNat = n % 128 + 128 :=
        UInt8.toNat_ofNat_of_lt' (show _ < 256 by omega)
      have grows := two_pow_group more 7
      obtain ⟨terminated, length, whole⟩ := ih (n / 128) (by omega)
      refine ⟨(isTerminated_cons terminated.ne_nil).2 ⟨?_, terminated⟩, ?_, ?_⟩
      · rw [UInt8.le_iff_toNat_le, same]
        simp
      · simp only [List.length_cons]
        omega
      · simp only [value, same, whole]
        omega

/-- The shortest form is one of the forms. -/
theorem encode_mem_forms (n : UInt32) : encode n ∈ forms n :=
  isTerminated_encodeGroups 4 n.toNat (by have := n.toNat_lt; omega)

theorem encode_ne_nil (n : UInt32) : encode n ≠ [] :=
  (encode_mem_forms n).1.ne_nil

/-- The shortest form of a number other than zero does not begin with a zero byte. -/
theorem head?_encode_ne_zero {n : UInt32} (h : n ≠ 0) : (encode n).head? ≠ some 0 := by
  have positive : 0 < n.toNat := Nat.pos_of_ne_zero fun zero => h (UInt32.toNat_inj.1 zero)
  have byte_ne_zero : ∀ k, 0 < k → k < 256 → UInt8.ofNat k ≠ 0 := by
    intro k pos bound zero
    have := congrArg UInt8.toNat zero
    rw [UInt8.toNat_ofNat_of_lt' bound] at this
    exact absurd this pos.ne'
  rw [encode, encodeGroups]
  split
  · simpa using byte_ne_zero _ positive (by omega)
  · simpa using byte_ne_zero (n.toNat % 128 + 128) (by omega) (by omega)

end Varint

namespace Decoder

variable {ε ε' α : Type}

theorem reads_readVarint : readVarint.Reads Varint.forms := by
  intro buffer position inside n stop
  have groups : (Varint.readGroups position 4 >>= fun value =>
      (pure (UInt32.ofNat value) : Decoder ReadError UInt32)).Reads Varint.forms := by
    refine ((Varint.reads_readGroups position 4).bind fun value => reads_pure _).congr fun n => ?_
    ext bytes
    simp only [Language.mem_iSup, mem_mul_provided, mem_stringsWith, Varint.forms]
    constructor
    · intro h
      obtain ⟨_, rfl, terminated, length, rfl, bound⟩ := h
      exact ⟨terminated, length, (UInt32.toNat_ofNat_of_lt' bound).symm⟩
    · intro h
      obtain ⟨terminated, length, whole⟩ := h
      refine ⟨n.toNat, by simp, terminated, length, whole, n.toNat_lt⟩
  exact groups buffer position inside n stop

theorem reads_readSignedVarint :
    readSignedVarint.Reads fun n =>
      ⨆ code, provided (n = Varint.unzigzag code) * Varint.forms code :=
  reads_readVarint.map _

end Decoder

end PrismTree
