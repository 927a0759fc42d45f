/-!
# Slices and words of bytes

Slices are taken only where they lie inside the array, so a slice always has the length that was
asked for. Words of several bytes are little-endian.
-/
namespace PrismTree.Bytes

/-- How bytes are compared, whatever else a library brings. -/
instance instDecidableEqByteArray : DecidableEq ByteArray :=
  ByteArray.instDecidableEq

/-- The bytes from `start` up to `stop`, if there are that many. -/
def slice? (bytes : ByteArray) (start stop : Nat) : Option ByteArray :=
  if start ≤ stop ∧ stop ≤ bytes.size then some (bytes.extract start stop) else none

theorem slice?_isSome_iff (bytes : ByteArray) (start stop : Nat) :
    (slice? bytes start stop).isSome ↔ start ≤ stop ∧ stop ≤ bytes.size := by
  simp only [slice?]
  split <;> simp_all

theorem size_of_slice? {bytes part : ByteArray} {start stop : Nat}
    (h : slice? bytes start stop = some part) : part.size = stop - start := by
  simp only [slice?] at h
  split at h
  · next inside =>
    cases h
    simp only [ByteArray.size_extract]
    omega
  · cases h

/-- The number that a little-endian list of bytes stands for. -/
def toNat : List UInt8 → Nat
  | [] => 0
  | low :: high => low.toNat + 256 * toNat high

/-- The `width` lowest bytes of a number, little-endian. -/
def ofNat : (width : Nat) → Nat → List UInt8
  | 0, _ => []
  | width + 1, n => UInt8.ofNat n :: ofNat width (n / 256)

@[simp] theorem length_ofNat (width n : Nat) : (ofNat width n).length = width := by
  induction width generalizing n with
  | zero => rfl
  | succ width ih => simp [ofNat, ih]

theorem ofNat_toNat {bytes : List UInt8} {width : Nat} (length : bytes.length = width) :
    ofNat width (toNat bytes) = bytes := by
  induction bytes generalizing width with
  | nil =>
    cases length
    rfl
  | cons low high ih =>
    cases length
    have lowest : UInt8.ofNat (low.toNat + 256 * toNat high) = low := by
      apply UInt8.toNat_inj.1
      rw [UInt8.toNat_ofNat', Nat.add_mul_mod_self_left]
      exact Nat.mod_eq_of_lt low.toNat_lt
    have others : (low.toNat + 256 * toNat high) / 256 = toNat high := by
      have := low.toNat_lt
      omega
    simp only [List.length_cons, toNat, ofNat, lowest, others, ih rfl]

end PrismTree.Bytes
