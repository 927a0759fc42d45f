import Mathlib
import PrismTree.LoadError

/-!
# What a decoder accepts

A decoder is described by the forms of each value: the byte strings from which it reads that value.
It reads exactly these forms if it succeeds just where one of them stands in the buffer, and then
stops right behind it. Nothing else of the buffer has any influence on such a success, so the
description composes: decoders in sequence read the forms in sequence.
-/
namespace PrismTree

/-- Bytes stand in a buffer at a position if the buffer goes on with them from there. -/
def StandsAt (bytes : List UInt8) (buffer : ByteArray) (position : Nat) : Prop :=
  position ≤ buffer.size ∧ bytes <+: buffer.data.toList.drop position

section StandsAt

variable {bytes xs ys : List UInt8} {buffer : ByteArray} {position : Nat}

@[simp] theorem standsAt_nil : StandsAt [] buffer position ↔ position ≤ buffer.size := by
  simp [StandsAt]

theorem StandsAt.add_length_le (h : StandsAt bytes buffer position) :
    position + bytes.length ≤ buffer.size := by
  obtain ⟨inside, starts⟩ := h
  have shorter := starts.length_le
  simp only [List.length_drop, Array.length_toList] at shorter
  have : buffer.data.size = buffer.size := rfl
  omega

theorem prefix_append_iff {suffix : List UInt8} :
    xs ++ ys <+: suffix ↔ xs <+: suffix ∧ ys <+: suffix.drop xs.length := by
  constructor
  · rintro ⟨rest, rfl⟩
    exact ⟨⟨ys ++ rest, by simp⟩, ⟨rest, by simp⟩⟩
  · rintro ⟨⟨rest, rfl⟩, behind⟩
    simpa using behind

theorem standsAt_append :
    StandsAt (xs ++ ys) buffer position ↔
      StandsAt xs buffer position ∧ StandsAt ys buffer (position + xs.length) := by
  constructor
  · rintro ⟨inside, starts⟩
    obtain ⟨first, second⟩ := prefix_append_iff.1 starts
    have fits : StandsAt xs buffer position := ⟨inside, first⟩
    exact ⟨fits, fits.add_length_le, by rwa [← List.drop_drop]⟩
  · intro h
    obtain ⟨⟨inside, first⟩, _, second⟩ := h
    rw [← List.drop_drop] at second
    exact ⟨inside, prefix_append_iff.2 ⟨first, second⟩⟩

theorem standsAt_cons {byte : UInt8} {rest : List UInt8} :
    StandsAt (byte :: rest) buffer position ↔
      StandsAt [byte] buffer position ∧ StandsAt rest buffer (position + 1) :=
  @standsAt_append [byte] rest buffer position

theorem standsAt_singleton {byte : UInt8} :
    StandsAt [byte] buffer position ↔ buffer[position]? = some byte := by
  have here : buffer[position]? = buffer.data.toList[position]? := by
    rw [Array.getElem?_toList]
    rfl
  rw [here]
  constructor
  · intro h
    obtain ⟨_, rest, starts⟩ := h
    rw [← Nat.add_zero position, ← List.getElem?_drop, ← starts]
    rfl
  · intro found
    obtain ⟨inside, rfl⟩ := List.getElem?_eq_some_iff.1 found
    refine ⟨Nat.le_of_lt inside, buffer.data.toList.drop (position + 1), ?_⟩
    exact (List.drop_eq_getElem_cons inside).symm

/-- What stands at a position is determined by its length. -/
theorem StandsAt.eq_of_length_eq (hx : StandsAt xs buffer position)
    (hy : StandsAt ys buffer position) (same : xs.length = ys.length) : xs = ys := by
  rw [List.prefix_iff_eq_take.1 hx.2, List.prefix_iff_eq_take.1 hy.2, same]

/-- Clamping a position to the buffer does not make any bytes stand there. -/
theorem standsAt_min (some : bytes ≠ []) :
    StandsAt bytes buffer (min position buffer.size) ↔ StandsAt bytes buffer position := by
  have positive := List.length_pos_iff.2 some
  constructor
  · intro stands
    have fits := stands.add_length_le
    have inside : min position buffer.size = position := by omega
    rwa [inside] at stands
  · intro stands
    rwa [Nat.min_eq_left stands.1]

theorem standsAt_extract {count : Nat} (fits : position + count ≤ buffer.size) :
    StandsAt (buffer.extract position (position + count)).data.toList buffer position := by
  refine ⟨by omega, ?_⟩
  rw [ByteArray.data_extract, Array.toList_extract]
  simp [List.extract, List.take_prefix]

end StandsAt

section Languages

variable {bytes spelling : List UInt8} {p : Prop} {language : Language UInt8}

@[simp] theorem mem_spelling : bytes ∈ ({spelling} : Language UInt8) ↔ bytes = spelling :=
  Iff.rfl

/-- The strings that have a property. -/
def stringsWith (property : List UInt8 → Prop) : Language UInt8 := {bytes | property bytes}

@[simp] theorem mem_stringsWith {property : List UInt8 → Prop} :
    bytes ∈ stringsWith property ↔ property bytes :=
  Iff.rfl

/-- The empty string, provided that a condition holds. -/
def provided (p : Prop) : Language UInt8 := stringsWith fun bytes => p ∧ bytes = []

@[simp] theorem mem_provided : bytes ∈ provided p ↔ p ∧ bytes = [] :=
  Iff.rfl

@[simp] theorem mem_provided_mul : bytes ∈ provided p * language ↔ p ∧ bytes ∈ language := by
  simp [Language.mem_mul]

@[simp] theorem provided_mul_of {language : Language UInt8} (holds : p) :
    provided p * language = language := by
  ext bytes
  simp [holds]

theorem provided_congr {q : Prop} (same : p ↔ q) : provided p = provided q := by
  rw [propext same]

theorem provided_mul_provided_mul {q : Prop} :
    provided p * (provided q * language) = provided (p ∧ q) * language := by
  ext bytes
  simp [and_assoc]

theorem mem_iSup_provided_mul {α : Type} {property : α → Prop} {forms : α → Language UInt8} :
    bytes ∈ (⨆ value, provided (property value) * forms value) ↔
      ∃ value, property value ∧ bytes ∈ forms value := by
  simp only [Language.mem_iSup, mem_provided_mul]

/-- A value that is determined. -/
@[simp] theorem iSup_provided_eq_mul {α : Type} (forms : α → Language UInt8) (value : α) :
    (⨆ other, provided (value = other) * forms other) = forms value := by
  ext bytes
  simp [Language.mem_iSup]

theorem mem_mul_provided : bytes ∈ language * provided p ↔ p ∧ bytes ∈ language := by
  simp [Language.mem_mul, and_comm]

/-- A condition may be moved to the front. -/
theorem mul_provided_mul {first second : Language UInt8} :
    first * (provided p * second) = provided p * (first * second) := by
  have front : first * provided p = provided p * first := by
    ext bytes
    rw [mem_mul_provided, mem_provided_mul]
  rw [← mul_assoc, front, mul_assoc]

/-- Strings in sequence are at least as long as the shortest ones together. -/
theorem add_le_length_of_mem_mul {first second : Language UInt8} {m n : Nat}
    (hfirst : ∀ bytes ∈ first, m ≤ bytes.length) (hsecond : ∀ bytes ∈ second, n ≤ bytes.length) :
    ∀ bytes ∈ first * second, m + n ≤ bytes.length := by
  intro bytes parts
  obtain ⟨xs, hx, ys, hy, rfl⟩ := Language.mem_mul.1 parts
  rw [List.length_append]
  exact Nat.add_le_add (hfirst xs hx) (hsecond ys hy)

end Languages

namespace Bytes

theorem toNat_ofNat (width n : Nat) : toNat (ofNat width n) = n % 256 ^ width := by
  induction width generalizing n with
  | zero => simp [ofNat, toNat, Nat.mod_one]
  | succ width ih =>
    have low : (UInt8.ofNat n).toNat = n % 256 := UInt8.toNat_ofNat'
    rw [ofNat, toNat, ih, low, pow_succ, Nat.mul_comm (256 ^ width) 256, Nat.mod_mul]

theorem toNat_lt (bytes : List UInt8) : toNat bytes < 256 ^ bytes.length := by
  induction bytes with
  | nil => simp [toNat]
  | cons low high ih =>
    have := low.toNat_lt
    simp only [toNat, List.length_cons, pow_succ]
    omega

end Bytes

namespace Decoder

variable {ε ε' α β : Type} {decoder : Decoder ε α} {forms : α → Language UInt8}

theorem runFrom_bind (next : α → Decoder ε β) (buffer : ByteArray) (position : Nat) :
    (decoder >>= next).runFrom buffer position =
      match decoder.runFrom buffer position with
      | .ok value stop => (next value).runFrom buffer stop
      | .error error stop => .error error stop :=
  rfl

protected theorem id_map (decoder : Decoder ε α) : id <$> decoder = decoder := by
  funext buffer position
  show (decoder >>= pure).runFrom buffer position = decoder.runFrom buffer position
  rw [runFrom_bind]
  cases decoder.runFrom buffer position <;> rfl

protected theorem bind_assoc {γ : Type} (decoder : Decoder ε α) (f : α → Decoder ε β)
    (g : β → Decoder ε γ) : decoder >>= f >>= g = decoder >>= fun value => f value >>= g := by
  funext buffer position
  simp only [bind, Decoder.bind]
  cases decoder buffer position <;> rfl

/-- Decoders in sequence obey the laws of sequences. -/
instance : LawfulMonad (Decoder ε) :=
  .mk' _ Decoder.id_map (fun _ _ => rfl) Decoder.bind_assoc

/-- A decoder reads exactly these forms: it succeeds just where a form stands, with the value of
that form, and stops right behind it. -/
def Reads (decoder : Decoder ε α) (forms : α → Language UInt8) : Prop :=
  ∀ buffer position, position ≤ buffer.size → ∀ value stop,
    decoder.runFrom buffer position = .ok value stop ↔
      ∃ bytes ∈ forms value, StandsAt bytes buffer position ∧ stop = position + bytes.length

theorem Reads.congr {forms' : α → Language UInt8} (reads : decoder.Reads forms)
    (same : ∀ value, forms value = forms' value) : decoder.Reads forms' := by
  obtain rfl : forms = forms' := funext same
  exact reads

/-- Of the forms of all values at most one stands at a position. -/
theorem Reads.unambiguous (reads : decoder.Reads forms) {buffer : ByteArray} {position : Nat}
    {value value' : α} {bytes bytes' : List UInt8} (form : bytes ∈ forms value)
    (stands : StandsAt bytes buffer position) (form' : bytes' ∈ forms value')
    (stands' : StandsAt bytes' buffer position) : value = value' ∧ bytes = bytes' := by
  have run := (reads buffer position stands.1 value _).2 ⟨bytes, form, stands, rfl⟩
  have run' := (reads buffer position stands.1 value' _).2 ⟨bytes', form', stands', rfl⟩
  rw [run, EStateM.Result.ok.injEq] at run'
  exact ⟨run'.1, stands.eq_of_length_eq stands' (Nat.add_left_cancel run'.2)⟩

theorem reads_pure (value : α) :
    (pure value : Decoder ε α).Reads fun result => provided (result = value) := by
  intro buffer position inside result stop
  constructor
  · intro run
    cases run
    exact ⟨[], ⟨rfl, rfl⟩, standsAt_nil.2 inside, rfl⟩
  · intro h
    obtain ⟨bytes, ⟨rfl, rfl⟩, _, rfl⟩ := h
    rfl

theorem reads_throw (error : ε) : (Decoder.throw error : Decoder ε α).Reads fun _ => 0 := by
  intro buffer position _ value stop
  constructor
  · intro run
    cases run
  · intro h
    obtain ⟨bytes, never, _⟩ := h
    exact absurd never (Language.notMem_zero bytes)

theorem bind_eq_ok_iff {next : α → Decoder ε β} {buffer : ByteArray} {position stop : Nat}
    {result : β} :
    (decoder >>= next).runFrom buffer position = .ok result stop ↔
      ∃ value middle, decoder.runFrom buffer position = .ok value middle ∧
        (next value).runFrom buffer middle = .ok result stop := by
  rw [runFrom_bind]
  cases decoder.runFrom buffer position <;> simp

theorem Reads.bind {next : α → Decoder ε β} {forms' : α → β → Language UInt8}
    (first : decoder.Reads forms) (second : ∀ value, (next value).Reads (forms' value)) :
    (decoder >>= next).Reads fun result => ⨆ value, forms value * forms' value result := by
  intro buffer position inside result stop
  rw [bind_eq_ok_iff]
  constructor
  · intro h
    obtain ⟨value, middle, start, run⟩ := h
    obtain ⟨xs, hx, stands, rfl⟩ := (first buffer position inside value middle).1 start
    obtain ⟨ys, hy, stands', rfl⟩ := (second value buffer _ stands.add_length_le result stop).1 run
    refine ⟨xs ++ ys, Language.mem_iSup.2 ⟨value, Language.append_mem_mul hx hy⟩, ?_, ?_⟩
    · exact standsAt_append.2 ⟨stands, stands'⟩
    · rw [List.length_append, Nat.add_assoc]
  · intro h
    obtain ⟨bytes, sequence, stands, rfl⟩ := h
    obtain ⟨value, parts⟩ := Language.mem_iSup.1 sequence
    obtain ⟨xs, hx, ys, hy, rfl⟩ := Language.mem_mul.1 parts
    obtain ⟨stands, stands'⟩ := standsAt_append.1 stands
    refine ⟨value, _, (first buffer position inside value _).2 ⟨xs, hx, stands, rfl⟩, ?_⟩
    rw [List.length_append, ← Nat.add_assoc]
    exact (second value buffer _ stands.add_length_le result _).2 ⟨ys, hy, stands', rfl⟩

theorem Reads.map (f : α → β) (reads : decoder.Reads forms) :
    (f <$> decoder).Reads fun result => ⨆ value, provided (result = f value) * forms value := by
  refine (reads.bind fun value => reads_pure (f value)).congr fun result => ?_
  ext bytes
  simp only [Language.mem_iSup, mem_mul_provided, mem_provided_mul]

theorem runFrom_mapError (f : ε → ε') (buffer : ByteArray) (position : Nat) :
    (decoder.mapError f).runFrom buffer position =
      match decoder.runFrom buffer position with
      | .ok value stop => .ok value stop
      | .error error stop => .error (f error) stop :=
  rfl

@[simp] theorem mapError_eq_ok_iff (f : ε → ε') {buffer : ByteArray} {position stop : Nat}
    {value : α} :
    (decoder.mapError f).runFrom buffer position = .ok value stop ↔
      decoder.runFrom buffer position = .ok value stop := by
  rw [runFrom_mapError]
  cases decoder.runFrom buffer position <;> simp

/-- What a decoder accepts does not depend on how it words its errors. -/
theorem Reads.mapError (f : ε → ε') (reads : decoder.Reads forms) :
    (decoder.mapError f).Reads forms := by
  intro buffer position inside value stop
  rw [mapError_eq_ok_iff]
  exact reads buffer position inside value stop

theorem Reads.lift {decoder : Decoder ReadError α} (reads : decoder.Reads forms) :
    (liftM decoder : Decoder LoadError α).Reads forms :=
  reads.mapError _

theorem Reads.within {decoder : Decoder LoadError α} (context : LoadError.Context)
    (reads : decoder.Reads forms) : (Decoder.within context decoder).Reads forms :=
  reads.mapError _

theorem reads_fail (cause : LoadError.Cause) :
    (Decoder.fail cause : Decoder LoadError α).Reads fun _ => 0 :=
  reads_throw _

theorem runFrom_withPosition (target position : Nat) (buffer : ByteArray) :
    (withPosition target decoder).runFrom buffer position =
      match decoder.runFrom buffer (min target buffer.size) with
      | .ok value _ => .ok value position
      | .error error _ => .error error position :=
  rfl

theorem withPosition_eq_ok_iff {target position stop : Nat} {buffer : ByteArray} {value : α} :
    (withPosition target decoder).runFrom buffer position = .ok value stop ↔
      stop = position ∧ ∃ inner, decoder.runFrom buffer (min target buffer.size) =
        .ok value inner := by
  rw [runFrom_withPosition]
  cases decoder.runFrom buffer (min target buffer.size) with
  | error error inner => simp
  | ok found inner =>
    simp only [EStateM.Result.ok.injEq]
    constructor
    · rintro ⟨rfl, rfl⟩
      exact ⟨rfl, inner, rfl, rfl⟩
    · intro h
      obtain ⟨rfl, inner', rfl, -⟩ := h
      exact ⟨rfl, rfl⟩

theorem Reads.withPosition (reads : decoder.Reads forms) {target position stop : Nat}
    {buffer : ByteArray} {value : α} :
    (Decoder.withPosition target decoder).runFrom buffer position = .ok value stop ↔
      stop = position ∧ ∃ bytes ∈ forms value, StandsAt bytes buffer (min target buffer.size) := by
  rw [withPosition_eq_ok_iff]
  refine and_congr_right fun _ => ?_
  constructor
  · rintro ⟨inner, run⟩
    obtain ⟨bytes, form, stands, -⟩ := (reads buffer _ (Nat.min_le_right _ _) value inner).1 run
    exact ⟨bytes, form, stands⟩
  · intro h
    obtain ⟨bytes, form, stands⟩ := h
    exact ⟨_, (reads buffer _ (Nat.min_le_right _ _) value _).2 ⟨bytes, form, stands, rfl⟩⟩

theorem Reads.ite {decoder' : Decoder ε α} {forms' : α → Language UInt8} {p : Prop} [Decidable p]
    (whenTrue : decoder.Reads forms) (whenFalse : decoder'.Reads forms') :
    (if p then decoder else decoder').Reads
      fun value => if p then forms value else forms' value := by
  by_cases h : p
  · simpa only [if_pos h] using whenTrue
  · simpa only [if_neg h] using whenFalse

/-- A decoder that goes on with what was found, and reads nothing if nothing was found. -/
theorem Reads.ofOption {decoder : Decoder ε β} {forms' : α → β → Language UInt8}
    (found : Option α) (missing : found = none → decoder.Reads fun _ => 0)
    (present : ∀ value, found = some value → decoder.Reads (forms' value)) :
    decoder.Reads fun result => ⨆ value, provided (found = some value) * forms' value result := by
  cases found with
  | none =>
    refine (missing rfl).congr fun result => ?_
    ext bytes
    simp [Language.mem_iSup, Language.notMem_zero]
  | some value =>
    refine (present value rfl).congr fun result => ?_
    ext bytes
    simp

section Records

variable {γ : Type} {next : α → Decoder ε γ} {known : γ → Prop}

/-- A record of which something is known already goes on with a field and then with the rest, which
is read for the value of that field. -/
theorem Reads.field {rest : γ → Language UInt8} (reads : decoder.Reads forms) (part : γ → α)
    (others : ∀ value, (next value).Reads fun record =>
      provided (known record ∧ part record = value) * rest record) :
    (decoder >>= next).Reads fun record =>
      provided (known record) * (forms (part record) * rest record) := by
  refine (reads.bind others).congr fun record => ?_
  ext bytes
  simp only [mul_provided_mul, Language.mem_iSup, mem_provided_mul]
  constructor
  · intro h
    obtain ⟨value, ⟨holds, rfl⟩, form⟩ := h
    exact ⟨holds, form⟩
  · rintro ⟨holds, form⟩
    exact ⟨part record, ⟨holds, rfl⟩, form⟩

/-- The last field of a record determines the record. -/
theorem Reads.lastField (reads : decoder.Reads forms) (part : γ → α)
    (others : ∀ value, (next value).Reads fun record =>
      provided (known record ∧ part record = value)) :
    (decoder >>= next).Reads fun record => provided (known record) * forms (part record) := by
  have same := reads.field part fun value => (others value).congr fun _ => (mul_one _).symm
  exact same.congr fun record => by rw [mul_one]

/-- When all fields are read, the record is known. -/
theorem reads_record (record : γ) (same : ∀ other, other = record ↔ known other) :
    (pure record : Decoder ε γ).Reads fun other => provided (known other) :=
  (reads_pure record).congr fun other => provided_congr (same other)

/-- At first nothing is known of a record. -/
theorem Reads.whole {forms' : α → Language UInt8}
    (reads : decoder.Reads fun record => provided True * forms' record) : decoder.Reads forms' :=
  reads.congr fun _ => provided_mul_of trivial

end Records

theorem runFrom_readByte (buffer : ByteArray) (position : Nat) :
    readByte.runFrom buffer position =
      match buffer[position]? with
      | some byte => .ok byte (position + 1)
      | none => .error (.truncated position 1 0) position :=
  rfl

/-- A byte is read only where one stands, also at a position outside the buffer. -/
theorem readByte_eq_ok_iff {buffer : ByteArray} {position stop : Nat} {byte : UInt8} :
    readByte.runFrom buffer position = .ok byte stop ↔
      StandsAt [byte] buffer position ∧ stop = position + 1 := by
  rw [runFrom_readByte, standsAt_singleton]
  cases buffer[position]? with
  | none => simp
  | some found => simp [eq_comm]

theorem reads_readByte : readByte.Reads fun byte => {[byte]} := by
  intro buffer position _ byte stop
  rw [readByte_eq_ok_iff]
  simp

theorem runFrom_readExactly (count : Nat) (buffer : ByteArray) (position : Nat) :
    (readExactly count).runFrom buffer position =
      if buffer.size - position < count then
        .error (.truncated position count (buffer.size - position)) position
      else
        let stop := min (position + count) buffer.size
        .ok (buffer.extract position stop) stop := by
  simp only [readExactly, remaining, runFrom, bind, Decoder.bind]
  split <;> rfl

theorem reads_readExactly (count : Nat) :
    (readExactly count).Reads fun part =>
      stringsWith fun bytes => bytes = part.data.toList ∧ part.size = count := by
  intro buffer position inside part stop
  rw [runFrom_readExactly]
  constructor
  · intro run
    split at run
    · cases run
    · next enough =>
      have fits : min (position + count) buffer.size = position + count := by omega
      simp only [fits] at run
      cases run
      have size : (buffer.extract position (position + count)).size = count := by
        rw [ByteArray.size_extract]
        omega
      refine ⟨_, ⟨rfl, size⟩, standsAt_extract (by omega), ?_⟩
      exact congrArg (position + ·) size.symm
  · intro h
    obtain ⟨bytes, ⟨rfl, size⟩, stands, rfl⟩ := h
    have length : part.data.toList.length = count := size
    have fits := stands.add_length_le
    rw [length] at fits
    have here := stands.eq_of_length_eq (standsAt_extract fits) (by
      rw [length, Array.length_toList, ByteArray.size_data, ByteArray.size_extract]
      omega)
    rw [if_neg (by omega), Nat.min_eq_left fits, length]
    simp only
    congr 1
    exact ByteArray.ext (Array.toList_inj.1 here).symm

/-- The form of a word is its little-endian bytes. -/
theorem reads_readWord (width : Nat) :
    (readWord width).Reads fun n =>
      stringsWith fun bytes => bytes.length = width ∧ Bytes.toNat bytes = n := by
  refine ((reads_readExactly width).bind fun part => reads_pure _).congr fun n => ?_
  ext bytes
  simp only [Language.mem_iSup, mem_mul_provided, mem_stringsWith]
  constructor
  · intro h
    obtain ⟨part, rfl, rfl, size⟩ := h
    exact ⟨size, rfl⟩
  · rintro ⟨length, rfl⟩
    exact ⟨⟨bytes.toArray⟩, by simp, by simp, length⟩

/-- A type whose values are the numbers that fit in a word is read by their words. -/
theorem reads_ofWord {width : Nat} {ofNat : Nat → α} {toNat : α → Nat}
    (fits : ∀ value, toNat value < 256 ^ width) (ofNat_toNat : ∀ value, ofNat (toNat value) = value)
    (toNat_ofNat : ∀ n, n < 256 ^ width → toNat (ofNat n) = n) :
    (ofNat <$> readWord width).Reads fun value => {Bytes.ofNat width (toNat value)} := by
  refine ((reads_readWord width).map ofNat).congr fun value => ?_
  ext bytes
  simp only [Language.mem_iSup, mem_provided_mul, mem_stringsWith, mem_spelling]
  constructor
  · intro h
    obtain ⟨_, rfl, length, rfl⟩ := h
    have small : Bytes.toNat bytes < 256 ^ width := length ▸ Bytes.toNat_lt bytes
    rw [toNat_ofNat _ small]
    exact (Bytes.ofNat_toNat length).symm
  · rintro rfl
    refine ⟨toNat value, (ofNat_toNat value).symm, Bytes.length_ofNat width _, ?_⟩
    rw [Bytes.toNat_ofNat]
    exact Nat.mod_eq_of_lt (fits value)

theorem reads_readUInt32 : readUInt32.Reads fun n => {Bytes.ofNat 4 n.toNat} :=
  reads_ofWord UInt32.toNat_lt (fun _ => UInt32.ofNat_toNat)
    fun _ small => UInt32.toNat_ofNat_of_lt' small

theorem reads_readDouble : readDouble.Reads fun d => {Bytes.ofNat 8 d.bits.toNat} :=
  reads_ofWord (fun d : Double => d.bits.toNat_lt)
    (fun _ => congrArg Double.mk UInt64.ofNat_toNat)
    fun _ small => UInt64.toNat_ofNat_of_lt' small

end Decoder

section Repetition

variable {m : Type → Type} [Monad m] [LawfulMonad m] {α : Type}

theorem readManyFrom_eq (item : Nat → m α) (index : Nat) (read : List α) (count : Nat) :
    readManyFrom item index read count =
      (read.reverse ++ ·) <$> readManyFrom item index [] count := by
  induction count generalizing index read with
  | zero => simp [readManyFrom]
  | succ count ih =>
    simp only [readManyFrom, map_bind]
    refine bind_congr fun value => ?_
    rw [ih (index + 1) (value :: read), ih (index + 1) [value]]
    simp

theorem readManyFrom_succ (item : Nat → m α) (index : Nat) (count : Nat) :
    readManyFrom item index [] (count + 1) =
      item index >>= fun value => (value :: ·) <$> readManyFrom item (index + 1) [] count := by
  rw [readManyFrom]
  refine bind_congr fun value => ?_
  rw [readManyFrom_eq]
  rfl

omit [LawfulMonad m] in
/-- A relation that goes through a sequence holds of many items if it holds of each. -/
theorem readMany_related {item item' : Nat → m α}
    {related : m (List α) → m (List α) → Prop}
    (nothing : ∀ values : List α, related (pure values) (pure values))
    (more : ∀ index (next next' : α → m (List α)), (∀ value, related (next value) (next' value)) →
      related (item index >>= next) (item' index >>= next')) (count : Nat) :
    related (readMany count item) (readMany count item') := by
  have tail : ∀ index read,
      related (readManyFrom item index read count) (readManyFrom item' index read count) := by
    induction count with
    | zero => exact fun _ read => nothing read.reverse
    | succ count ih =>
      exact fun index read => more index _ _ fun value => ih (index + 1) (value :: read)
  exact tail 0 []

end Repetition

/-- The forms of one item more. -/
theorem iSup_mul_items {α : Type} (forms : α → Language UInt8) (count : Nat) (values : List α) :
    (⨆ value, forms value * ⨆ rest, provided (values = value :: rest) *
      (provided (rest.length = count) * (rest.map forms).prod)) =
      provided (values.length = count + 1) * (values.map forms).prod := by
  ext bytes
  rw [Language.mem_iSup, mem_provided_mul]
  constructor
  · rintro ⟨value, parts⟩
    obtain ⟨xs, hx, ys, hy, rfl⟩ := Language.mem_mul.1 parts
    obtain ⟨rest, rfl, counted⟩ := mem_iSup_provided_mul.1 hy
    obtain ⟨rfl, items⟩ := mem_provided_mul.1 counted
    refine ⟨rfl, ?_⟩
    rw [List.map_cons, List.prod_cons]
    exact Language.append_mem_mul hx items
  · rintro ⟨length, parts⟩
    obtain ⟨value, rest, rfl⟩ := List.exists_cons_of_length_eq_add_one length
    rw [List.map_cons, List.prod_cons] at parts
    obtain ⟨xs, hx, ys, hy, rfl⟩ := Language.mem_mul.1 parts
    refine ⟨value, Language.append_mem_mul hx ?_⟩
    have shorter : rest.length = count := by simpa using length
    exact mem_iSup_provided_mul.2 ⟨rest, rfl, mem_provided_mul.2 ⟨shorter, hy⟩⟩

/-- Items in sequence have the products of their forms. -/
theorem Decoder.reads_readMany {ε α : Type} {item : Nat → Decoder ε α}
    {forms : α → Language UInt8} (reads : ∀ index, (item index).Reads forms) (count : Nat) :
    (readMany count item).Reads fun values =>
      provided (values.length = count) * (values.map forms).prod := by
  have from_index : ∀ index, (readManyFrom item index [] count).Reads fun values =>
      provided (values.length = count) * (values.map forms).prod := by
    induction count with
    | zero =>
      intro index
      refine (reads_pure []).congr fun values => ?_
      ext bytes
      cases values <;> simp
    | succ count ih =>
      intro index
      rw [readManyFrom_succ]
      exact ((reads index).bind fun value => (ih (index + 1)).map _).congr fun values =>
        iSup_mul_items forms count values
  exact from_index 0

end PrismTree
