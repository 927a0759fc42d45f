import PrismTree.Node.Decoder
import PrismTree.Preamble.Heading
import PrismTree.Proofs.Count.Check
import PrismTree.Proofs.Wire.Varint

/-!
# The forms of data

The forms of everything that is smaller than a node are built from the forms of numbers, so that one
description serves two purposes: with all forms of a number it tells what is accepted, and with the
shortest form alone it tells what a serializer writes.
-/
namespace PrismTree

namespace Wire

variable (varint : UInt32 → Language UInt8) {α : Type}

/-- A count, which has to fit in 32 bits. -/
def count (n : Nat) : Language UInt8 :=
  ⨆ word : UInt32, provided (word.toNat = n) * varint word

variable {varint} in
theorem mem_count {n : Nat} {bytes : List UInt8} :
    bytes ∈ count varint n ↔ ∃ word : UInt32, word.toNat = n ∧ bytes ∈ varint word :=
  mem_iSup_provided_mul

/-- A counted list of items. -/
def list (item : α → Language UInt8) (items : List α) : Language UInt8 :=
  count varint items.length * (items.map item).prod

/-- Something that may be absent, and must not begin with the zero byte that tells so. -/
def optional (item : α → Language UInt8) : Option α → Language UInt8
  | none => {[0]}
  | some value => stringsWith fun bytes => bytes ∈ item value ∧ bytes.head? ≠ some 0

/-- A span: its start, then its length. -/
def location (location : Location) : Language UInt8 :=
  varint location.start * varint location.length

/-- A span that may be absent: a zero byte, or any other byte and the span. -/
def optionalLocation : Option Location → Language UInt8
  | none => {[0]}
  | some span => ⨆ byte : UInt8, provided (byte ≠ 0) * ({[byte]} * location varint span)

/-- Bytes after their length. -/
def embedded (bytes : ByteArray) : Language UInt8 :=
  count varint bytes.size * {bytes.data.toList}

/-- A text after its length in bytes. -/
def text (text : String) : Language UInt8 :=
  embedded varint text.toUTF8

/-- A flag word. -/
def flags (flags : NodeFlags) : Language UInt8 :=
  varint flags.bits.toUInt32

/-- A string: one and a span of the source that holds these bytes, or two and the bytes. -/
def string (source : ByteArray) (string : ByteString) : Language UInt8 :=
  (⨆ span : Location,
    provided (Bytes.slice? source span.start.toNat (span.start.toNat + span.length.toNat) =
      some string.bytes) * ({[1]} * location varint span)) +
  {[2]} * embedded varint string.bytes

/-- An integer: a byte that is not zero if the magnitude counts as negative, and at least one word
of the magnitude. -/
def integer (value : Int) : Language UInt8 :=
  ⨆ sign : UInt8, ⨆ words : List UInt32,
    provided (words ≠ [] ∧
      value = if sign = 0 then (Decoder.magnitude words : Int) else -Decoder.magnitude words) *
    ({[sign]} * list varint varint words)

theorem one_le_length_of_byte {byte : UInt8} :
    ∀ bytes ∈ ({[byte]} : Language UInt8), 1 ≤ bytes.length := by
  rintro _ rfl
  exact Nat.le_refl 1

theorem two_le_length_of_location (span : Location) :
    ∀ bytes ∈ location Varint.forms span, 2 ≤ bytes.length :=
  add_le_length_of_mem_mul (fun _ => Varint.length_pos_of_mem_forms)
    fun _ => Varint.length_pos_of_mem_forms

end Wire

theorem fromUTF8?_eq_some_iff {bytes : ByteArray} {text : String} :
    String.fromUTF8? bytes = some text ↔ bytes = text.toUTF8 := by
  rw [String.fromUTF8?, String.toUTF8_eq_toByteArray]
  constructor
  · intro decoded
    split at decoded
    · cases decoded
      rfl
    · cases decoded
  · rintro rfl
    rw [dif_pos text.isValidUTF8]
    rfl

namespace Decoder

variable {ε ε' : Type}

/-- A decoder announces a number of items if it reads their count, of which there is a least one,
and makes sure that the rest of the buffer has room for as many of the smallest items. -/
def Announces (decoder : Decoder ε Nat) (least minSize : Nat) : Prop :=
  ∀ buffer position, position ≤ buffer.size → ∀ count stop,
    decoder.runFrom buffer position = .ok count stop ↔
      least ≤ count ∧ count * minSize ≤ buffer.size - stop ∧
        ∃ bytes ∈ Wire.count Varint.forms count,
          StandsAt bytes buffer position ∧ stop = position + bytes.length

theorem Announces.mapError {decoder : Decoder ε Nat} {least minSize : Nat} (f : ε → ε')
    (announces : decoder.Announces least minSize) :
    (decoder.mapError f).Announces least minSize := by
  intro buffer position inside count stop
  rw [mapError_eq_ok_iff]
  exact announces buffer position inside count stop

theorem Announces.lift {decoder : Decoder ReadError Nat} {least minSize : Nat}
    (announces : decoder.Announces least minSize) :
    (liftM decoder : Decoder LoadError Nat).Announces least minSize :=
  announces.mapError _

theorem runFrom_ensureCount (word : UInt32) (minSize : Nat) (buffer : ByteArray)
    (position : Nat) :
    (ensureCount word minSize).runFrom buffer position =
      if buffer.size - position < word.toNat * minSize then
        .error (.countTooLarge position word (buffer.size - position)) position
      else .ok word.toNat position := by
  simp only [ensureCount, remaining, runFrom, bind, Decoder.bind]
  split <;> rfl

theorem ensureCount_eq_ok_iff {word : UInt32} {minSize count : Nat} {buffer : ByteArray}
    {position stop : Nat} :
    (ensureCount word minSize).runFrom buffer position = .ok count stop ↔
      count = word.toNat ∧ stop = position ∧ word.toNat * minSize ≤ buffer.size - position := by
  rw [runFrom_ensureCount]
  split
  · next short =>
    simp only [reduceCtorEq, false_iff, not_and]
    omega
  · next room =>
    simp only [EStateM.Result.ok.injEq]
    constructor
    · rintro ⟨rfl, rfl⟩
      exact ⟨rfl, rfl, by omega⟩
    · intro h
      obtain ⟨rfl, rfl, -⟩ := h
      exact ⟨rfl, rfl⟩

end Decoder

namespace CountCheck

open Decoder

/-- A check demands room for as many items of a size if it lets a count pass, and reads nothing,
exactly where there is this room. -/
def Demands (check : CountCheck) (minSize size : Nat) : Prop :=
  ∀ word buffer position count stop,
    (check word minSize).runFrom buffer position = .ok count stop ↔
      count = word.toNat ∧ stop = position ∧ word.toNat * size ≤ buffer.size - position

theorem demands_room (minSize : Nat) : room.Demands minSize minSize :=
  fun _ _ _ _ _ => ensureCount_eq_ok_iff

theorem demands_trust (minSize : Nat) : trust.Demands minSize 0 := by
  intro word buffer position count stop
  have run : (trust word minSize).runFrom buffer position = .ok word.toNat position := rfl
  rw [run, EStateM.Result.ok.injEq]
  simp only [Nat.mul_zero, Nat.zero_le, and_true]
  exact and_congr eq_comm eq_comm

variable {check : CountCheck} {minSize size : Nat}

theorem Demands.announces_readCount (demands : check.Demands minSize size) :
    (check.readCount minSize).Announces 0 size := by
  intro buffer position inside count stop
  have number := reads_readVarint buffer position inside
  rw [readCount, bind_eq_ok_iff]
  constructor
  · intro h
    obtain ⟨word, middle, read, run⟩ := h
    obtain ⟨rfl, rfl, room⟩ := (demands _ _ _ _ _).1 run
    obtain ⟨bytes, form, stands, rfl⟩ := (number word stop).1 read
    refine ⟨Nat.zero_le _, room, bytes, ?_, stands, rfl⟩
    exact Wire.mem_count.2 ⟨word, rfl, form⟩
  · intro h
    obtain ⟨-, room, bytes, counts, stands, rfl⟩ := h
    obtain ⟨word, rfl, form⟩ := Wire.mem_count.1 counts
    refine ⟨word, _, (number word _).2 ⟨bytes, form, stands, rfl⟩, ?_⟩
    exact (demands _ _ _ _ _).2 ⟨rfl, rfl, room⟩

/-- The number of words of an integer, of which there is at least one. -/
def readWordCount (check : CountCheck) : Decoder LoadError Nat := do
  let count ← readVarint
  if count = 0 then
    fail .emptyInteger
  else
    check count 1

theorem Demands.announces_readWordCount (demands : check.Demands 1 size) :
    check.readWordCount.Announces 1 size := by
  intro buffer position inside count stop
  have number := reads_readVarint.lift buffer position inside
  rw [readWordCount, bind_eq_ok_iff]
  constructor
  · intro h
    obtain ⟨word, middle, read, run⟩ := h
    split at run
    · cases run
    · next positive =>
      obtain ⟨rfl, rfl, room⟩ := (demands _ _ _ _ _).1 ((mapError_eq_ok_iff _).1 run)
      obtain ⟨bytes, form, stands, rfl⟩ := (number word stop).1 read
      refine ⟨?_, room, bytes, ?_, stands, rfl⟩
      · exact Nat.pos_of_ne_zero fun zero => positive (UInt32.toNat_inj.1 zero)
      · exact Wire.mem_count.2 ⟨word, rfl, form⟩
  · intro h
    obtain ⟨positive, room, bytes, counts, stands, rfl⟩ := h
    obtain ⟨word, rfl, form⟩ := Wire.mem_count.1 counts
    refine ⟨word, _, (number word _).2 ⟨bytes, form, stands, rfl⟩, ?_⟩
    have nonzero : word ≠ 0 := by
      rintro rfl
      exact absurd positive (by decide)
    rw [if_neg nonzero]
    exact (mapError_eq_ok_iff _).2 ((demands _ _ _ _ _).2 ⟨rfl, rfl, room⟩)

theorem readInteger_eq (check : CountCheck) :
    check.readInteger = (liftM readByte : Decoder LoadError UInt8) >>= fun sign =>
      (check.readWordCount >>= fun count => readMany count fun _ => liftM readVarint) >>=
        fun words => pure (if sign = 0 then (magnitude words : Int) else -magnitude words) := by
  refine bind_congr fun sign => ?_
  simp only [readWordCount, bind_assoc]
  refine bind_congr fun count => ?_
  split <;> rfl

end CountCheck

namespace Decoder

variable {ε α β : Type}

theorem announces_readCount (minSize : Nat) : (readCount minSize).Announces 0 minSize :=
  (CountCheck.demands_room minSize).announces_readCount

/-- Where as many items stand as a count announces, there was room for them. -/
theorem length_mul_le_of_mem_prod {forms : α → Language UInt8} {minSize : Nat}
    (smallest : ∀ value, ∀ bytes ∈ forms value, minSize ≤ bytes.length) (values : List α)
    {bytes : List UInt8} (h : bytes ∈ (values.map forms).prod) :
    values.length * minSize ≤ bytes.length := by
  induction values generalizing bytes with
  | nil => simp
  | cons value rest ih =>
    rw [List.map_cons, List.prod_cons] at h
    obtain ⟨xs, hx, ys, hy, rfl⟩ := Language.mem_mul.1 h
    have first := smallest value xs hx
    have others := ih hy
    rw [List.length_cons, List.length_append, Nat.add_mul]
    omega

/-- The check of a count takes nothing away: a counted list is read just where its count and all of
its items stand. -/
theorem Announces.reads {decoder : Decoder ε Nat} {item : Nat → Decoder ε α} {least minSize : Nat}
    {forms : α → Language UInt8} (announces : decoder.Announces least minSize)
    (items : ∀ index, (item index).Reads forms)
    (smallest : ∀ value, ∀ bytes ∈ forms value, minSize ≤ bytes.length) :
    (decoder >>= fun count => readMany count item).Reads fun values =>
      provided (least ≤ values.length) * Wire.list Varint.forms forms values := by
  intro buffer position inside values stop
  rw [bind_eq_ok_iff]
  constructor
  · intro h
    obtain ⟨count, middle, counted, run⟩ := h
    obtain ⟨enough, -, xs, hx, stands, rfl⟩ :=
      (announces buffer position inside count middle).1 counted
    obtain ⟨ys, all, stands', rfl⟩ :=
      (reads_readMany items count buffer _ stands.add_length_le values stop).1 run
    obtain ⟨rfl, hy⟩ := mem_provided_mul.1 all
    refine ⟨xs ++ ys, ?_, standsAt_append.2 ⟨stands, stands'⟩, ?_⟩
    · exact mem_provided_mul.2 ⟨enough, Language.append_mem_mul hx hy⟩
    · rw [List.length_append, Nat.add_assoc]
  · intro h
    obtain ⟨bytes, form, stands, rfl⟩ := h
    obtain ⟨enough, form⟩ := mem_provided_mul.1 form
    obtain ⟨xs, hx, ys, hy, rfl⟩ := Language.mem_mul.1 form
    obtain ⟨stands, stands'⟩ := standsAt_append.1 stands
    have room := length_mul_le_of_mem_prod smallest values hy
    have inside' := stands'.add_length_le
    refine ⟨values.length, _, (announces buffer position inside values.length _).2
      ⟨enough, by omega, xs, hx, stands, rfl⟩, ?_⟩
    rw [List.length_append, ← Nat.add_assoc]
    exact (reads_readMany items _ buffer _ stands.add_length_le values _).2
      ⟨ys, mem_provided_mul.2 ⟨rfl, hy⟩, stands', rfl⟩

theorem reads_readLocation : readLocation.Reads (Wire.location Varint.forms) := by
  refine Reads.whole (reads_readVarint.field Location.start fun start =>
    reads_readVarint.lastField Location.length fun length =>
      reads_record (Location.mk start length) ?_)
  rintro ⟨⟩
  simp

theorem reads_readOptionalLocation :
    readOptionalLocation.Reads (Wire.optionalLocation Varint.forms) := by
  refine (reads_readByte.bind fun byte =>
    (reads_pure none).ite (reads_readLocation.map some)).congr fun span => ?_
  ext bytes
  simp only [Language.mem_iSup]
  constructor
  · rintro ⟨byte, form⟩
    by_cases absent : byte = 0
    · simp only [if_pos absent, mem_mul_provided] at form
      obtain ⟨rfl, rfl⟩ := form
      rw [absent]
      rfl
    · simp only [if_neg absent] at form
      obtain ⟨xs, hx, ys, hy, rfl⟩ := Language.mem_mul.1 form
      obtain ⟨span, rfl, place⟩ := mem_iSup_provided_mul.1 hy
      exact mem_iSup_provided_mul.2 ⟨byte, absent, Language.append_mem_mul hx place⟩
  · intro form
    cases span with
    | none =>
      refine ⟨0, ?_⟩
      simp only [if_true, mem_mul_provided, true_and]
      exact form
    | some span =>
      obtain ⟨byte, present, form⟩ := mem_iSup_provided_mul.1 form
      obtain ⟨xs, hx, ys, hy, rfl⟩ := Language.mem_mul.1 form
      refine ⟨byte, Language.append_mem_mul hx ?_⟩
      simp only [if_neg present]
      exact mem_iSup_provided_mul.2 ⟨span, rfl, hy⟩

theorem reads_readEmbedded : readEmbedded.Reads (Wire.embedded Varint.forms) := by
  refine (reads_readVarint.bind fun length => reads_readExactly length.toNat).congr fun part => ?_
  ext bytes
  rw [Language.mem_iSup, Wire.embedded]
  constructor
  · rintro ⟨length, form⟩
    obtain ⟨xs, hx, ys, ⟨rfl, size⟩, rfl⟩ := Language.mem_mul.1 form
    have counts := Wire.mem_count.2 ⟨length, size.symm, hx⟩
    exact Language.append_mem_mul counts rfl
  · intro form
    obtain ⟨xs, counts, ys, rfl, rfl⟩ := Language.mem_mul.1 form
    obtain ⟨length, size, hx⟩ := Wire.mem_count.1 counts
    exact ⟨length, Language.append_mem_mul hx ⟨rfl, size.symm⟩⟩

/-- Read the number that stands for a value. -/
def readNamed (decoder : Decoder LoadError β) (ofNumber? : β → Option α)
    (unknown : β → LoadError.Cause) : Decoder LoadError α := do
  let number ← decoder
  match ofNumber? number with
  | none => fail (unknown number)
  | some value => return value

theorem Reads.named {decoder : Decoder LoadError β} {forms : β → Language UInt8}
    {ofNumber? : β → Option α} (reads : decoder.Reads forms) (unknown : β → LoadError.Cause)
    (toNumber : α → β)
    (inverse : ∀ number value, ofNumber? number = some value ↔ number = toNumber value) :
    (readNamed decoder ofNumber? unknown).Reads fun value => forms (toNumber value) := by
  refine (reads.bind fun number => .ofOption (ofNumber? number)
    (fun missing => by rw [missing]; exact reads_fail _)
    fun value found => by rw [found]; exact reads_pure value).congr fun value => ?_
  ext bytes
  simp only [Language.mul_iSup, ← mul_assoc, Language.mem_iSup, mem_mul_provided, inverse]
  constructor
  · intro h
    obtain ⟨_, _, rfl, rfl, form⟩ := h
    exact form
  · intro form
    exact ⟨_, value, rfl, rfl, form⟩

/-- What follows a value that is named by a number. -/
theorem readNamed_bind (decoder : Decoder LoadError β) (ofNumber? : β → Option α)
    (unknown : β → LoadError.Cause) {γ : Type} (next : α → Decoder LoadError γ) :
    readNamed decoder ofNumber? unknown >>= next = decoder >>= fun number =>
      match ofNumber? number with
      | none => fail (unknown number)
      | some value => next value := by
  rw [readNamed, bind_assoc]
  refine bind_congr fun number => ?_
  cases ofNumber? number with
  | none => rfl
  | some value => rfl

theorem reads_readText (name : String) : (readText name).Reads (Wire.text Varint.forms) := by
  have same : readText name =
      readNamed (liftM readEmbedded) String.fromUTF8? fun _ => .invalidUtf8 name := by
    refine bind_congr fun bytes => ?_
    cases String.fromUTF8? bytes <;> rfl
  rw [same]
  exact reads_readEmbedded.lift.named _ String.toUTF8 fun _ _ => fromUTF8?_eq_some_iff

theorem reads_readFlags : readFlags.Reads (Wire.flags Varint.forms) := by
  have same : readFlags =
      readNamed (liftM readVarint) (fun bits => NodeFlags.ofNat? bits.toNat) .flagsOutOfRange := by
    refine bind_congr fun bits => ?_
    dsimp only
    cases NodeFlags.ofNat? bits.toNat <;> rfl
  rw [same]
  exact reads_readVarint.lift.named _ (fun flags : NodeFlags => flags.bits.toUInt32)
    fun _ _ => NodeFlags.ofNat?_eq_some_iff

theorem reads_readString (source : ByteArray) :
    (readString source).Reads (Wire.string Varint.forms source) := by
  refine (reads_readByte.lift.bind fun tag => .ite (reads_readLocation.lift.bind fun span =>
    .ofOption (Bytes.slice? source span.start.toNat (span.start.toNat + span.length.toNat))
      (fun missing => by dsimp only; rw [missing]; exact reads_fail _)
      fun part found => by dsimp only; rw [found]; exact reads_pure (ByteString.mk part))
    (.ite (reads_readEmbedded.lift.map ByteString.mk) (reads_fail _))).congr fun string => ?_
  ext bytes
  simp only [Language.mem_iSup, Wire.string, Language.mem_add]
  constructor
  · rintro ⟨tag, form⟩
    obtain ⟨xs, rfl, ys, hy, rfl⟩ := Language.mem_mul.1 form
    split at hy
    · next one =>
      simp only [Language.mul_iSup, ← mul_assoc, Language.mem_iSup, mem_mul_provided] at hy
      obtain ⟨span, _, rfl, inside, hy⟩ := hy
      exact Or.inl ⟨span, mem_provided_mul.2 ⟨inside, [tag], by rw [one]; rfl, ys, hy, rfl⟩⟩
    · split at hy
      · next two =>
        simp only [Language.mem_iSup, mem_provided_mul] at hy
        obtain ⟨part, rfl, hy⟩ := hy
        exact Or.inr ⟨[tag], by rw [two]; rfl, ys, hy, rfl⟩
      · exact absurd hy (Language.notMem_zero ys)
  · rintro (⟨span, form⟩ | form)
    · obtain ⟨inside, form⟩ := mem_provided_mul.1 form
      obtain ⟨xs, rfl, ys, hy, rfl⟩ := Language.mem_mul.1 form
      refine ⟨1, Language.append_mem_mul rfl ?_⟩
      simp only [if_true, Language.mul_iSup, ← mul_assoc, Language.mem_iSup, mem_mul_provided]
      exact ⟨span, string.bytes, rfl, inside, hy⟩
    · obtain ⟨xs, rfl, ys, hy, rfl⟩ := Language.mem_mul.1 form
      refine ⟨2, Language.append_mem_mul rfl ?_⟩
      rw [if_neg (by decide), if_pos rfl]
      simp only [Language.mem_iSup, mem_provided_mul]
      exact ⟨string.bytes, rfl, hy⟩

theorem announces_readWordCount : CountCheck.room.readWordCount.Announces 1 1 :=
  (CountCheck.demands_room 1).announces_readWordCount

theorem readInteger_eq :
    readInteger = (liftM readByte : Decoder LoadError UInt8) >>= fun sign =>
      (CountCheck.room.readWordCount >>= fun count => readMany count fun _ => liftM readVarint) >>=
        fun words => pure (if sign = 0 then (magnitude words : Int) else -magnitude words) :=
  CountCheck.room.readInteger_eq

theorem reads_readInteger : readInteger.Reads (Wire.integer Varint.forms) := by
  rw [readInteger_eq]
  refine (reads_readByte.lift.bind fun sign => (announces_readWordCount.reads
    (fun _ => reads_readVarint.lift) fun _ _ => Varint.length_pos_of_mem_forms).bind
    fun words => reads_pure _).congr fun value => ?_
  ext bytes
  simp only [Language.mul_iSup, ← mul_assoc, Language.mem_iSup, mem_mul_provided, Wire.integer]
  simp only [mul_assoc, mem_provided_mul]
  constructor
  · intro h
    obtain ⟨sign, words, same, form⟩ := h
    obtain ⟨xs, hx, ys, hy, rfl⟩ := Language.mem_mul.1 form
    obtain ⟨some, hy⟩ := mem_provided_mul.1 hy
    exact ⟨sign, words, ⟨List.length_pos_iff.1 some, same⟩, Language.append_mem_mul hx hy⟩
  · intro h
    obtain ⟨sign, words, ⟨some, same⟩, form⟩ := h
    obtain ⟨xs, hx, ys, hy, rfl⟩ := Language.mem_mul.1 form
    refine ⟨sign, words, same, Language.append_mem_mul hx ?_⟩
    exact mem_provided_mul.2 ⟨List.length_pos_iff.2 some, hy⟩

end Decoder

end PrismTree
