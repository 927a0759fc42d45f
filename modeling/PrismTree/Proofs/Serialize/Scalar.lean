import PrismTree.Proofs.Wire.Scalar

/-!
# Writing data

A serializer writes the shortest form of each number, embeds every string, and chooses the fewest
words for an integer. What it writes is one of the forms that are read back, unless it is so long
that a count or a length does not fit in 32 bits.
-/
namespace PrismTree

/-- Bytes are one of the forms, unless there are too many of them to be counted in 32 bits. -/
def FormIfShort (bytes : List UInt8) (forms : Language UInt8) : Prop :=
  bytes.length < 2 ^ 32 → bytes ∈ forms

namespace FormIfShort

variable {xs ys : List UInt8} {forms forms' : Language UInt8}

theorem of_mem (form : xs ∈ forms) : FormIfShort xs forms :=
  fun _ => form

theorem append (first : FormIfShort xs forms) (second : FormIfShort ys forms') :
    FormIfShort (xs ++ ys) (forms * forms') := by
  intro short
  rw [List.length_append] at short
  exact Language.append_mem_mul (first (by omega)) (second (by omega))

end FormIfShort

namespace Serialize

variable {α : Type}

/-- Write a count. -/
def count (n : Nat) : List UInt8 :=
  Varint.encode (UInt32.ofNat n)

/-- Write a counted list of items. -/
def list (item : α → List UInt8) (items : List α) : List UInt8 :=
  count items.length ++ items.flatMap item

/-- Write a span. -/
def location (span : Location) : List UInt8 :=
  Varint.encode span.start ++ Varint.encode span.length

/-- Write a span that may be absent. -/
def optionalLocation : Option Location → List UInt8
  | none => [0]
  | some span => [1] ++ location span

/-- Write bytes after their length. -/
def embedded (bytes : ByteArray) : List UInt8 :=
  count bytes.size ++ bytes.data.toList

/-- Write a text after its length. -/
def text (text : String) : List UInt8 :=
  embedded text.toUTF8

/-- The words of a magnitude, the lowest first; there is at least one. -/
def words (n : Nat) : List UInt32 :=
  if n < 2 ^ 32 then [UInt32.ofNat n] else UInt32.ofNat n :: words (n / 2 ^ 32)
termination_by n
decreasing_by exact Nat.div_lt_self (by omega) (by omega)

/-- Write an integer. -/
def integer (value : Int) : List UInt8 :=
  [if value < 0 then 1 else 0] ++ list Varint.encode (words value.natAbs)

theorem words_ne_nil (n : Nat) : words n ≠ [] := by
  unfold words
  split <;> exact List.cons_ne_nil _ _

theorem magnitude_words (n : Nat) : Decoder.magnitude (words n) = n := by
  fun_induction words n with
  | case1 n small =>
    simp only [Decoder.magnitude, UInt32.toNat_ofNat_of_lt' small, Nat.mul_zero, Nat.add_zero]
  | case2 n large ih =>
    rw [Decoder.magnitude, ih, UInt32.toNat_ofNat']
    exact Nat.mod_add_div n (2 ^ 32)

variable {varint : UInt32 → Language UInt8} (shortest : ∀ n, Varint.encode n ∈ varint n)

include shortest

theorem count_mem {n : Nat} (small : n < 2 ^ 32) : count n ∈ Wire.count varint n :=
  Wire.mem_count.2 ⟨UInt32.ofNat n, UInt32.toNat_ofNat_of_lt' small, shortest _⟩

theorem location_mem (span : Location) : location span ∈ Wire.location varint span :=
  Language.append_mem_mul (shortest _) (shortest _)

theorem optionalLocation_mem (span? : Option Location) :
    optionalLocation span? ∈ Wire.optionalLocation varint span? := by
  cases span? with
  | none => exact mem_spelling.2 rfl
  | some span =>
    refine mem_iSup_provided_mul.2 ⟨1, by decide, ?_⟩
    exact Language.append_mem_mul (mem_spelling.2 rfl) (location_mem shortest span)

theorem embedded_isForm (bytes : ByteArray) :
    FormIfShort (embedded bytes) (Wire.embedded varint bytes) := by
  intro short
  have size : bytes.data.toList.length = bytes.size := rfl
  rw [embedded, List.length_append, size] at short
  exact Language.append_mem_mul (count_mem shortest (by omega)) (mem_spelling.2 rfl)

theorem text_isForm (text : String) : FormIfShort (Serialize.text text) (Wire.text varint text) :=
  embedded_isForm shortest text.toUTF8

omit shortest in
theorem length_le_length_flatMap {item : α → List UInt8} {items : List α}
    (nonempty : ∀ value ∈ items, item value ≠ []) :
    items.length ≤ (items.flatMap item).length := by
  induction items with
  | nil => exact Nat.le_refl 0
  | cons value rest ih =>
    obtain ⟨first, others⟩ := List.forall_mem_cons.1 nonempty
    have one := List.length_pos_iff.2 first
    have more := ih others
    rw [List.flatMap_cons, List.length_append, List.length_cons]
    omega

omit shortest in
theorem flatMap_isForm {item : α → List UInt8} {forms : α → Language UInt8} {items : List α}
    (each : ∀ value ∈ items, FormIfShort (item value) (forms value)) :
    FormIfShort (items.flatMap item) (items.map forms).prod := by
  induction items with
  | nil => exact .of_mem (mem_spelling.2 rfl)
  | cons value rest ih =>
    obtain ⟨first, others⟩ := List.forall_mem_cons.1 each
    rw [List.flatMap_cons, List.map_cons, List.prod_cons]
    exact first.append (ih others)

/-- Items that take a byte at least are never more than there are bytes. -/
theorem list_isForm {item : α → List UInt8} {forms : α → Language UInt8} {items : List α}
    (nonempty : ∀ value ∈ items, item value ≠ [])
    (each : ∀ value ∈ items, FormIfShort (item value) (forms value)) :
    FormIfShort (list item items) (Wire.list varint forms items) := by
  intro short
  have enough := length_le_length_flatMap nonempty
  rw [list, List.length_append] at short
  exact Language.append_mem_mul (count_mem shortest (by omega))
    (flatMap_isForm each (by omega))

theorem integer_isForm (value : Int) :
    FormIfShort (integer value) (Wire.integer varint value) := by
  intro short
  have written : integer value ∈
      ({[if value < 0 then 1 else 0]} : Language UInt8) *
        Wire.list varint varint (words value.natAbs) :=
    FormIfShort.append (.of_mem (mem_spelling.2 rfl)) (list_isForm shortest
      (fun n _ => Varint.encode_ne_nil n) fun n _ => .of_mem (shortest n)) short
  refine Language.mem_iSup.2 ⟨_, mem_iSup_provided_mul.2
    ⟨words value.natAbs, ⟨words_ne_nil _, ?_⟩, written⟩⟩
  rw [magnitude_words]
  by_cases negative : value < 0
  · rw [if_pos negative, if_neg (by decide)]
    omega
  · rw [if_neg negative, if_pos rfl]
    omega

end Serialize

end PrismTree
