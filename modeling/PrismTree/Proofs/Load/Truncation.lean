import PrismTree.Proofs.Load.Unread

/-!
# Truncated buffers

What a load has read in front of the tree, it reads again in every longer buffer that begins in the
same way. So a buffer and its beginnings agree on where the pool lies, and a beginning that is too
short for the pool, or for the preamble itself, cannot be loaded.
-/
namespace PrismTree

variable {serialized front tail source source' : ByteArray} {options options' : LoadOptions}
  {result : ParseResult}

/-- A loadable buffer has room for its preamble and for its pool. -/
theorem exists_preamble_of_load (loaded : load serialized source options = .ok result) :
    ∃ preamble stop, Decoder.readPreamble.runFrom serialized 0 = .ok preamble stop ∧
      stop ≤ serialized.size ∧
      preamble.pool.offset.toNat + 8 * preamble.pool.count.toNat ≤ serialized.size := by
  obtain ⟨preamble, stop, run, room, -⟩ := load_eq_ok_iff.1 loaded
  obtain ⟨bytes, -, stands, rfl⟩ :=
    (Decoder.reads_readPreamble serialized 0 (Nat.zero_le _) preamble stop).1 run
  refine ⟨preamble, _, run, stands.add_length_le, ?_⟩
  rw [ConstantPool.descriptorSize] at room
  omega

/-- Whatever is put behind a loadable buffer, the preamble stays the same. -/
theorem exists_preamble_of_load_append (loaded : load front source options = .ok result)
    (tail : ByteArray) :
    ∃ preamble stop, Decoder.readPreamble.runFrom (front ++ tail) 0 = .ok preamble stop ∧
      stop ≤ front.size ∧
      preamble.pool.offset.toNat + 8 * preamble.pool.count.toNat ≤ front.size := by
  obtain ⟨preamble, stop, run, inside, room⟩ := exists_preamble_of_load loaded
  have agrees : AgreesOn Set.univ front (front ++ tail) := .append tail
  have same := Decoder.reads_readPreamble.of_agrees (Nat.zero_le _) run agrees (Set.subset_univ _)
  exact ⟨preamble, stop, same, inside, room⟩

/-- No truncation of a loadable buffer can be loaded, with whatever source and options: neither a
beginning that is shorter than the preamble nor one that is shorter than the end of the pool. -/
theorem load_truncated (loaded : load serialized source options = .ok result) :
    ∃ preamble stop, Decoder.readPreamble.runFrom serialized 0 = .ok preamble stop ∧
      ∀ front tail, serialized = front ++ tail →
        front.size < stop ∨
          front.size < preamble.pool.offset.toNat + 8 * preamble.pool.count.toNat →
        ∀ source' options', ∃ error, load front source' options' = .error error := by
  obtain ⟨preamble, stop, run, -⟩ := exists_preamble_of_load loaded
  refine ⟨preamble, stop, run, ?_⟩
  rintro front tail rfl short source' options'
  cases truncated : load front source' options' with
  | error error => exact ⟨error, rfl⟩
  | ok result' =>
    -- the preamble of the beginning is that of the whole, so the whole tells how much is needed
    obtain ⟨preamble', stop', run', inside, room⟩ := exists_preamble_of_load_append truncated tail
    rw [run, EStateM.Result.ok.injEq] at run'
    obtain ⟨rfl, rfl⟩ := run'
    omega

/-- The descriptor of the only constant ends the buffer, so no beginning of it is enough. -/
theorem load_truncated_singleConstant :
    ∃ result, load singleConstant ⟨#[65]⟩ = .ok result ∧
      ∀ front tail, singleConstant = front ++ tail → front.size < singleConstant.size →
        ∃ error, load front ⟨#[65]⟩ = .error error := by
  have pool : (match Decoder.readPreamble.runFrom singleConstant 0 with
      | .ok preamble _ => some preamble.pool
      | .error _ _ => none) = some ⟨34, 1⟩ := by
    decide +kernel
  have loads : (load singleConstant ⟨#[65]⟩).toOption.isSome := by decide +kernel
  cases loaded : load singleConstant ⟨#[65]⟩ with
  | error error =>
    rw [loaded] at loads
    cases loads
  | ok result =>
    obtain ⟨preamble, stop, run, truncated⟩ := load_truncated loaded
    rw [run] at pool
    have placed : preamble.pool = ⟨34, 1⟩ := Option.some.inj pool
    refine ⟨result, rfl, fun front tail whole short => ?_⟩
    refine truncated front tail whole (Or.inr ?_) _ _
    rw [placed]
    exact short

end PrismTree
