import PrismTree.Proofs.Constants.Table
import PrismTree.Proofs.Load.Success

/-!
# Constants resolved in any order

A pool keeps the texts of the constants that were resolved so far. What becomes of a reference does
not depend on them: after any calls, some of which may have failed, the next one ends as it would
with nothing kept. The invariant is that whatever is kept is what the constant spells, and that the
table of descriptors, once found to lie inside the buffer, stays where it is.
-/
namespace PrismTree

/-- Four bytes of a buffer are a word. -/
theorem exists_word_stands {buffer : ByteArray} {position : Nat}
    (inside : position + 4 ≤ buffer.size) :
    ∃ n : UInt32, StandsAt (Bytes.ofNat 4 n.toNat) buffer position := by
  have stands := standsAt_extract inside
  have four : (buffer.extract position (position + 4)).data.toList.length = 4 := by
    rw [Array.length_toList, ByteArray.size_data, ByteArray.size_extract]
    omega
  generalize (buffer.extract position (position + 4)).data.toList = bytes at stands four
  have small : Bytes.toNat bytes < 2 ^ 32 := by
    have bound := Bytes.toNat_lt bytes
    rwa [four] at bound
  have word : (UInt32.ofNat (Bytes.toNat bytes)).toNat = Bytes.toNat bytes :=
    UInt32.toNat_ofNat_of_lt' small
  refine ⟨UInt32.ofNat (Bytes.toNat bytes), ?_⟩
  rwa [word, Bytes.ofNat_toNat four]

namespace ConstantPool

variable {pool : ConstantPool} {serialized source : ByteArray} {id : ConstantId}
  {start length : UInt32} {position : Nat}

/-- The table of descriptors lies inside a buffer. -/
def IsInside (pool : ConstantPool) (serialized : ByteArray) : Prop :=
  pool.size * descriptorSize + pool.tableOffset ≤ serialized.size

/-- Every constant of a pool inside the buffer has a descriptor. -/
theorem IsInside.exists_descriptor (inside : pool.IsInside serialized)
    (listed : id.slot < pool.size) :
    ∃ start length, pool.HasDescriptor serialized id start length := by
  have room : pool.tableOffset + id.slot * descriptorSize + 8 ≤ serialized.size := by
    have last := Nat.mul_le_mul_right descriptorSize (Nat.succ_le_of_lt listed)
    rw [IsInside] at inside
    rw [Nat.succ_mul] at last
    have size : descriptorSize = 8 := rfl
    omega
  have first : pool.tableOffset + id.slot * descriptorSize + 4 ≤ serialized.size := by omega
  obtain ⟨start, starts⟩ := exists_word_stands first
  obtain ⟨length, lengths⟩ := exists_word_stands (show _ + 4 + 4 ≤ _ from room)
  refine ⟨start, length, standsAt_append.2 ⟨starts, ?_⟩⟩
  rwa [Bytes.length_ofNat]

/-- The text of a constant with this descriptor, given the bytes that it designates, or why there is
none: they have to be there, the encoding has to be known, and the bytes have to follow it. -/
def decode (encoding : Encoding) (id : ConstantId) (start length : UInt32) :
    Option ByteArray → Except LoadError.Cause String
  | none => .error (.constantOutOfBounds id.index start length)
  | some bytes =>
    match encoding with
    | .unsupported name => .error (.unsupportedEncoding name)
    | .utf8 =>
      match String.fromUTF8? bytes with
      | none => .error (.invalidUtf8 "constant")
      | some text => .ok text

/-- What the text of a constant comes to, from whatever position. -/
theorem readText_eq (described : pool.HasDescriptor serialized id start length) :
    (pool.readText source id).runFrom serialized position =
      match decode pool.encoding id start length (designated? serialized source start length) with
      | .ok text => .ok text position
      | .error cause => .error (.ofCause cause) position := by
  have descriptor : (liftM (pool.readDescriptor id) : Decoder LoadError _).runFrom serialized
      position = .ok (start, length) position :=
    (Decoder.mapError_eq_ok_iff _).2 (readDescriptor_eq_ok_iff.2 ⟨rfl, described⟩)
  rw [readText, Decoder.runFrom_bind, descriptor]
  simp only
  rw [Decoder.runFrom_bind, readBytes?_eq]
  cases designated? serialized source start length with
  | none => rfl
  | some bytes =>
    cases pool.encoding with
    | unsupported name => rfl
    | utf8 =>
      simp only [decode]
      cases String.fromUTF8? bytes <;> rfl

theorem decode_eq_ok_iff {encoding : Encoding} {bytes? : Option ByteArray} {text : String} :
    decode encoding id start length bytes? = .ok text ↔
      encoding = .utf8 ∧ bytes? = some text.toUTF8 := by
  cases bytes? with
  | none => simp [decode]
  | some bytes =>
    cases encoding with
    | unsupported name => simp [decode]
    | utf8 =>
      simp only [decode, true_and, Option.some_inj, ← fromUTF8?_eq_some_iff]
      cases String.fromUTF8? bytes <;> simp

/-- A constant has no text for three reasons. -/
theorem decode_eq_error {encoding : Encoding} {bytes? : Option ByteArray}
    {cause : LoadError.Cause} (failed : decode encoding id start length bytes? = .error cause) :
    cause = .constantOutOfBounds id.index start length ∨
      (∃ name, encoding = .unsupported name ∧ cause = .unsupportedEncoding name) ∨
      encoding = .utf8 ∧ cause = .invalidUtf8 "constant" := by
  cases bytes? with
  | none =>
    cases failed
    exact Or.inl rfl
  | some bytes =>
    cases encoding with
    | unsupported name =>
      cases failed
      exact Or.inr (Or.inl ⟨name, rfl, rfl⟩)
    | utf8 =>
      simp only [decode] at failed
      cases decoded : String.fromUTF8? bytes with
      | none =>
        rw [decoded] at failed
        cases failed
        exact Or.inr (Or.inr ⟨rfl, rfl⟩)
      | some text =>
        rw [decoded] at failed
        cases failed

/-- Number of constants with a text. -/
def filled (pool : ConstantPool) : Nat :=
  pool.slots.countP Option.isSome

theorem filled_keep {text : String} (listed : id.slot < pool.size)
    (missing : pool.kept? id = none) : (pool.keep id text).filled = pool.filled + 1 := by
  have inside : id.slot < pool.slots.size := listed
  have empty : pool.slots[id.slot] = none := by
    rw [kept?, constants, ConstantTable.get?, Array.getElem?_eq_getElem inside] at missing
    exact missing
  simp [filled, keep, Array.setIfInBounds, inside, Array.countP_set, empty]

/-- A pool that has resolved constants of a fresh one, and has changed in nothing else. -/
structure Memoises (pool fresh : ConstantPool) (serialized source : ByteArray) : Prop where
  same : TreeState.SamePool fresh pool
  faithful : pool.IsFaithful serialized source
  counted : pool.resolutions = pool.filled

theorem memoises_fresh {encoding : Encoding} {header : PoolHeader} :
    (fresh encoding header).Memoises (fresh encoding header) serialized source := by
  refine ⟨.refl _, isFaithful_fresh _ _, ?_⟩
  rw [filled, fresh, Array.countP_replicate]
  rfl

/-- What is kept is what would be read. -/
theorem IsFaithful.decode_eq {text : String} (faithful : pool.IsFaithful serialized source)
    (described : pool.HasDescriptor serialized id start length) (kept : pool.kept? id = some text) :
    decode pool.encoding id start length (designated? serialized source start length) =
      .ok text := by
  obtain ⟨known, start', length', described', designated⟩ := faithful id text kept
  obtain ⟨rfl, rfl⟩ := described.unique described'
  exact decode_eq_ok_iff.2 ⟨known, designated⟩

end ConstantPool

namespace TreeDecoder

variable {α : Type} {input : TreeInput} {state : TreeState} {id : ConstantId} {index : UInt32}
  {start length : UInt32}

/-- What a decoder comes to. -/
def value (decoder : TreeDecoder α) (input : TreeInput) (state : TreeState) : Except LoadError α :=
  match decoder input state with
  | .ok value _ => .ok value
  | .error error _ => .error error

/-- The state that a decoder leaves, whether it fails or not. -/
def after (decoder : TreeDecoder α) (input : TreeInput) (state : TreeState) : TreeState :=
  match decoder input state with
  | .ok _ reached => reached
  | .error _ reached => reached

/-- An index that the pool does not have. -/
theorem resolveConstant_of_none (missing : state.pool.id? index = none) :
    resolveConstant index input state =
      .error (.ofCause (.constantIndexOutOfRange index state.pool.size)) state := by
  simp only [resolveConstant, bind, TreeDecoder.bind, pool, missing]
  rfl

/-- A text that is kept is not read again. -/
theorem resolveConstant_of_kept {text : String} (found : state.pool.id? index = some id)
    (kept : state.pool.kept? id = some text) :
    resolveConstant index input state = .ok id state := by
  have resolved : state.pool.isResolved id = true := by
    rw [ConstantPool.isResolved_eq, kept]
    rfl
  simp only [resolveConstant, bind, TreeDecoder.bind, pool, found, resolved, if_true]
  rfl

/-- A text that is not kept is read, and kept if there is one. -/
theorem resolveConstant_of_missing (found : state.pool.id? index = some id)
    (described : state.pool.HasDescriptor input.serialized id start length)
    (missing : state.pool.kept? id = none) :
    resolveConstant index input state =
      match ConstantPool.decode state.pool.encoding id start length
        (ConstantPool.designated? input.serialized input.source start length) with
      | .ok text => .ok id ⟨state.position, state.pool.keep id text,
        state.trace.push (.constantResolved id.index text)⟩
      | .error cause => .error (.ofCause cause) state := by
  have unresolved : state.pool.isResolved id = false := by
    rw [ConstantPool.isResolved_eq, missing]
    rfl
  simp only [resolveConstant, bind_apply, pool, found, unresolved]
  rw [if_neg Bool.false_ne_true, bind_apply]
  simp only [TreeDecoder.input]
  rw [bind_apply, liftM_apply, ConstantPool.readText_eq described]
  cases ConstantPool.decode state.pool.encoding id start length
      (ConstantPool.designated? input.serialized input.source start length) with
  | ok text => rfl
  | error cause => rfl

/-- A reference comes to what its descriptor tells, whether its text is kept or not. -/
theorem value_resolveConstant (found : state.pool.id? index = some id)
    (described : state.pool.HasDescriptor input.serialized id start length)
    (faithful : state.pool.IsFaithful input.serialized input.source) :
    (resolveConstant index).value input state =
      ((ConstantPool.decode state.pool.encoding id start length
        (ConstantPool.designated? input.serialized input.source start length)).map
          fun _ => id).mapError .ofCause := by
  unfold value
  cases kept : state.pool.kept? id with
  | some text =>
    rw [resolveConstant_of_kept found kept, faithful.decode_eq described kept]
    rfl
  | none =>
    rw [resolveConstant_of_missing found described kept]
    cases ConstantPool.decode state.pool.encoding id start length
      (ConstantPool.designated? input.serialized input.source start length) <;> rfl

/-- A reference that fails leaves everything as it was. -/
theorem state_of_resolveConstant_error (inside : state.pool.IsInside input.serialized)
    {error : LoadError} {reached : TreeState}
    (failed : resolveConstant index input state = .error error reached) : reached = state := by
  cases found : state.pool.id? index with
  | none =>
    rw [resolveConstant_of_none found] at failed
    cases failed
    rfl
  | some id =>
    obtain ⟨start, length, described⟩ :=
      inside.exists_descriptor (ConstantPool.id?_eq_some_iff.1 found).2
    cases kept : state.pool.kept? id with
    | some text =>
      rw [resolveConstant_of_kept found kept] at failed
      cases failed
    | none =>
      rw [resolveConstant_of_missing found described kept] at failed
      split at failed
      · cases failed
      · cases failed
        rfl

/-- What a call does to the state: it fails and does nothing, or follows the reference. -/
theorem after_resolveConstant (index : UInt32) (inside : state.pool.IsInside input.serialized) :
    (∃ error, (resolveConstant index).value input state = .error error ∧
      (resolveConstant index).after input state = state) ∨
    ∃ id, id.index = index ∧ (resolveConstant index).value input state = .ok id ∧
      state.refer? input id = some ((resolveConstant index).after input state) := by
  unfold value after
  cases run : resolveConstant index input state with
  | error error reached =>
    exact Or.inl ⟨error, rfl, state_of_resolveConstant_error inside run⟩
  | ok id reached =>
    obtain ⟨same, follows⟩ := resolveConstant_eq_ok_iff.1 run
    exact Or.inr ⟨id, same, rfl, follows⟩

end TreeDecoder

namespace ConstantPool.Memoises

variable {fresh : ConstantPool} {input : TreeInput} {state state' : TreeState} {id : ConstantId}
  {index : UInt32}

theorem isInside {pool : ConstantPool} {serialized source : ByteArray}
    (memo : pool.Memoises fresh serialized source) (inside : fresh.IsInside serialized) :
    pool.IsInside serialized := by
  rw [IsInside, memo.same.size, memo.same.tableOffset]
  exact inside

/-- A reference that is followed fills one slot, or finds it filled. -/
theorem of_refer? (memo : state.pool.Memoises fresh input.serialized input.source)
    (run : state.refer? input id = some state') :
    state'.pool.Memoises fresh input.serialized input.source := by
  refine ⟨memo.same.trans (TreeState.samePool_of_refer? run),
    TreeState.isFaithful_of_refer? run memo.faithful, ?_⟩
  obtain ⟨listed, ⟨-, rfl⟩ | ⟨missing, text, -, -, rfl⟩⟩ := TreeState.refer?_eq_some_iff.1 run
  · exact memo.counted
  · show state.pool.resolutions + 1 = (state.pool.keep id text).filled
    rw [filled_keep listed missing, memo.counted]

theorem of_call (memo : state.pool.Memoises fresh input.serialized input.source)
    (inside : fresh.IsInside input.serialized) (index : UInt32) :
    ((TreeDecoder.resolveConstant index).after input state).pool.Memoises fresh input.serialized
      input.source := by
  obtain ⟨-, -, unchanged⟩ | ⟨id, -, -, run⟩ :=
    TreeDecoder.after_resolveConstant index (memo.isInside inside)
  · rw [unchanged]
    exact memo
  · exact memo.of_refer? run

theorem id?_eq (memo : state.pool.Memoises fresh input.serialized input.source) :
    state.pool.id? index = fresh.id? index := by
  rw [id?, id?, memo.same.size]

/-- An index outside the pool is refused, whatever is kept. -/
theorem value_of_none (memo : state.pool.Memoises fresh input.serialized input.source)
    (missing : fresh.id? index = none) :
    (TreeDecoder.resolveConstant index).value input state =
      .error (.ofCause (.constantIndexOutOfRange index fresh.size)) := by
  unfold TreeDecoder.value
  rw [TreeDecoder.resolveConstant_of_none (memo.id?_eq.trans missing), memo.same.size]

/-- Any other index comes to what its descriptor tells, whatever is kept. -/
theorem value_of_some (memo : state.pool.Memoises fresh input.serialized input.source)
    (found : fresh.id? index = some id) {start length : UInt32}
    (described : fresh.HasDescriptor input.serialized id start length) :
    (TreeDecoder.resolveConstant index).value input state =
      ((decode fresh.encoding id start length
        (designated? input.serialized input.source start length)).map
          fun _ => id).mapError .ofCause := by
  have here : state.pool.HasDescriptor input.serialized id start length := by
    rw [HasDescriptor, memo.same.tableOffset]
    exact described
  rw [TreeDecoder.value_resolveConstant (memo.id?_eq.trans found) here memo.faithful,
    memo.same.encoding]

/-- What a call comes to does not depend on what was resolved before. -/
theorem value_eq (memo : state.pool.Memoises fresh input.serialized input.source)
    (memo' : state'.pool.Memoises fresh input.serialized input.source)
    (inside : fresh.IsInside input.serialized) :
    (TreeDecoder.resolveConstant index).value input state =
      (TreeDecoder.resolveConstant index).value input state' := by
  cases found : fresh.id? index with
  | none => rw [memo.value_of_none found, memo'.value_of_none found]
  | some id =>
    obtain ⟨start, length, described⟩ :=
      inside.exists_descriptor (id?_eq_some_iff.1 found).2
    rw [memo.value_of_some found described, memo'.value_of_some found described]

/-- There are four reasons for which a call fails, and no read is among them. -/
theorem failure (memo : state.pool.Memoises fresh input.serialized input.source)
    (inside : fresh.IsInside input.serialized) {error : LoadError}
    (failed : (TreeDecoder.resolveConstant index).value input state = .error error) :
    (fresh.id? index = none ∧
        error = .ofCause (.constantIndexOutOfRange index fresh.size)) ∨
      (∃ start length, error = .ofCause (.constantOutOfBounds index start length)) ∨
      (∃ name, fresh.encoding = .unsupported name ∧
        error = .ofCause (.unsupportedEncoding name)) ∨
      fresh.encoding = .utf8 ∧ error = .ofCause (.invalidUtf8 "constant") := by
  cases found : fresh.id? index with
  | none =>
    rw [memo.value_of_none found] at failed
    cases failed
    exact Or.inl ⟨rfl, rfl⟩
  | some id =>
    obtain ⟨rfl, listed⟩ := id?_eq_some_iff.1 found
    obtain ⟨start, length, described⟩ := inside.exists_descriptor listed
    rw [memo.value_of_some found described] at failed
    cases decoded : decode fresh.encoding id start length
        (designated? input.serialized input.source start length) with
    | ok text =>
      rw [decoded] at failed
      cases failed
    | error cause =>
      rw [decoded] at failed
      cases failed
      obtain rfl | ⟨name, unknown, rfl⟩ | ⟨known, rfl⟩ := decode_eq_error decoded
      · exact Or.inr (Or.inl ⟨start, length, rfl⟩)
      · exact Or.inr (Or.inr (Or.inl ⟨name, unknown, rfl⟩))
      · exact Or.inr (Or.inr (Or.inr ⟨known, rfl⟩))

/-- Whatever was resolved before, a call that succeeds leaves the same text in its slot. -/
theorem kept?_eq (memo : state.pool.Memoises fresh input.serialized input.source)
    (memo' : state'.pool.Memoises fresh input.serialized input.source)
    (inside : fresh.IsInside input.serialized)
    (called : (TreeDecoder.resolveConstant index).value input state = .ok id) :
    id.index = index ∧ ∃ text,
      ((TreeDecoder.resolveConstant index).after input state).pool.kept? id = some text ∧
      ((TreeDecoder.resolveConstant index).after input state').pool.kept? id = some text := by
  have keeps : ∀ state : TreeState, state.pool.Memoises fresh input.serialized input.source →
      (TreeDecoder.resolveConstant index).value input state = .ok id →
      id.index = index ∧ ∃ text,
        ((TreeDecoder.resolveConstant index).after input state).pool.kept? id = some text ∧
        fresh.Spells input.serialized input.source id text := by
    intro state memo called
    obtain ⟨error, failed, -⟩ | ⟨id', same, value, run⟩ :=
      TreeDecoder.after_resolveConstant index (memo.isInside inside)
    · rw [called] at failed
      cases failed
    · rw [called] at value
      cases value
      obtain ⟨text, kept⟩ := Option.isSome_iff_exists.1 (TreeState.kept?_of_refer? run).1
      have after := memo.of_refer? run
      exact ⟨same, text, kept, after.same.spells_iff.1 (after.faithful id text kept).2⟩
  obtain ⟨same, text, kept, spells⟩ := keeps state memo called
  obtain ⟨-, text', kept', spells'⟩ := keeps state' memo' (memo.value_eq memo' inside ▸ called)
  obtain rfl := spells.unique spells'
  exact ⟨same, text, kept, kept'⟩

/-- A call succeeds and leaves a text in its slot if this is the text that the descriptor tells. -/
theorem keeps_iff (memo : state.pool.Memoises fresh input.serialized input.source)
    (inside : fresh.IsInside input.serialized) (found : fresh.id? index = some id)
    {start length : UInt32}
    (described : fresh.HasDescriptor input.serialized id start length) (text : String) :
    (TreeDecoder.resolveConstant index).value input state = .ok id ∧
        ((TreeDecoder.resolveConstant index).after input state).pool.kept? id = some text ↔
      decode fresh.encoding id start length
        (designated? input.serialized input.source start length) = .ok text := by
  have after := memo.of_call inside index
  have told := memo.value_of_some found described
  constructor
  · rintro ⟨-, kept⟩
    obtain ⟨known, spells⟩ := after.faithful id text kept
    obtain ⟨start', length', described', designated⟩ := after.same.spells_iff.1 spells
    obtain ⟨rfl, rfl⟩ := described.unique described'
    exact decode_eq_ok_iff.2 ⟨after.same.encoding.symm.trans known, designated⟩
  · intro decoded
    have value : (TreeDecoder.resolveConstant index).value input state = .ok id := by
      rw [told, decoded]
      rfl
    obtain ⟨-, text', kept, -⟩ := memo.kept?_eq memo inside value
    obtain ⟨-, spells⟩ := after.faithful id text' kept
    have spelled : fresh.Spells input.serialized input.source id text :=
      ⟨start, length, described, (decode_eq_ok_iff.1 decoded).2⟩
    obtain rfl := (after.same.spells_iff.1 spells).unique spelled
    exact ⟨value, kept⟩

end ConstantPool.Memoises

namespace TreeState

variable {fresh : ConstantPool} {input : TreeInput} {state : TreeState}

/-- The state after calls for constants, each from a position of its own; a call that fails is
followed by the next one all the same. -/
def afterCalls (input : TreeInput) (state : TreeState) (calls : List (Nat × UInt32)) : TreeState :=
  calls.foldl (fun state call =>
    (TreeDecoder.resolveConstant call.2).after input (state.moveTo call.1)) state

theorem memoises_afterCalls (memo : state.pool.Memoises fresh input.serialized input.source)
    (inside : fresh.IsInside input.serialized) (calls : List (Nat × UInt32)) :
    (state.afterCalls input calls).pool.Memoises fresh input.serialized input.source := by
  induction calls generalizing state with
  | nil => exact memo
  | cons call calls ih =>
    have moved : (state.moveTo call.1).pool.Memoises fresh input.serialized input.source := memo
    exact ih (moved.of_call inside call.2)

/-- A pool that was placed inside the buffer memoises itself, whatever calls are made on it. -/
theorem memoises_of_placed {encoding : Encoding} {header : PoolHeader}
    {first : TreeState} (input : TreeInput)
    (placed : ConstantPool.ofHeader encoding input.serialized.size header = .ok fresh)
    (unused : first.pool = fresh) (calls : List (Nat × UInt32)) (position : Nat) :
    fresh.encoding = encoding ∧ fresh.IsInside input.serialized ∧
      ((first.afterCalls input calls).moveTo position).pool.Memoises fresh input.serialized
        input.source := by
  obtain ⟨rfl, room⟩ := ConstantPool.ofHeader_eq_ok_iff.1 placed
  have inside : (ConstantPool.fresh encoding header).IsInside input.serialized := by
    rw [ConstantPool.IsInside, ConstantPool.size_fresh]
    exact room
  have start : first.pool.Memoises (.fresh encoding header) input.serialized input.source := by
    rw [unused]
    exact ConstantPool.memoises_fresh
  exact ⟨rfl, inside, memoises_afterCalls start inside calls⟩

end TreeState

namespace TreeState

variable {input : TreeInput} {state state' : TreeState} {id : ConstantId} {slot : Nat}

/-- A reference changes no slot but its own. -/
theorem slots_of_refer? (run : state.refer? input id = some state') (other : slot ≠ id.slot) :
    state'.pool.slots[slot]? = state.pool.slots[slot]? := by
  obtain ⟨-, ⟨-, rfl⟩ | ⟨-, text, -, -, rfl⟩⟩ := refer?_eq_some_iff.1 run
  · rfl
  · exact Array.getElem?_setIfInBounds_ne other.symm

/-- A reference changes no slot that is filled. -/
theorem filled_of_refer? (run : state.refer? input id = some state') {text : String}
    (filled : state.pool.slots[slot]? = some (some text)) :
    state'.pool.slots[slot]? = some (some text) := by
  by_cases own : slot = id.slot
  · subst own
    have kept : state.pool.kept? id = some text := ConstantTable.get?_eq_some_iff.2 filled
    exact ConstantTable.get?_eq_some_iff.1 (kept?_stays_of_refer? run kept)
  · rw [slots_of_refer? run own, filled]

/-- What a call leaves as it was. -/
theorem unchanged_by_call (index : UInt32) (inside : state.pool.IsInside input.serialized) :
    let after := (TreeDecoder.resolveConstant index).after input state
    after.position = state.position ∧
    (∀ error, (TreeDecoder.resolveConstant index).value input state = .error error →
      after.pool = state.pool) ∧
    (∀ slot : Nat, slot + 1 ≠ index.toNat → after.pool.slots[slot]? = state.pool.slots[slot]?) ∧
    ∀ (slot : Nat) (text : String), state.pool.slots[slot]? = some (some text) →
      after.pool.slots[slot]? = some (some text) := by
  intro after
  obtain ⟨error, -, same⟩ | ⟨id, rfl, value, run⟩ :=
    TreeDecoder.after_resolveConstant index inside
  · have nothing : after = state := same
    rw [nothing]
    exact ⟨rfl, fun _ _ => rfl, fun _ _ => rfl, fun _ _ filled => filled⟩
  · refine ⟨position_of_refer? run, fun error failed => ?_, fun slot other => ?_,
      fun slot text => filled_of_refer? run⟩
    · rw [value] at failed
      cases failed
    · refine slots_of_refer? run fun own => other ?_
      rw [own, id.slot_add_one]

end TreeState

theorem ConstantPool.id?_eq_none_iff {pool : ConstantPool} {index : UInt32} :
    pool.id? index = none ↔ index = 0 ∨ pool.size < index.toNat := by
  rw [Option.eq_none_iff_forall_ne_some]
  constructor
  · intro missing
    by_cases zero : index = 0
    · exact Or.inl zero
    · refine Or.inr (Nat.lt_of_not_le fun inside => missing ⟨index, zero⟩ ?_)
      have next : _ + 1 = index.toNat := ConstantId.slot_add_one ⟨index, zero⟩
      exact id?_eq_some_iff.2 ⟨rfl, by omega⟩
  · rintro outside id found
    obtain ⟨rfl, listed⟩ := id?_eq_some_iff.1 found
    have next := id.slot_add_one
    obtain zero | beyond := outside
    · exact id.index_ne_zero zero
    · omega

/-- After any calls on a pool that was placed inside the buffer, one more call ends as on the pool
with nothing resolved. It keeps the position and every slot but its own, and the reads of a
descriptor never fail. -/
theorem resolve_after_calls {encoding : Encoding} {header : PoolHeader}
    {serialized : ByteArray} {fresh : ConstantPool}
    (placed : ConstantPool.ofHeader encoding serialized.size header = .ok fresh)
    (source : ByteArray) (options : LoadOptions) (start : TreeState) (unused : start.pool = fresh)
    (calls : List (Nat × UInt32)) (position : Nat) (index : UInt32) :
    let input : TreeInput := ⟨serialized, source, options⟩
    let before := (start.afterCalls input calls).moveTo position
    let value := (TreeDecoder.resolveConstant index).value input before
    let after := (TreeDecoder.resolveConstant index).after input before
    (∀ first : TreeState, first.pool = fresh →
      value = (TreeDecoder.resolveConstant index).value input first ∧
      ∀ id, value = .ok id → id.index = index ∧ ∃ text, after.pool.kept? id = some text ∧
        ((TreeDecoder.resolveConstant index).after input first).pool.kept? id = some text) ∧
    after.position = position ∧
    (∀ error, value = .error error → after.pool = before.pool) ∧
    (∀ slot : Nat, slot + 1 ≠ index.toNat →
      after.pool.slots[slot]? = before.pool.slots[slot]?) ∧
    (∀ (slot : Nat) (text : String), before.pool.slots[slot]? = some (some text) →
      after.pool.slots[slot]? = some (some text)) ∧
    after.pool.slots.size = header.count.toNat ∧
    after.pool.resolutions = after.pool.slots.countP Option.isSome ∧
    (value = .error (.ofCause (.constantIndexOutOfRange index header.count.toNat)) ↔
      index = 0 ∨ header.count < index) ∧
    (∀ error, value = .error error →
      error = .ofCause (.constantIndexOutOfRange index header.count.toNat) ∨
      (∃ start length, error = .ofCause (.constantOutOfBounds index start length)) ∨
      (∃ name, encoding = .unsupported name ∧ error = .ofCause (.unsupportedEncoding name)) ∨
      encoding = .utf8 ∧ error = .ofCause (.invalidUtf8 "constant")) ∧
    ∀ id, fresh.id? index = some id → ∃ start length,
      fresh.HasDescriptor serialized id start length ∧
      value = ((ConstantPool.decode encoding id start length
        (ConstantPool.designated? serialized source start length)).map
          fun _ => id).mapError .ofCause := by
  obtain ⟨rfl, inside⟩ := ConstantPool.ofHeader_eq_ok_iff.1 placed
  intro input before value after
  have size : (ConstantPool.fresh encoding header).size = header.count.toNat :=
    ConstantPool.size_fresh
  have room : (ConstantPool.fresh encoding header).IsInside serialized := by
    rw [ConstantPool.IsInside, size]
    exact inside
  have unresolved : ∀ first : TreeState, first.pool = .fresh encoding header →
      first.pool.Memoises (.fresh encoding header) serialized source := by
    intro first unused
    rw [unused]
    exact ConstantPool.memoises_fresh
  have memo : before.pool.Memoises (.fresh encoding header) serialized source :=
    @TreeState.memoises_afterCalls _ input start (unresolved start unused) room calls
  have memo' : after.pool.Memoises (.fresh encoding header) serialized source :=
    @ConstantPool.Memoises.of_call _ input before memo room index
  obtain ⟨still, failed, others, stays⟩ :=
    @TreeState.unchanged_by_call input before index (memo.isInside room)
  refine ⟨fun first unused => ?_, still, failed, others, stays, ?_, memo'.counted, ?_,
    fun error called => ?_, fun id found => ?_⟩
  · have memoFirst := unresolved first unused
    exact ⟨memo.value_eq memoFirst room, fun id => memo.kept?_eq memoFirst room⟩
  · exact memo'.same.size.trans size
  · rw [← size, UInt32.lt_iff_toNat_lt, ← size, ← ConstantPool.id?_eq_none_iff]
    constructor
    · intro called
      obtain ⟨missing, -⟩ | ⟨_, _, ⟨⟩⟩ | ⟨_, _, ⟨⟩⟩ | ⟨_, ⟨⟩⟩ := memo.failure room called
      exact missing
    · intro missing
      exact memo.value_of_none missing
  · obtain ⟨-, outside⟩ | others := memo.failure room called
    · exact Or.inl (size ▸ outside)
    · exact Or.inr others
  · obtain ⟨start, length, described⟩ :=
      room.exists_descriptor (ConstantPool.id?_eq_some_iff.1 found).2
    exact ⟨start, length, described, memo.value_of_some found described⟩

/-- A table of three constants: the source spells the first, the second lies outside the buffer, and
the buffer spells the third. -/
def threeConstants : ByteArray :=
  ⟨#[0, 0, 0, 0, 3, 0, 0, 0, 100, 0, 0, 128, 1, 0, 0, 0, 24, 0, 0, 128, 2, 0, 0, 0, 111, 107]⟩

theorem resolve_after_calls_threeConstants :
    let input : TreeInput := ⟨threeConstants, ⟨#[102, 111, 111]⟩, {}⟩
    let start : TreeState := ⟨0, .fresh .utf8 ⟨0, 3⟩, #[]⟩
    let before := start.afterCalls input [(0, 1), (5, 2), (9, 7), (1, 3), (2, 1)]
    ConstantPool.ofHeader .utf8 threeConstants.size ⟨0, 3⟩ = .ok start.pool ∧
      before.pool.resolutions = 2 ∧
      (TreeDecoder.resolveConstant 2).value input (before.moveTo 7) =
        (TreeDecoder.resolveConstant 2).value input start := by
  intro input start before
  have placed : ConstantPool.ofHeader .utf8 threeConstants.size ⟨0, 3⟩ = .ok start.pool := by
    rw [ConstantPool.ofHeader_eq_ok_iff]
    exact ⟨rfl, by decide⟩
  have counted : before.pool.resolutions = 2 := by decide +kernel
  have next := resolve_after_calls placed input.source input.options start rfl
    [(0, 1), (5, 2), (9, 7), (1, 3), (2, 1)] 7 2
  exact ⟨placed, counted, (next.1 start rfl).1⟩

end PrismTree
