import Mathlib.Order.Bounds.Basic
import PrismTree.Source

/-!
# Lines of a source

The search for a line halves a range of lines. What carries it is that no line behind the range
starts at or before the offset, while the line at the front of the range does, or is the first of
all. In an ascending table the line that is left at the end is the last one that starts at or before
the offset, the one that a scan of the whole table would find.
-/
namespace PrismTree

namespace Source

section Search

variable {lineOffsets : Array UInt32} {offset start : UInt32} {index base size : Nat}

theorem startsBy_iff :
    startsBy lineOffsets offset index = true ↔
      ∃ start, lineOffsets[index]? = some start ∧ start ≤ offset := by
  unfold startsBy
  cases lineOffsets[index]? <;> simp

/-- The offsets of the line starts do not descend. -/
def IsAscending (lineOffsets : Array UInt32) : Prop :=
  lineOffsets.toList.Pairwise (· ≤ ·)

instance (lineOffsets : Array UInt32) : Decidable (IsAscending lineOffsets) :=
  inferInstanceAs (Decidable (lineOffsets.toList.Pairwise (· ≤ ·)))

variable (ascending : IsAscending lineOffsets)

include ascending

theorem IsAscending.le {index' : Nat} {start' : UInt32} (le : index ≤ index')
    (here : lineOffsets[index]? = some start) (there : lineOffsets[index']? = some start') :
    start ≤ start' := by
  rw [← Array.getElem?_toList] at here there
  obtain less | rfl := Nat.lt_or_eq_of_le le
  · obtain ⟨inside, rfl⟩ := List.getElem?_eq_some_iff.1 here
    obtain ⟨inside', rfl⟩ := List.getElem?_eq_some_iff.1 there
    exact List.pairwise_iff_getElem.1 ascending index index' inside inside' less
  · rw [here] at there
    exact UInt32.le_of_eq (Option.some.inj there)

/-- Lines in front of one that starts by an offset start by it as well. -/
theorem IsAscending.startsBy_of_le {index' : Nat} (le : index ≤ index')
    (later : startsBy lineOffsets offset index' = true) :
    startsBy lineOffsets offset index = true := by
  obtain ⟨start', there, by_offset⟩ := startsBy_iff.1 later
  obtain ⟨inside, -⟩ := Array.getElem?_eq_some_iff.1 there
  have here := Array.getElem?_eq_getElem (Nat.lt_of_le_of_lt le inside)
  exact startsBy_iff.2 ⟨_, here, UInt32.le_trans (ascending.le le here there) by_offset⟩

/-- The search leaves a line that starts by the offset, or the first line, and no later one starts
by it. -/
theorem IsAscending.searchLine_spec
    (front : base = 0 ∨ startsBy lineOffsets offset base = true)
    (behind : ∀ index, base + size ≤ index → startsBy lineOffsets offset index = false) :
    (searchLine lineOffsets offset base size = 0 ∨
        startsBy lineOffsets offset (searchLine lineOffsets offset base size) = true) ∧
      ∀ index, searchLine lineOffsets offset base size < index →
        startsBy lineOffsets offset index = false := by
  fun_induction searchLine lineOffsets offset base size with
  | case1 base size many half middle ih =>
    by_cases starts : startsBy lineOffsets offset middle = true
    · rw [if_pos starts]
      rw [dif_pos starts] at ih
      refine ih (Or.inr starts) fun index after => behind index ?_
      omega
    · rw [if_neg starts]
      rw [dif_neg starts] at ih
      refine ih front fun index after => Bool.eq_false_iff.2 fun later => starts ?_
      exact ascending.startsBy_of_le (show middle ≤ index by omega) later
  | case2 base size few =>
    exact ⟨front, fun index after => behind index (by omega)⟩

/-- The lines that start by an offset are the first ones, as many as the search has counted. -/
theorem IsAscending.startsBy_iff_lt_linesBy :
    startsBy lineOffsets offset index = true ↔ index < linesBy lineOffsets offset := by
  have outside : ∀ index, 0 + lineOffsets.size ≤ index →
      startsBy lineOffsets offset index = false := by
    intro index after
    rw [Nat.zero_add] at after
    rw [startsBy, Array.getElem?_eq_none after]
  have first : 0 = 0 ∨ startsBy lineOffsets offset 0 = true := Or.inl rfl
  obtain ⟨found, later⟩ := ascending.searchLine_spec first outside
  rw [linesBy]
  generalize searchLine lineOffsets offset 0 lineOffsets.size = line at found later
  by_cases starts : startsBy lineOffsets offset line = true
  · rw [if_pos starts, Nat.lt_succ_iff]
    refine ⟨fun here => Nat.not_lt.1 fun after => ?_, fun le => ascending.startsBy_of_le le starts⟩
    rw [later index after] at here
    cases here
  · obtain rfl := found.resolve_right starts
    rw [if_neg starts]
    refine ⟨fun here => absurd (ascending.startsBy_of_le (Nat.zero_le _) here) starts, ?_⟩
    intro below
    cases below

end Search

section Offset

variable {source : Source} {offset offset' : UInt32} {index : Nat} {problem : LineError}

theorem toNat_clamp : (source.clamp offset).toNat = min offset.toNat (source.bytes.size - 1) := by
  have bounded := offset.toNat_lt
  by_cases inside : offset.toNat ≤ source.bytes.size - 1
  · rw [clamp, if_pos inside, Nat.min_eq_left inside]
  · rw [clamp, if_neg inside, Nat.min_eq_right (by omega),
      UInt32.toNat_ofNat_of_lt' (show _ < 2 ^ 32 by omega)]

theorem clamp_mono (le : offset ≤ offset') : source.clamp offset ≤ source.clamp offset' := by
  rw [UInt32.le_iff_toNat_le, toNat_clamp, toNat_clamp]
  have := UInt32.le_iff_toNat_le.1 le
  omega

theorem clamp_of_le (le : offset.toNat ≤ source.bytes.size - 1) : source.clamp offset = offset :=
  if_pos le

/-- The line that a scan of the whole table finds for an offset: the last one of those that start at
or before it, where an offset past the end stands for the last byte. -/
def IsLineOf (source : Source) (offset : UInt32) (index : Nat) : Prop :=
  IsGreatest {index | ∃ start, source.lineOffsets[index]? = some start ∧
    start ≤ source.clamp offset} index

theorem findLine_eq_ok_iff :
    source.findLine offset = .ok index ↔
      linesBy source.lineOffsets (source.clamp offset) = index + 1 := by
  unfold findLine
  dsimp only
  split
  case h_1 index' counted => rw [counted, Except.ok.injEq, Nat.succ.injEq]
  case h_2 counted => cases source.lineOffsets[0]? <;> simp [counted]

theorem findLine_eq_error_iff :
    source.findLine offset = .error problem ↔
      linesBy source.lineOffsets (source.clamp offset) = 0 ∧
        problem = (source.lineOffsets[0]?.elim .noLineOffsets
          (.beforeFirstLine (source.clamp offset))) := by
  unfold findLine
  dsimp only
  split
  case h_1 index' counted => simp [counted]
  case h_2 counted => cases source.lineOffsets[0]? <;> simp [counted, eq_comm]

theorem findLine_ne_lineOverflow : source.findLine offset ≠ .error .lineOverflow := by
  rw [Ne, findLine_eq_error_iff]
  cases source.lineOffsets[0]? <;> simp

variable (ascending : IsAscending source.lineOffsets)

include ascending

theorem IsAscending.isLineOf_iff :
    source.IsLineOf offset index ↔
      linesBy source.lineOffsets (source.clamp offset) = index + 1 := by
  have counted : {index | ∃ start, source.lineOffsets[index]? = some start ∧
      start ≤ source.clamp offset} =
        {index | index < linesBy source.lineOffsets (source.clamp offset)} :=
    Set.ext fun index => startsBy_iff.symm.trans ascending.startsBy_iff_lt_linesBy
  rw [IsLineOf, counted]
  constructor
  · intro ⟨below, greatest⟩
    have : index < linesBy source.lineOffsets (source.clamp offset) := below
    by_contra more
    have := greatest (show index + 1 < linesBy source.lineOffsets (source.clamp offset) by omega)
    omega
  · intro count
    refine ⟨show index < _ by omega, fun other below => ?_⟩
    have : other < linesBy source.lineOffsets (source.clamp offset) := below
    omega

/-- The search finds the line that the scan finds. -/
theorem IsAscending.findLine_eq_ok_iff_isLineOf :
    source.findLine offset = .ok index ↔ source.IsLineOf offset index :=
  findLine_eq_ok_iff.trans ascending.isLineOf_iff.symm

/-- No line is found exactly for the offsets in front of the first line start. -/
theorem IsAscending.linesBy_eq_zero_iff :
    linesBy source.lineOffsets (source.clamp offset) = 0 ↔
      ∀ first, source.lineOffsets[0]? = some first → source.clamp offset < first := by
  rw [← Nat.le_zero, ← Nat.not_lt, ← ascending.startsBy_iff_lt_linesBy, startsBy_iff]
  constructor
  · intro none first here
    exact UInt32.not_le.1 fun by_offset => none ⟨first, here, by_offset⟩
  · rintro before ⟨first, here, by_offset⟩
    exact UInt32.not_lt.2 by_offset (before first here)

theorem IsAscending.findLine_eq_beforeFirstLine_iff {before first : UInt32} :
    source.findLine offset = .error (.beforeFirstLine before first) ↔
      before = source.clamp offset ∧ source.lineOffsets[0]? = some first ∧
        source.clamp offset < first := by
  rw [findLine_eq_error_iff, ascending.linesBy_eq_zero_iff]
  cases source.lineOffsets[0]? with
  | none => simp
  | some first' =>
    simp only [Option.some.injEq, forall_eq', Option.elim_some, LineError.beforeFirstLine.injEq]
    constructor
    · rintro ⟨less, rfl, rfl⟩
      exact ⟨rfl, rfl, less⟩
    · rintro ⟨rfl, rfl, less⟩
      exact ⟨less, rfl, rfl⟩

theorem IsAscending.findLine_eq_noLineOffsets_iff :
    source.findLine offset = .error .noLineOffsets ↔ source.lineOffsets = #[] := by
  rw [findLine_eq_error_iff, ascending.linesBy_eq_zero_iff, ← Array.size_eq_zero_iff,
    ← Nat.le_zero, ← Array.getElem?_eq_none_iff]
  cases source.lineOffsets[0]? <;> simp

end Offset

section Number

variable {source : Source} {offset offset' start : UInt32} {index : Nat} {number number' : Int32}
  {problem : LineError}

theorem lineSlot_eq_ok_iff {slot : Nat} :
    source.lineSlot offset = .ok slot ↔
      ∃ index, source.findLine offset = .ok index ∧ slot = index + 1 := by
  unfold lineSlot
  cases source.findLine offset with
  | error problem => simp [bind, Except.bind]
  | ok index => simp [bind, Except.bind, pure, Except.pure, eq_comm]

theorem lineSlot_eq_error_iff :
    source.lineSlot offset = .error problem ↔ source.findLine offset = .error problem := by
  unfold lineSlot
  cases source.findLine offset <;> simp [bind, Except.bind, pure, Except.pure]

/-- The number of a line is in range at its lower end, since no line comes before the first one. -/
theorem toInt_ofInt_line (inside : source.startLine.toInt + index ≤ maxLine) :
    (Int32.ofInt (source.startLine.toInt + index)).toInt = source.startLine.toInt + index := by
  have lowest := source.startLine.le_toInt
  rw [maxLine] at inside
  exact Int32.toInt_ofInt_of_le (by omega) (by omega)

theorem line_of_findLine (found : source.findLine offset = .ok index) :
    source.line offset =
      if (index : Int) ≤ maxLine ∧ source.startLine.toInt + index ≤ maxLine then
        .ok (Int32.ofInt (source.startLine.toInt + index))
      else .error .lineOverflow := by
  rw [line, found]
  rfl

theorem line_of_findLine_eq_error (missing : source.findLine offset = .error problem) :
    source.line offset = .error problem := by
  rw [line, missing]
  rfl

theorem line_eq_ok_iff :
    source.line offset = .ok number ↔
      ∃ index : Nat, source.findLine offset = .ok index ∧ index ≤ maxLine ∧
        source.startLine.toInt + index ≤ maxLine ∧
        number.toInt = source.startLine.toInt + index := by
  cases found : source.findLine offset with
  | error problem => simp [line_of_findLine_eq_error found]
  | ok index =>
    rw [line_of_findLine found]
    simp only [Except.ok.injEq, exists_eq_left']
    split
    case isTrue inside =>
      rw [Except.ok.injEq, ← Int32.toInt_inj, toInt_ofInt_line inside.2, eq_comm]
      exact ⟨fun same => ⟨inside.1, inside.2, same⟩, fun parts => parts.2.2⟩
    case isFalse outside =>
      exact ⟨fun ok => (by cases ok), fun parts => absurd ⟨parts.1, parts.2.1⟩ outside⟩

theorem line_eq_lineOverflow_iff :
    source.line offset = .error .lineOverflow ↔
      ∃ index : Nat, source.findLine offset = .ok index ∧
        (maxLine < index ∨ maxLine < source.startLine.toInt + index) := by
  cases found : source.findLine offset with
  | error problem =>
    have other : problem ≠ .lineOverflow := by
      rintro rfl
      exact findLine_ne_lineOverflow found
    simp [line_of_findLine_eq_error found, other]
  | ok index =>
    rw [line_of_findLine found]
    simp only [Except.ok.injEq, exists_eq_left']
    split
    case isTrue inside =>
      exact ⟨fun error => (by cases error), fun outside => by omega⟩
    case isFalse outside => exact ⟨fun _ => by omega, fun _ => rfl⟩

theorem line_eq_error_iff (other : problem ≠ .lineOverflow) :
    source.line offset = .error problem ↔ source.findLine offset = .error problem := by
  cases found : source.findLine offset with
  | error problem' => simp [line_of_findLine_eq_error found]
  | ok index =>
    rw [line_of_findLine found]
    split
    case isTrue inside => simp
    case isFalse outside => simp [other.symm]

theorem lineStart?_eq_some_iff :
    source.lineStart? number = some start ↔
      ∃ index : Nat, number.toInt = source.startLine.toInt + index ∧ index ≤ maxLine ∧
        source.lineOffsets[index]? = some start := by
  rw [lineStart?]
  split
  case isTrue inside =>
    constructor
    · intro here
      exact ⟨(number.toInt - source.startLine.toInt).toNat, by omega, by omega, here⟩
    · rintro ⟨index, same, -, here⟩
      have back : (number.toInt - source.startLine.toInt).toNat = index := by omega
      rwa [back]
  case isFalse outside =>
    refine ⟨fun here => (by cases here), ?_⟩
    rintro ⟨index, same, inside, -⟩
    exact absurd ⟨by omega, by omega⟩ outside

/-- No line comes before the first one. -/
theorem startLine_le (starts : source.lineStart? number = some start) :
    source.startLine ≤ number := by
  obtain ⟨index, same, -, -⟩ := lineStart?_eq_some_iff.1 starts
  rw [Int32.le_iff_toInt_le]
  omega

end Number

section Ascending

variable {source : Source} {offset offset' start : UInt32} {index index' : Nat}
  {number number' : Int32} (ascending : IsAscending source.lineOffsets)

theorem IsLineOf.le (here : source.IsLineOf offset index) (there : source.IsLineOf offset' index')
    (le : offset ≤ offset') : index ≤ index' := by
  obtain ⟨start, starts, by_offset⟩ := here.1
  exact there.2 ⟨start, starts, UInt32.le_trans by_offset (clamp_mono le)⟩

include ascending

/-- A later offset has a line as soon as an earlier one has. -/
theorem IsAscending.findLine_mono (le : offset ≤ offset')
    (found : source.findLine offset = .ok index) :
    ∃ index', source.findLine offset' = .ok index' ∧ index ≤ index' := by
  obtain ⟨⟨start, starts, by_offset⟩, -⟩ := ascending.findLine_eq_ok_iff_isLineOf.1 found
  have counted : index < linesBy source.lineOffsets (source.clamp offset') :=
    ascending.startsBy_iff_lt_linesBy.1
      (startsBy_iff.2 ⟨start, starts, UInt32.le_trans by_offset (clamp_mono le)⟩)
  exact ⟨linesBy source.lineOffsets (source.clamp offset') - 1,
    findLine_eq_ok_iff.2 (by omega), by omega⟩

theorem IsAscending.lineSlot_mono {slot : Nat} (le : offset ≤ offset')
    (found : source.lineSlot offset = .ok slot) :
    ∃ slot', source.lineSlot offset' = .ok slot' ∧ slot ≤ slot' := by
  obtain ⟨index, line, rfl⟩ := lineSlot_eq_ok_iff.1 found
  obtain ⟨index', line', le'⟩ := ascending.findLine_mono le line
  exact ⟨index' + 1, lineSlot_eq_ok_iff.2 ⟨index', line', rfl⟩, Nat.succ_le_succ le'⟩

/-- Slots count the lines from one. -/
theorem IsAscending.lineSlot_mem {slot : Nat} (found : source.lineSlot offset = .ok slot) :
    1 ≤ slot ∧ slot ≤ source.lineCount := by
  obtain ⟨index, line, rfl⟩ := lineSlot_eq_ok_iff.1 found
  obtain ⟨⟨start, starts, -⟩, -⟩ := ascending.findLine_eq_ok_iff_isLineOf.1 line
  exact ⟨Nat.succ_pos index, (Array.getElem?_eq_some_iff.1 starts).1⟩

theorem IsAscending.line_mono (le : offset ≤ offset') (here : source.line offset = .ok number)
    (there : source.line offset' = .ok number') : number ≤ number' := by
  obtain ⟨index, found, -, -, same⟩ := line_eq_ok_iff.1 here
  obtain ⟨index', found', -, -, same'⟩ := line_eq_ok_iff.1 there
  have := IsLineOf.le (ascending.findLine_eq_ok_iff_isLineOf.1 found)
    (ascending.findLine_eq_ok_iff_isLineOf.1 found') le
  rw [Int32.le_iff_toInt_le]
  omega

/-- The line of an offset starts at or before it, and the line behind it starts later. -/
theorem IsAscending.lineStart?_of_line (found : source.line offset = .ok number) :
    ∃ (index : Nat) (start : UInt32), number.toInt = source.startLine.toInt + index ∧
      source.lineOffsets[index]? = some start ∧ source.lineStart? number = some start ∧
      start ≤ source.clamp offset ∧
      ∀ next, source.lineOffsets[index + 1]? = some next → source.clamp offset < next := by
  obtain ⟨index, found, inside, -, same⟩ := line_eq_ok_iff.1 found
  obtain ⟨⟨start, starts, by_offset⟩, greatest⟩ := ascending.findLine_eq_ok_iff_isLineOf.1 found
  refine ⟨index, start, same, starts, lineStart?_eq_some_iff.2 ⟨index, same, inside, starts⟩,
    by_offset, fun next later => UInt32.not_le.1 fun by_offset => ?_⟩
  exact Nat.not_succ_le_self index (greatest ⟨next, later, by_offset⟩)

/-- The line of a line start is the line itself, or the last of the lines that start where it
does. -/
theorem IsAscending.line_of_lineStart? (starts : source.lineStart? number = some start)
    (inside : start.toNat ≤ source.bytes.size - 1) (found : source.line start = .ok number') :
    number ≤ number' ∧
      (number' = number ↔
        ∀ index : Nat, source.lineOffsets[index]? = some start →
          source.startLine.toInt + index ≤ number.toInt) := by
  obtain ⟨index, same, -, here⟩ := lineStart?_eq_some_iff.1 starts
  obtain ⟨index', found, -, -, same'⟩ := line_eq_ok_iff.1 found
  obtain ⟨⟨start', starts', by_start⟩, greatest⟩ := ascending.findLine_eq_ok_iff_isLineOf.1 found
  rw [clamp_of_le inside] at by_start
  have first : ∀ other : Nat, source.lineOffsets[other]? = some start → other ≤ index' :=
    fun other there => greatest ⟨start, there, by rw [clamp_of_le inside]; exact UInt32.le_refl _⟩
  have le := first index here
  obtain rfl : start' = start := UInt32.le_antisymm by_start (ascending.le le here starts')
  rw [Int32.le_iff_toInt_le, ← Int32.toInt_inj]
  refine ⟨by omega, fun equal other there => ?_, fun last => ?_⟩
  · have := first other there
    omega
  · have := last index' starts'
    omega

end Ascending

section Lookup

variable {source : Source}

/-- Looking up a line agrees with a scan of the whole table: the line of an offset, clamped to the
last byte, is the last one that starts at or before it. Finding the start of a line is the inverse.
-/
theorem lines_of_isAscending (ascending : IsAscending source.lineOffsets) :
    (∀ offset : UInt32,
      (source.clamp offset).toNat = min offset.toNat (source.bytes.size - 1)) ∧
    (∀ offset : UInt32,
      (source.findLine offset = .error .noLineOffsets ↔ source.lineOffsets = #[]) ∧
      (∀ before first, source.findLine offset = .error (.beforeFirstLine before first) ↔
        before = source.clamp offset ∧ source.lineOffsets[0]? = some first ∧
          source.clamp offset < first) ∧
      source.findLine offset ≠ .error .lineOverflow ∧
      ∀ index, source.findLine offset = .ok index ↔ source.IsLineOf offset index) ∧
    (∀ offset : UInt32,
      (∀ slot, source.lineSlot offset = .ok slot ↔
        ∃ index, source.findLine offset = .ok index ∧ slot = index + 1) ∧
      (∀ slot, source.lineSlot offset = .ok slot → 1 ≤ slot ∧ slot ≤ source.lineCount) ∧
      ∀ problem, source.lineSlot offset = .error problem ↔
        source.findLine offset = .error problem) ∧
    (∀ offset : UInt32,
      (∀ number, source.line offset = .ok number ↔
        ∃ index : Nat, source.findLine offset = .ok index ∧ index ≤ maxLine ∧
          source.startLine.toInt + index ≤ maxLine ∧
          number.toInt = source.startLine.toInt + index) ∧
      (source.line offset = .error .lineOverflow ↔
        ∃ index : Nat, source.findLine offset = .ok index ∧
          (maxLine < index ∨ maxLine < source.startLine.toInt + index)) ∧
      ∀ problem, problem ≠ .lineOverflow →
        (source.line offset = .error problem ↔ source.findLine offset = .error problem)) ∧
    (∀ offset offset' : UInt32, offset ≤ offset' →
      (∀ index, source.findLine offset = .ok index →
        ∃ index', source.findLine offset' = .ok index' ∧ index ≤ index') ∧
      (∀ slot, source.lineSlot offset = .ok slot →
        ∃ slot', source.lineSlot offset' = .ok slot' ∧ slot ≤ slot') ∧
      ∀ number number', source.line offset = .ok number → source.line offset' = .ok number' →
        number ≤ number') ∧
    (∀ (offset : UInt32) (number : Int32), source.line offset = .ok number →
      ∃ (index : Nat) (start : UInt32), number.toInt = source.startLine.toInt + index ∧
        source.lineOffsets[index]? = some start ∧ source.lineStart? number = some start ∧
        start ≤ source.clamp offset ∧
        ∀ next, source.lineOffsets[index + 1]? = some next → source.clamp offset < next) ∧
    (∀ (number number' : Int32) (start : UInt32), source.lineStart? number = some start →
      start.toNat ≤ source.bytes.size - 1 → source.line start = .ok number' →
        number ≤ number' ∧
          (number' = number ↔
            ∀ index : Nat, source.lineOffsets[index]? = some start →
              source.startLine.toInt + index ≤ number.toInt)) ∧
    ∀ (number : Int32) (start : UInt32), source.lineStart? number = some start →
      source.startLine ≤ number := by
  refine ⟨fun _ => toNat_clamp, fun offset => ?_, fun offset => ?_, fun offset => ?_,
    fun offset offset' le => ?_, fun _ _ => ascending.lineStart?_of_line,
    fun _ _ _ => ascending.line_of_lineStart?, fun _ _ => startLine_le⟩
  · exact ⟨ascending.findLine_eq_noLineOffsets_iff,
      fun _ _ => ascending.findLine_eq_beforeFirstLine_iff, findLine_ne_lineOverflow,
      fun _ => ascending.findLine_eq_ok_iff_isLineOf⟩
  · exact ⟨fun _ => lineSlot_eq_ok_iff, fun _ => ascending.lineSlot_mem,
      fun _ => lineSlot_eq_error_iff⟩
  · exact ⟨fun _ => line_eq_ok_iff, line_eq_lineOverflow_iff, fun _ => line_eq_error_iff⟩
  · exact ⟨fun _ => ascending.findLine_mono le, fun _ => ascending.lineSlot_mono le,
      fun _ _ => ascending.line_mono le⟩

/-- Of two lines that start where the text ends, an offset behind the end is in the last one. The
first line of this text has the number minus one. -/
theorem lines_of_repeated_start :
    let source : Source :=
      { bytes := ⟨#[97, 10, 98]⟩, startLine := -1, lineOffsets := #[0, 2, 2] }
    IsAscending source.lineOffsets ∧ source.findLine 7 = .ok 2 ∧ source.lineSlot 7 = .ok 3 ∧
      source.line 7 = .ok 1 := by
  intro source
  have ascending : IsAscending source.lineOffsets := by decide
  obtain ⟨-, line, slot, number, -⟩ := lines_of_isAscending ascending
  have found : source.findLine 7 = .ok 2 := by
    refine ((line 7).2.2.2 2).2 ⟨⟨2, rfl, by decide⟩, ?_⟩
    rintro index ⟨start, starts, -⟩
    exact Nat.le_of_lt_succ (Array.getElem?_eq_some_iff.1 starts).1
  exact ⟨ascending, found, ((slot 7).1 3).2 ⟨2, found, rfl⟩,
    ((number 7).1 1).2 ⟨2, found, by decide, by decide, by decide⟩⟩

end Lookup

end Source

end PrismTree
