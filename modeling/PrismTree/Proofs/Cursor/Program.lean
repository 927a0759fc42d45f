import PrismTree.Proofs.Cursor.Machine

/-!
# Programs of readings

A program moves and reads in any order, with any arguments, and runs other programs at other
positions. Running a program leaves a log with an entry for each operation that was performed, also
inside the scopes. What one operation does is stated once, for every position inside the buffer; a
run of a program only begins operations at such positions, and so every entry of its log is one of
these.
-/
namespace PrismTree

open Decoder

variable {buffer part : ByteArray} {position before after : Nat}

/-- The operations that need no others, with their arguments as words. -/
inductive Operation where
  | seek (target : UInt64)
  | skip (distance : Int64)
  | peek
  | remaining
  | readByte
  | readUpTo (count : UInt64)
  | readExactly (count : UInt64)
  | readArray (width : UInt64)
  | readUInt32
  | readDouble
  | readVarint
  | readSignedVarint
  | ensureCount (count : UInt32) (minItemSize : UInt64)
  | readCount (minItemSize : UInt64)
  | readLocation
  | readOptionalLocation
  | readEmbedded

/-- What an operation gives. -/
inductive Answer where
  | done
  | peeked (byte : Option UInt8)
  | bytes (part : ByteArray)
  | number (n : Nat)
  | signed (n : Int32)
  | double (double : Double)
  | location (location : Option Location)

namespace Operation

/-- The decoder of an operation. -/
def run : Operation → Decoder ReadError Answer
  | seek target => (fun _ => .done) <$> Decoder.seek target.toNat
  | skip distance => (fun _ => .done) <$> Decoder.skip distance.toInt
  | peek => .peeked <$> Decoder.peek
  | remaining => .number <$> Decoder.remaining
  | readByte => (fun byte => .bytes ⟨#[byte]⟩) <$> Decoder.readByte
  | readUpTo count => .bytes <$> Decoder.readUpTo count.toNat
  | readExactly count => .bytes <$> Decoder.readExactly count.toNat
  | readArray width => .bytes <$> Decoder.readExactly width.toNat
  | readUInt32 => (fun n => .number n.toNat) <$> Decoder.readUInt32
  | readDouble => .double <$> Decoder.readDouble
  | readVarint => (fun n => .number n.toNat) <$> Decoder.readVarint
  | readSignedVarint => .signed <$> Decoder.readSignedVarint
  | ensureCount count minItemSize => .number <$> Decoder.ensureCount count minItemSize.toNat
  | readCount minItemSize => .number <$> Decoder.readCount minItemSize.toNat
  | readLocation => (fun location => .location (some location)) <$> Decoder.readLocation
  | readOptionalLocation => .location <$> Decoder.readOptionalLocation
  | readEmbedded => .bytes <$> Decoder.readEmbedded

/-- The machine of an operation. -/
def machine : Operation → Machine Answer
  | seek target => (fun _ => .done) <$> Machine.seek target
  | skip distance => (fun _ => .done) <$> Machine.skip distance
  | peek => .peeked <$> Machine.peek
  | remaining => .number <$> (UInt64.toNat <$> Machine.remaining)
  | readByte => (fun byte => .bytes ⟨#[byte]⟩) <$> Machine.readByte
  | readUpTo count => .bytes <$> Machine.readUpTo count
  | readExactly count => .bytes <$> Machine.readExactly count
  | readArray width => .bytes <$> Machine.readArray width
  | readUInt32 => (fun n => .number n.toNat) <$> Machine.readUInt32
  | readDouble => .double <$> Machine.readDouble
  | readVarint => (fun n => .number n.toNat) <$> Machine.readVarint
  | readSignedVarint => .signed <$> Machine.readSignedVarint
  | ensureCount count minItemSize => .number <$> Machine.ensureCount count minItemSize
  | readCount minItemSize => .number <$> Machine.readCount minItemSize
  | readLocation => (fun location => .location (some location)) <$> Machine.readLocation
  | readOptionalLocation => .location <$> Machine.readOptionalLocation
  | readEmbedded => .bytes <$> Machine.readEmbedded

theorem implements_machine (operation : Operation) :
    operation.machine.Implements operation.run := by
  cases operation with
  | seek target => exact (Machine.implements_seek target).map _
  | skip distance => exact (Machine.implements_skip distance).map _
  | peek => exact Machine.implements_peek.map _
  | remaining => exact Machine.implements_remaining.map _
  | readByte => exact Machine.implements_readByte.map _
  | readUpTo count => exact (Machine.implements_readUpTo count).map _
  | readExactly count => exact (Machine.implements_readExactly count).map _
  | readArray width => exact (Machine.implements_readArray width).map _
  | readUInt32 => exact Machine.implements_readUInt32.map _
  | readDouble => exact Machine.implements_readDouble.map _
  | readVarint => exact Machine.implements_readVarint.map _
  | readSignedVarint => exact Machine.implements_readSignedVarint.map _
  | ensureCount count minItemSize =>
    exact (Machine.implements_ensureCount count minItemSize).map _
  | readCount minItemSize => exact (Machine.implements_readCount minItemSize).map _
  | readLocation => exact Machine.implements_readLocation.map _
  | readOptionalLocation => exact Machine.implements_readOptionalLocation.map _
  | readEmbedded => exact Machine.implements_readEmbedded.map _

end Operation

/-- A reading of so many bytes gives what it moves past; if they are not there, it does not move. -/
def Takes (buffer : ByteArray) (before after length : Nat) (answer : ByteArray → Answer) :
    Except ReadError Answer → Prop
  | .ok value => ∃ part, Bytes.slice? buffer before after = some part ∧ part.size = length ∧
      value = answer part
  | .error error => after = before ∧ buffer.size - before < length ∧
      error = .truncated before length (buffer.size - before)

/-- A reading of bytes behind their length gives what it moves past last; if it fails, it has read
no more than the length. -/
def TakesEmbedded (buffer : ByteArray) (before after : Nat) : Except ReadError Answer → Prop
  | .ok value => ∃ front part, before ≤ front ∧ front ≤ before + Varint.maxLength ∧
      Bytes.slice? buffer front after = some part ∧ value = .bytes part
  | .error _ => before ≤ after ∧ after ≤ before + Varint.maxLength

/-- An operation moves onward, by so many bytes at most. -/
def Nears (before after most : Nat) : Prop :=
  before ≤ after ∧ after ≤ before + most

/-- What an operation may do, whether it succeeds or fails. -/
def Operation.Allows (buffer : ByteArray) (before after : Nat) (answer : Except ReadError Answer) :
    Operation → Prop
  | seek target => answer = .ok .done ∧ after = min target.toNat buffer.size
  | skip distance => answer = .ok .done ∧
      (after : Int) = max 0 (min (before + distance.toInt) buffer.size)
  | peek => answer = .ok (.peeked buffer[before]?) ∧ after = before
  | remaining => answer = .ok (.number (buffer.size - before)) ∧ after = before
  | readByte => Takes buffer before after 1 .bytes answer
  | readUpTo count => ∃ part, Bytes.slice? buffer before after = some part ∧
      part.size = min count.toNat (buffer.size - before) ∧ answer = .ok (.bytes part)
  | readExactly count => Takes buffer before after count.toNat .bytes answer
  | readArray width => Takes buffer before after width.toNat .bytes answer
  | readUInt32 => Takes buffer before after 4
      (fun part => .number (UInt32.ofNat (Bytes.toNat part.data.toList)).toNat) answer
  | readDouble => Takes buffer before after 8
      (fun part => .double ⟨UInt64.ofNat (Bytes.toNat part.data.toList)⟩) answer
  | readVarint => Nears before after Varint.maxLength
  | readSignedVarint => Nears before after Varint.maxLength
  | ensureCount _ _ => after = before
  | readCount _ => Nears before after Varint.maxLength
  | readLocation => Nears before after (2 * Varint.maxLength)
  | readOptionalLocation => Nears before after (1 + 2 * Varint.maxLength)
  | readEmbedded => TakesEmbedded buffer before after answer

/-- The outcome of a run as a value. -/
def answered {ε α : Type} : EStateM.Result ε Nat α → Except ε α
  | .ok value _ => .ok value
  | .error error _ => .error error

section Operations

variable {α β : Type} {most : Nat}

theorem answered_map (f : α → β) (decoder : Decoder ReadError α) :
    answered ((f <$> decoder).runFrom buffer position) =
      (answered (decoder.runFrom buffer position)).map f := by
  rw [map_eq_pure_bind, runFrom_bind]
  cases decoder.runFrom buffer position <;> rfl

theorem reached_map (f : α → β) (decoder : Decoder ReadError α) :
    reached ((f <$> decoder).runFrom buffer position) =
      reached (decoder.runFrom buffer position) := by
  rw [map_eq_pure_bind, runFrom_bind]
  cases decoder.runFrom buffer position <;> rfl

theorem Decoder.Moves.nears {decoder : Decoder ReadError α} (moves : decoder.Moves buffer most)
    (inside : position ≤ buffer.size) :
    Nears position (reached (decoder.runFrom buffer position)) most :=
  ⟨(moves position inside).1, (moves position inside).2.2⟩

theorem takes_readExactly (inside : position ≤ buffer.size) (count : Nat)
    (answer : ByteArray → Answer) :
    Takes buffer position (reached ((readExactly count).runFrom buffer position)) count answer
      ((answered ((readExactly count).runFrom buffer position)).map answer) := by
  rw [runFrom_readExactly]
  split
  case isTrue short => exact ⟨rfl, short, rfl⟩
  case isFalse enough =>
    dsimp only [reached, answered, Except.map]
    rw [Nat.min_eq_left (by omega)]
    refine ⟨_, if_pos ⟨Nat.le_add_right _ _, by omega⟩, ?_, rfl⟩
    rw [ByteArray.size_extract]
    omega

/-- A byte is a reading of one byte. -/
theorem takes_readByte (inside : position ≤ buffer.size) :
    Takes buffer position (reached (readByte.runFrom buffer position)) 1 .bytes
      ((answered (readByte.runFrom buffer position)).map fun byte => .bytes ⟨#[byte]⟩) := by
  rw [runFrom_readByte]
  by_cases less : position < buffer.size
  · rw [getElem?_pos buffer position less]
    have slice : Bytes.slice? buffer position (position + 1) =
        some (buffer.extract position (position + 1)) := if_pos ⟨Nat.le_succ _, less⟩
    refine ⟨_, slice, ?_, ?_⟩
    · rw [Bytes.size_of_slice? slice, Nat.add_sub_cancel_left]
    · rw [ByteArray.extract_add_one less]
      rfl
  · rw [getElem?_neg buffer position less]
    obtain rfl := Nat.le_antisymm inside (Nat.le_of_not_lt less)
    refine ⟨rfl, ?_, ?_⟩ <;> rw [Nat.sub_self]
    exact Nat.one_pos

theorem takesEmbedded_readEmbedded (inside : position ≤ buffer.size) :
    TakesEmbedded buffer position (reached (readEmbedded.runFrom buffer position))
      ((answered (readEmbedded.runFrom buffer position)).map .bytes) := by
  obtain ⟨onward, within, near⟩ := moves_readVarint position inside
  rw [readEmbedded, runFrom_bind]
  cases first : readVarint.runFrom buffer position with
  | error error stop =>
    rw [first] at onward near
    exact ⟨onward, near⟩
  | ok length front =>
    rw [first, reached] at onward within near
    have taken := takes_readExactly within length.toNat .bytes
    dsimp only
    cases second : (readExactly length.toNat).runFrom buffer front with
    | error error stop =>
      rw [second] at taken
      obtain rfl : stop = front := taken.1
      exact ⟨onward, near⟩
    | ok part stop =>
      rw [second] at taken
      obtain ⟨part', slice, -, same⟩ := taken
      exact ⟨front, part', onward, near, slice, same⟩

/-- Every operation does what it may do, and stays inside the buffer. -/
theorem Operation.allows_run (operation : Operation) (inside : position ≤ buffer.size) :
    operation.Allows buffer position (reached (operation.run.runFrom buffer position))
        (answered (operation.run.runFrom buffer position)) ∧
      reached (operation.run.runFrom buffer position) ≤ buffer.size := by
  cases operation with
  | seek target => exact ⟨⟨rfl, rfl⟩, Nat.min_le_right _ _⟩
  | skip distance =>
    refine ⟨⟨rfl, ?_⟩, Nat.min_le_right _ _⟩
    show ((min (position + distance.toInt).toNat buffer.size : Nat) : Int) = _
    omega
  | peek => exact ⟨⟨rfl, rfl⟩, inside⟩
  | remaining => exact ⟨⟨rfl, rfl⟩, inside⟩
  | readByte =>
    rw [run, reached_map, answered_map]
    exact ⟨takes_readByte inside, (moves_readByte position inside).2.1⟩
  | readUpTo count =>
    refine ⟨⟨buffer.extract position (min (position + count.toNat) buffer.size),
      if_pos ⟨?_, Nat.min_le_right _ _⟩, ?_, rfl⟩, Nat.min_le_right _ _⟩
    · rw [ByteArray.size_extract]
      omega
    · show position ≤ min (position + count.toNat) buffer.size
      omega
  | readExactly count =>
    rw [run, reached_map, answered_map]
    exact ⟨takes_readExactly inside _ _, (moves_readExactly _ position inside).2.1⟩
  | readArray width =>
    rw [run, reached_map, answered_map]
    exact ⟨takes_readExactly inside _ _, (moves_readExactly _ position inside).2.1⟩
  | readUInt32 =>
    rw [run, readUInt32_eq, Functor.map_map, reached_map, answered_map]
    exact ⟨takes_readExactly inside 4 _, (moves_readExactly 4 position inside).2.1⟩
  | readDouble =>
    rw [run, readDouble_eq, Functor.map_map, reached_map, answered_map]
    exact ⟨takes_readExactly inside 8 _, (moves_readExactly 8 position inside).2.1⟩
  | readVarint =>
    rw [run, reached_map]
    exact ⟨moves_readVarint.nears inside, (moves_readVarint position inside).2.1⟩
  | readSignedVarint =>
    rw [run, reached_map]
    exact ⟨moves_readSignedVarint.nears inside, (moves_readSignedVarint position inside).2.1⟩
  | ensureCount count minItemSize =>
    have near := (moves_ensureCount count minItemSize.toNat).nears inside
    rw [run, reached_map]
    exact ⟨Nat.le_antisymm near.2 near.1, (moves_ensureCount _ _ position inside).2.1⟩
  | readCount minItemSize =>
    rw [run, reached_map]
    exact ⟨(moves_readCount _).nears inside, (moves_readCount _ position inside).2.1⟩
  | readLocation =>
    rw [run, reached_map]
    exact ⟨moves_readLocation.nears inside, (moves_readLocation position inside).2.1⟩
  | readOptionalLocation =>
    rw [run, reached_map]
    exact ⟨moves_readOptionalLocation.nears inside,
      (moves_readOptionalLocation position inside).2.1⟩
  | readEmbedded =>
    rw [run, reached_map, answered_map]
    exact ⟨takesEmbedded_readEmbedded inside, (moves_readEmbedded position inside).2.1⟩

end Operations

/-- A command performs an operation, or a program at another position. Such a program stops at its
first failure, and then fails itself, or takes no notice of failures. -/
inductive Command where
  | single (operation : Operation)
  | withPosition (target : UInt64) (stopping : Bool) (commands : List Command)

/-- A command that was performed: where it began, where it ended and what remained there, and what
it gave. -/
structure Performed where
  command : Command
  before : Nat
  after : Nat
  remaining : Nat
  answer : Except ReadError Answer

/-- A program that runs leaves a log, also if it fails. -/
abbrev Performing : Type :=
  Decoder (List Performed × ReadError) (List Performed)

/-- Put a command that began at `before` and that has ended behind what was performed inside it. -/
def record (command : Command) (before : Nat) (inside : List Performed)
    (answer : Except ReadError Answer) : Performing := do
  let log := inside ++ [⟨command, before, ← Decoder.position, ← Decoder.remaining, answer⟩]
  match answer with
  | .ok _ => return log
  | .error error => Decoder.throw (log, error)

/-- Put a log in front of the log of the rest. -/
def Performing.behind (log : List Performed) (rest : Performing) : Performing :=
  Decoder.mapError (fun failure => (log ++ failure.1, failure.2)) ((log ++ ·) <$> rest)

mutual

/-- Perform a command. -/
def Command.perform : Command → Performing
  | .single operation => do
    let before ← Decoder.position
    record (.single operation) before [] (← outcome operation.run)
  | .withPosition target stopping commands => do
    let before ← Decoder.position
    match ← outcome (withPosition target.toNat (performAll stopping commands)) with
    | .ok inside => record (.withPosition target stopping commands) before inside (.ok .done)
    | .error (inside, error) =>
      record (.withPosition target stopping commands) before inside (.error error)

/-- Perform the commands of a program in order. -/
def performAll (stopping : Bool) : List Command → Performing
  | [] => return []
  | command :: commands => do
    match ← outcome command.perform with
    | .ok log => (performAll stopping commands).behind log
    | .error (log, error) =>
      if stopping then Decoder.throw (log, error) else (performAll stopping commands).behind log

end

/-- The outcome of an operation at the position that it has reached. -/
def resultOf (answer : Except ReadError Answer) (after : Nat) :
    EStateM.Result ReadError Nat Answer :=
  match answer with
  | .ok value => .ok value after
  | .error error => .error error after

/-- What a command may do: an operation does what it may do, and a machine does the same; a program
at another position ends where it began. -/
def Command.Allows (buffer : ByteArray) (before after : Nat) (answer : Except ReadError Answer) :
    Command → Prop
  | .single operation => operation.Allows buffer before after answer ∧
      (buffer.size < 2 ^ 63 → operation.machine.runFrom buffer (UInt64.ofNat before) =
        some (toWords (resultOf answer after)))
  | .withPosition _ _ _ => after = before

/-- A command that was performed has begun and ended inside the buffer, its position and what
remains behind it make up the buffer, and it has done what it may do. -/
structure Performed.IsLawful (buffer : ByteArray) (entry : Performed) : Prop where
  before_le : entry.before ≤ buffer.size
  after_le : entry.after ≤ buffer.size
  after_add_remaining : entry.after + entry.remaining = buffer.size
  allowed : entry.command.Allows buffer entry.before entry.after entry.answer

/-- The log of a run. -/
def logged : EStateM.Result (List Performed × ReadError) Nat (List Performed) → List Performed
  | .ok log _ => log
  | .error (log, _) _ => log

/-- From every position inside the buffer, a run stays inside it and performs lawful commands
only. -/
def Performing.IsSafe (buffer : ByteArray) (performing : Performing) : Prop :=
  ∀ position ≤ buffer.size, reached (performing.runFrom buffer position) ≤ buffer.size ∧
    ∀ entry ∈ logged (performing.runFrom buffer position), entry.IsLawful buffer

section Runs

variable {command : Command} {log inside : List Performed} {answer : Except ReadError Answer}

theorem runFrom_outcome {ε ε' α : Type} (decoder : Decoder ε α) :
    (outcome decoder : Decoder ε' (Except ε α)).runFrom buffer position =
      .ok (answered (decoder.runFrom buffer position))
        (reached (decoder.runFrom buffer position)) := by
  show (match decoder.runFrom buffer position with
    | .ok value stop => EStateM.Result.ok (Except.ok value) stop
    | .error error stop => .ok (.error error) stop) = _
  cases decoder.runFrom buffer position <;> rfl

theorem runFrom_record :
    (record command before inside answer).runFrom buffer after =
      match answer with
      | .ok _ => .ok (inside ++ [⟨command, before, after, buffer.size - after, answer⟩]) after
      | .error error =>
        .error (inside ++ [⟨command, before, after, buffer.size - after, answer⟩], error)
          after := by
  cases answer <;> rfl

theorem runFrom_perform_single (operation : Operation) :
    (Command.single operation).perform.runFrom buffer position =
      (record (.single operation) position []
        (answered (operation.run.runFrom buffer position))).runFrom buffer
          (reached (operation.run.runFrom buffer position)) := by
  rw [Command.perform]
  show (outcome operation.run >>= _).runFrom buffer position = _
  rw [runFrom_bind, runFrom_outcome]

theorem runFrom_perform_withPosition (target : UInt64) (stopping : Bool)
    (commands : List Command) :
    (Command.withPosition target stopping commands).perform.runFrom buffer position =
      match (performAll stopping commands).runFrom buffer (min target.toNat buffer.size) with
      | .ok inside _ => (record (.withPosition target stopping commands) position inside
          (.ok .done)).runFrom buffer position
      | .error (inside, error) _ => (record (.withPosition target stopping commands) position inside
          (.error error)).runFrom buffer position := by
  rw [Command.perform]
  show (outcome (withPosition target.toNat _) >>= _).runFrom buffer position = _
  rw [runFrom_bind, runFrom_outcome, runFrom_withPosition]
  cases (performAll stopping commands).runFrom buffer (min target.toNat buffer.size) <;> rfl

theorem resultOf_answered (result : EStateM.Result ReadError Nat Answer) :
    resultOf (answered result) (reached result) = result := by
  cases result <;> rfl

/-- A command that did what it may do is put into the log. -/
theorem isSafe_record (lawful : ∀ entry ∈ inside, entry.IsLawful buffer)
    (before_le : before ≤ buffer.size) (after_le : after ≤ buffer.size)
    (allowed : command.Allows buffer before after answer) :
    reached ((record command before inside answer).runFrom buffer after) ≤ buffer.size ∧
      ∀ entry ∈ logged ((record command before inside answer).runFrom buffer after),
        entry.IsLawful buffer := by
  have last : (⟨command, before, after, buffer.size - after, answer⟩ : Performed).IsLawful buffer :=
    ⟨before_le, after_le, Nat.add_sub_of_le after_le, allowed⟩
  have all := List.forall_mem_append.2 ⟨lawful, List.forall_mem_singleton.2 last⟩
  rw [runFrom_record]
  cases answer with
  | ok value => exact ⟨after_le, all⟩
  | error error => exact ⟨after_le, all⟩

theorem Performing.IsSafe.behind {rest : Performing} (safe : rest.IsSafe buffer)
    (lawful : ∀ entry ∈ log, entry.IsLawful buffer) : (rest.behind log).IsSafe buffer := by
  intro position inside
  obtain ⟨within, all⟩ := safe position inside
  rw [Performing.behind, runFrom_mapError, map_eq_pure_bind, runFrom_bind]
  cases run : rest.runFrom buffer position with
  | ok log' stop =>
    rw [run] at within all
    exact ⟨within, List.forall_mem_append.2 ⟨lawful, all⟩⟩
  | error failure stop =>
    rw [run] at within all
    exact ⟨within, List.forall_mem_append.2 ⟨lawful, all⟩⟩

end Runs

mutual

/-- Performing a command is safe, since a program inside it is. -/
theorem Command.isSafe_perform (command : Command) : command.perform.IsSafe buffer := by
  intro position inside
  match command with
  | .single operation =>
    obtain ⟨allowed, within⟩ := operation.allows_run inside
    have machine := operation.implements_machine buffer position
    rw [runFrom_perform_single]
    refine isSafe_record (List.forall_mem_nil _) inside within
      (show Command.Allows buffer position _ _ (.single operation) from
        ⟨allowed, fun addressable => ?_⟩)
    rw [resultOf_answered]
    exact machine addressable inside
  | .withPosition target stopping commands =>
    have safe := isSafe_performAll stopping commands (min target.toNat buffer.size)
      (Nat.min_le_right _ _)
    have back : ∀ answer, Command.Allows buffer position position answer
        (.withPosition target stopping commands) := fun _ => rfl
    rw [runFrom_perform_withPosition]
    cases run : (performAll stopping commands).runFrom buffer (min target.toNat buffer.size) with
    | ok log stop =>
      rw [run] at safe
      exact isSafe_record safe.2 inside inside (back _)
    | error failure stop =>
      rw [run] at safe
      obtain ⟨log, error⟩ := failure
      exact isSafe_record safe.2 inside inside (back _)

/-- Performing a program is safe, since each of its commands is. -/
theorem isSafe_performAll (stopping : Bool) (commands : List Command) :
    (performAll stopping commands).IsSafe buffer := by
  match commands with
  | [] =>
    intro position inside
    exact ⟨inside, List.forall_mem_nil _⟩
  | command :: commands =>
    have rest := isSafe_performAll stopping commands
    intro position inside
    obtain ⟨within, lawful⟩ := command.isSafe_perform position inside
    rw [performAll, runFrom_bind, runFrom_outcome]
    dsimp only
    cases run : command.perform.runFrom buffer position with
    | ok log stop =>
      rw [run] at within lawful
      exact rest.behind lawful stop within
    | error failure stop =>
      rw [run] at within lawful
      obtain ⟨log, error⟩ := failure
      cases stopping with
      | true => exact ⟨within, lawful⟩
      | false => exact rest.behind lawful stop within

end

/-- A command that was performed stands in the log, behind what was performed inside it. -/
theorem exists_logged_perform (command : Command) (buffer : ByteArray) (position : Nat) :
    ∃ inside entry, logged (command.perform.runFrom buffer position) = inside ++ [entry] ∧
      entry.command = command := by
  have recorded : ∀ {before after inside answer}, ∃ entry : Performed,
      logged ((record command before inside answer).runFrom buffer after) = inside ++ [entry] ∧
        entry.command = command := by
    intro before after inside answer
    rw [runFrom_record]
    cases answer <;> exact ⟨_, rfl, rfl⟩
  cases command with
  | single operation =>
    rw [runFrom_perform_single]
    exact ⟨_, recorded⟩
  | withPosition target stopping commands =>
    rw [runFrom_perform_withPosition]
    cases (performAll stopping commands).runFrom buffer (min target.toNat buffer.size) with
    | ok inside stop => exact ⟨_, recorded⟩
    | error failure stop => exact ⟨_, recorded⟩

/-- A program that takes no notice of failures performs all of its commands. -/
theorem performAll_eq_ok (commands : List Command) (buffer : ByteArray) (position : Nat) :
    ∃ log stop, (performAll false commands).runFrom buffer position = .ok log stop ∧
      commands.Sublist (log.map Performed.command) := by
  induction commands generalizing position with
  | nil => exact ⟨[], position, rfl, List.Sublist.refl _⟩
  | cons command commands ih =>
    obtain ⟨inside, entry, first, same⟩ := exists_logged_perform command buffer position
    have onward : ∀ stop log, log = inside ++ [entry] → ∃ log' stop',
        ((performAll false commands).behind log).runFrom buffer stop = .ok log' stop' ∧
          (command :: commands).Sublist (log'.map Performed.command) := by
      rintro stop log rfl
      obtain ⟨log', stop', run, performed⟩ := ih stop
      refine ⟨inside ++ [entry] ++ log', stop', ?_, ?_⟩
      · rw [Performing.behind, runFrom_mapError, map_eq_pure_bind, runFrom_bind, run]
        rfl
      · rw [List.append_assoc, List.map_append, List.map_append, List.map_singleton, same]
        exact (performed.cons_cons command).trans (List.sublist_append_right _ _)
    rw [performAll, runFrom_bind, runFrom_outcome]
    cases run : command.perform.runFrom buffer position with
    | ok log stop =>
      rw [run] at first
      exact onward stop log first
    | error failure stop =>
      rw [run] at first
      exact onward stop failure.1 first

/-- A program of operations keeps its position inside the buffer and performs lawful operations
only, those of nested programs included. A machine with words of 64 bits, which cannot go on past an
overflow or a slice outside the buffer, does the same. -/
theorem lawful_of_performAll (buffer : ByteArray) (commands : List Command) :
    ∃ log stop, (performAll false commands).runFrom buffer 0 = .ok log stop ∧
      stop ≤ buffer.size ∧ commands.Sublist (log.map Performed.command) ∧
        ∀ entry ∈ log, entry.IsLawful buffer := by
  obtain ⟨log, stop, run, performed⟩ := performAll_eq_ok commands buffer 0
  obtain ⟨within, lawful⟩ := isSafe_performAll false commands 0 (Nat.zero_le buffer.size)
  rw [run] at within lawful
  exact ⟨log, stop, run, within, performed, lawful⟩

end PrismTree
