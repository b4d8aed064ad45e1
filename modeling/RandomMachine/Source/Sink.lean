import RandomMachine.Error
import RandomMachine.Source.Text
import RandomMachine.Tally.Basic

/-!
# Writing to a sink

A sink takes bytes in order until its limit is reached, as many of an offer at once as it likes.
The lines of a program are offered one after another, and what is not taken of a line is offered
again. The first offer that nothing is taken of ends the writing, and nothing is offered after
that. This holds across the sections of a program, so they are written as one list of lines.
-/

namespace RandomMachine

/-- How a sink fails. -/
structure SinkFault where
  /-- What writing reports when the sink takes nothing of an offer. -/
  refusal : TransferFault
  /-- What flushing reports, if it fails. -/
  flush : Option TransferFault
  deriving DecidableEq, Repr

namespace SinkFault

/-- The sink reports that it is full. -/
def reportFull : SinkFault := ⟨.full, none⟩

/-- The sink accepts nothing without a report. -/
def acceptNothing : SinkFault := ⟨.nothingAccepted, none⟩

/-- The sink reports that it is full, and flushing fails. -/
def failFlush : SinkFault := ⟨.full, some .flush⟩

end SinkFault

/-- A receiver of bytes. Specification, section 9. -/
structure Sink where
  /-- How many bytes are accepted in all, unless there is no limit. -/
  limit : Option Nat := none
  fault : SinkFault := .reportFull
  /-- How many bytes of an offer are taken at once, after a number of bytes that have been accepted
  and for a number that are offered. Where there is room, at least one is taken. -/
  pace : (accepted size : Nat) → Nat := fun _ size => size
  /-- The bytes accepted so far. -/
  accepted : ByteArray := .empty
  /-- How many bytes were taken of each offer so far, of the last one first. -/
  answers : List Nat := []

namespace Sink

/-- How many more bytes are accepted of `size` bytes. -/
def room (sink : Sink) (size : Nat) : Nat :=
  match sink.limit with
  | some limit => min size (limit - sink.accepted.size)
  | none => size

/-- How many bytes are taken at once of an offer of `size` bytes. -/
def taken (sink : Sink) (size : Nat) : Nat :=
  min (sink.room size) (max 1 (sink.pace sink.accepted.size size))

/-- Offers bytes once. -/
def offer (sink : Sink) (bytes : ByteArray) : Sink :=
  let taken := sink.taken bytes.size
  { sink with
    accepted := sink.accepted ++ bytes.extract 0 taken
    answers := taken :: sink.answers }

/-- Offers bytes until all of them are accepted, each time from the first one that is not. An offer
that nothing is taken of fails for good: a sink that merely asks to be offered the same bytes again
has not refused them, and such an offer does not count. -/
def write (sink : Sink) (bytes : ByteArray) : Option TransferFault × Sink :=
  if bytes.size = 0 then (none, sink)
  else if sink.taken bytes.size = 0 then (some sink.fault.refusal, sink.offer bytes)
  else (sink.offer bytes).write (bytes.extract (sink.taken bytes.size) bytes.size)
termination_by bytes.size
decreasing_by
  rw [ByteArray.size_extract]
  omega

/-- Offers texts one after another. The first failure is the failure of the whole. -/
def writeAll (sink : Sink) : List String → Option TransferFault × Sink
  | [] => (none, sink)
  | text :: rest =>
    match sink.write text.toUTF8 with
    | (none, sink) => sink.writeAll rest
    | (some fault, sink) => (some fault, sink)

/-- Decoding gives back the text that was encoded. -/
theorem fromUTF8?_toUTF8 (text : String) : String.fromUTF8? text.toUTF8 = some text := by
  rw [String.fromUTF8?, String.toUTF8_eq_toByteArray, dif_pos text.isValidUTF8]
  rfl

/-- The text of what was accepted. It is empty if a character has been cut. -/
def text (sink : Sink) : String := (String.fromUTF8? sink.accepted).getD ""

/-- A text that was accepted as a whole is the text of the sink. -/
theorem text_of_accepted {sink : Sink} {text : String} (h : sink.accepted = text.toUTF8) :
    sink.text = text := by
  rw [Sink.text, h, fromUTF8?_toUTF8, Option.getD_some]

/-- Makes what was accepted final. -/
def flush (sink : Sink) : Option TransferFault := sink.fault.flush

/-- No more is accepted than was offered. -/
theorem room_le (sink : Sink) (size : Nat) : sink.room size ≤ size := by
  unfold room
  split
  · exact Nat.min_le_left _ _
  · exact Nat.le_refl _

/-- No more is taken than there is room for. -/
theorem taken_le_room (sink : Sink) (size : Nat) : sink.taken size ≤ sink.room size :=
  Nat.min_le_left _ _

/-- Something is taken of every offer that there is room for. -/
theorem taken_eq_zero_iff (sink : Sink) (size : Nat) :
    sink.taken size = 0 ↔ sink.room size = 0 := by
  unfold taken
  omega

end Sink

/-- Writes the C source of a program to a sink, and flushes it. The result is the tally of the
program. Preamble, constants, main function, blocks and ending are each written line by line, and
each hands on its first failure at once, so that writing their lines in one go is the same. -/
def Program.emit (program : Program) (settings : Settings) (sink : Sink) :
    Except Error Tally × Sink :=
  match sink.writeAll ((Source.programLines settings program).map (· ++ "\n")) with
  | (some fault, sink) => (.error (.transfer fault), sink)
  | (none, sink) =>
    match sink.flush with
    | some fault => (.error (.transfer fault), sink)
    | none => (.ok (program.tally settings), sink)

/-- Emission of a program into a sink without a limit: its tally and the text that the sink holds. -/
def Program.emitText (program : Program) (settings : Settings) : Except Error (Tally × String) :=
  match program.emit settings {} with
  | (.ok tally, sink) => .ok (tally, sink.text)
  | (.error error, _) => .error error

end RandomMachine
