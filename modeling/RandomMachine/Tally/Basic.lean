import RandomMachine.Location
import RandomMachine.Program

/-!
# Tallies

A tally counts the instructions of a program by family and kind, by condition, and by where they
read and write. Counting is order-free: each instruction adds to the counters it belongs to.
-/

namespace RandomMachine

/-- Counters of calls or returns. -/
structure BranchCount where
  conditional : Nat := 0
  unconditional : Nat := 0
  deriving DecidableEq, Repr

/-- Counts an instruction with or without a condition. -/
def BranchCount.record (count : BranchCount) (conditional : Bool) : BranchCount :=
  if conditional then { count with conditional := count.conditional + 1 }
  else { count with unconditional := count.unconditional + 1 }

/-- Number of families. -/
abbrev familyCount : Nat := 30

/-- Number of kinds of families. -/
abbrev classCount : Nat := 6

/-- Counters of a program. Specification, section E10. -/
structure Tally where
  /-- Seed of the program. -/
  seed : UInt64
  /-- Budget of the program's run. -/
  budget : UInt64
  slots : Nat := 0
  perFamily : Vector Nat familyCount := .replicate _ 0
  perClass : Vector Nat classCount := .replicate _ 0
  calls : BranchCount := {}
  returns : BranchCount := {}
  dramReads : Nat := 0
  scratchpadReads : Nat := 0
  memoryDestinations : Nat := 0
  registerDestinations : Nat := 0
  deriving DecidableEq, Repr

/-- Position of a kind among all kinds. -/
def FamilyClass.index (kind : FamilyClass) : Fin classCount :=
  ⟨kind.ctorIdx, by cases kind <;> decide⟩

/-- Whether a call or return depends on a register. -/
def Instruction.isConditional (d : Instruction) : Bool :=
  match d.sourceB with
  | .register _ => true
  | .immediate => false

/-- Whether an instruction ever writes its destination; a call without a condition does not. -/
def Instruction.writesDestination (d : Instruction) : Bool :=
  d.family != .call || d.isConditional

namespace Tally

/-- Adds one to a counter. -/
def increment {n : Nat} (counters : Vector Nat n) (i : Fin n) : Vector Nat n :=
  counters.set i (counters[i] + 1)

/-- Counts one instruction. Specification, section E10. -/
def record (tally : Tally) (d : Instruction) : Tally :=
  { tally with
    slots := tally.slots + 1
    perFamily := increment tally.perFamily d.family.index
    perClass := increment tally.perClass d.family.familyClass.index
    calls := if d.family = .call then tally.calls.record d.isConditional else tally.calls
    returns := if d.family = .ret then tally.returns.record d.isConditional else tally.returns
    dramReads := tally.dramReads + if d.sourceA = .dram then 1 else 0
    scratchpadReads := tally.scratchpadReads + if d.sourceA = .dram then 0 else 1
    memoryDestinations :=
      tally.memoryDestinations +
        if d.writesDestination && d.destination.isMemory then 1 else 0
    registerDestinations :=
      tally.registerDestinations +
        if d.writesDestination && !d.destination.isMemory then 1 else 0 }

/-- Counts instructions one after another. -/
def recordAll (tally : Tally) (instructions : List Instruction) : Tally :=
  instructions.foldl record tally

/-- Number of instructions of a family. -/
def ofFamily (tally : Tally) (family : Family) : Nat := tally.perFamily[family.index]

/-- Number of instructions of a kind of families. -/
def ofClass (tally : Tally) (kind : FamilyClass) : Nat := tally.perClass[kind.index]

/-- Adding one to a counter leaves the others as they are. -/
theorem getElem_increment {n : Nat} (counters : Vector Nat n) (i j : Fin n) :
    (increment counters i)[j] = if i = j then counters[j] + 1 else counters[j] := by
  simp only [increment, Fin.getElem_fin, Vector.getElem_set]
  by_cases h : i = j
  · subst h
    simp only [if_true]
  · have : i.val ≠ j.val := fun e => h (Fin.ext e)
    simp only [h, this, if_false]

/-- Counting can stop and go on. -/
theorem recordAll_append (tally : Tally) (xs ys : List Instruction) :
    tally.recordAll (xs ++ ys) = (tally.recordAll xs).recordAll ys :=
  List.foldl_append

/-- Every instruction takes one slot. -/
theorem slots_recordAll (tally : Tally) (instructions : List Instruction) :
    (tally.recordAll instructions).slots = tally.slots + instructions.length := by
  induction instructions generalizing tally with
  | nil => rfl
  | cons d rest ih =>
    rw [List.length_cons, Nat.add_comm rest.length, ← Nat.add_assoc]
    exact ih (tally.record d)

end Tally

/-- The tally of a program under the settings it runs under. -/
def Program.tally (program : Program) (settings : Settings) : Tally :=
  ({ seed := program.seed, budget := settings.budget } : Tally).recordAll
    program.instructions.toList

end RandomMachine
