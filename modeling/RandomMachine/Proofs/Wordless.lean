import RandomMachine.Proofs.Machine.Transition
import RandomMachine.Source.Sink

/-!
# Records without their words

A record keeps the word it was read from, with bits that no field reads. Nothing that is made of a
program looks at it: each reader of records in turn does the same with a record as with its fields
alone, and so do the texts, the tally, the emission and the run of a program.
-/

namespace RandomMachine

/-- The fields of a record alone, as if they were not read from any word. -/
def Instruction.wordless (d : Instruction) : Instruction := { d with word := 0 }

/-! ### Readers of one record -/

namespace Instruction

variable (d : Instruction)

/-- The family is told by the opcode. -/
theorem family_wordless : d.wordless.family = d.family := rfl

/-- The listing shows the fields. -/
theorem listing_wordless : d.wordless.listing = d.listing := rfl

/-- The block of a slot is made of the fields. -/
theorem block_wordless (settings : Settings) (slot : UInt64) :
    Source.block settings slot d.wordless = Source.block settings slot d := rfl

/-- A tally counts by the fields. -/
theorem record_wordless (tally : Tally) : tally.record d.wordless = tally.record d := rfl

/-- The constant that is mixed in, and its register, are fields. -/
theorem mixAddress_wordless (s : State) : s.mixAddress d.wordless = s.mixAddress d := rfl

/-- Operand A is read where the fields say. -/
theorem readA_wordless (s : State) : s.readA d.wordless = s.readA d := rfl

/-- A result goes where the fields say. -/
theorem store_wordless (s : State) (value : Scalar) :
    s.store d.wordless value = s.store d value := rfl

/-- A result is computed from the fields. -/
theorem result_wordless (s : State) (a : Cell) : s.result d.wordless a = s.result d a := rfl

/-- The rounding mode is set by the opcode. -/
theorem nextMode_wordless (s : State) (a : Cell) : s.nextMode d.wordless a = s.nextMode d a := rfl

/-- The fields decide whether a call or return is taken. -/
theorem condition_wordless (s : State) : s.condition d.wordless = s.condition d := rfl

end Instruction

/-! ### Texts and tallies of programs -/

/-- A program whose records keep no words. -/
def Program.wordless (program : Program) : Program :=
  { program with instructions := program.instructions.map Instruction.wordless }

/-- Blocks follow each other as the records do. -/
theorem Source.blockLines_wordless (settings : Settings) (slot : Nat)
    (instructions : List Instruction) :
    blockLines settings slot (instructions.map Instruction.wordless) =
      blockLines settings slot instructions := by
  induction instructions generalizing slot with
  | nil => rfl
  | cons d rest ih => rw [List.map_cons, blockLines, blockLines, d.block_wordless, ih]

/-- Records are counted one after another. -/
theorem Tally.recordAll_wordless (tally : Tally) (instructions : List Instruction) :
    tally.recordAll (instructions.map Instruction.wordless) = tally.recordAll instructions := by
  induction instructions generalizing tally with
  | nil => rfl
  | cons d rest ih =>
    change (tally.record d.wordless).recordAll (rest.map Instruction.wordless) =
      (tally.record d).recordAll rest
    rw [d.record_wordless, ih]

namespace Program

variable (program : Program) (settings : Settings)

/-- The lines of a program do not show the words of its records. -/
theorem programLines_wordless :
    Source.programLines settings program.wordless = Source.programLines settings program := by
  have hblocks : Source.blockLines settings 0 program.wordless.instructions.toList =
      Source.blockLines settings 0 program.instructions.toList := by
    rw [wordless, Array.toList_map, Source.blockLines_wordless]
  unfold Source.programLines
  rw [hblocks]
  rfl

/-- The source of a program does not show the words of its records. -/
theorem source_wordless : program.wordless.source settings = program.source settings := by
  rw [source, source, programLines_wordless]

/-- The tally of a program does not count the words of its records. -/
theorem tally_wordless : program.wordless.tally settings = program.tally settings := by
  rw [tally, tally, wordless, Array.toList_map, Tally.recordAll_wordless]

/-- A sink is offered the same, and the result is the same. -/
theorem emit_wordless (sink : Sink) :
    program.wordless.emit settings sink = program.emit settings sink := by
  rw [emit, emit, programLines_wordless, tally_wordless]

/-- The listing of a program does not show the words of its records. -/
theorem listing_wordless : program.wordless.listing = program.listing := by
  rw [listing, listing, wordless, Array.toList_map]
  refine congrArg String.join (List.ext_getElem? fun slot => ?_)
  rw [List.getElem?_mapIdx, List.getElem?_mapIdx, List.getElem?_map, Option.map_map]
  exact congrArg (Option.map · _) (funext fun d => by rw [Function.comp_apply, d.listing_wordless])

end Program

/-! ### Runs -/

namespace Machine

variable (m : Machine)

/-- A machine whose records keep no words. -/
def wordless : Machine := { m with instructions := m.instructions.map Instruction.wordless }

/-- The record in a slot, without its word. -/
theorem instruction_wordless (slot : UInt64) :
    m.wordless.instruction slot = (m.instruction slot).wordless := by
  unfold instruction wordless
  rw [Array.getElem?_map]
  cases m.instructions[slot.toNat]? <;> rfl

/-- The same operand A is read, and the same state is left. -/
theorem fetch_wordless (s : State) : m.wordless.fetch s = m.fetch s := by
  rw [fetch, fetch, instruction_wordless, Instruction.mixAddress_wordless,
    Instruction.readA_wordless]

/-- A call reads its offset, and the machine its settings. -/
theorem call_wordless (d : Instruction) (value : UInt64) (s : State) :
    m.wordless.call d.wordless value s = m.call d value s := rfl

/-- An instruction does the same once operand A has been read. -/
theorem execute_wordless (d : Instruction) (a : Cell) (s : State) :
    m.wordless.execute d.wordless a s = m.execute d a s := by
  unfold execute
  rw [d.family_wordless]
  split
  · rw [d.condition_wordless, call_wordless, d.store_wordless]
    rfl
  · rw [d.condition_wordless]
    split <;> rw [d.store_wordless]
    rfl
  · rw [d.result_wordless, d.nextMode_wordless]
    dsimp only
    rw [d.store_wordless]
    rfl

/-- A step does the same from every state. -/
theorem step_wordless (s : State) : m.wordless.step s = m.step s := by
  by_cases hbudget : s.budget = 0
  · rw [step_of_budget_zero _ s hbudget, step_of_budget_zero _ s hbudget]
  · rw [step_of_budget_ne_zero _ s hbudget, step_of_budget_ne_zero _ s hbudget, fetch_wordless,
      instruction_wordless, execute_wordless]

/-- Any number of steps leads to the same state. -/
theorem after_wordless (s : State) (n : Nat) : m.wordless.after s n = m.after s n := by
  induction n with
  | zero => rfl
  | succ n ih => rw [after, after, ih, step_wordless]

/-- A run ends in the same way and in the same state. -/
theorem run_wordless (s : State) : m.wordless.run s = m.run s := by
  have hfuel (fuel : Nat) (s : State) : m.wordless.runFor fuel s = m.runFor fuel s := by
    induction fuel generalizing s with
    | zero => rfl
    | succ fuel ih =>
      rw [runFor, runFor, step_wordless]
      split
      · exact ih _
      · rfl
  exact hfuel _ s

/-- Records without their words are refused for the same reason, and begin their run in the same
state. -/
theorem load_wordless (settings : Settings) (instructions : Array Instruction)
    (key : Vector UInt8 keyLength) (image : Vector UInt8 imageLength) (scratchpad : Array Cell) :
    load settings (instructions.map Instruction.wordless) key image scratchpad =
      (load settings instructions key image scratchpad).map (Prod.map wordless id) := by
  unfold load
  rw [Array.size_map]
  cases settings.fault? with
  | some fault => rfl
  | none =>
    dsimp only
    split
    · rfl
    split
    · rfl
    split
    · rfl
    · rfl

end Machine
end RandomMachine
