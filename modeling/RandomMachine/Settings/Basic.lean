import RandomMachine.Numeral

/-!
# Settings

The parameters of a program and of its run, their defaults, the conditions they have to meet, and
the slot arithmetic they fix. Slots are numbered modulo the program size, a power of two.
-/

namespace RandomMachine

/-- Where memory content comes from. Specification, section E7. -/
inductive DramMode
  | simulated
  | buffer
  deriving DecidableEq, Repr

/-- Whether calls check the capacity of the stack. Specification, section E7. -/
inductive OverflowPolicy
  | unchecked
  | fault
  deriving DecidableEq, Repr

/-- Parameters of a program and of its run. Specification, section E7. -/
structure Settings where
  /-- Number of instruction slots. -/
  programSize : UInt64 := 512
  /-- Number of instructions after which a run halts. -/
  budget : UInt64 := 1048576
  /-- Seed of the keystream, if it is fixed. -/
  seed : Option UInt64 := none
  dram : DramMode := .simulated
  /-- Capacity of the call stack; every call takes two entries. -/
  stackLength : UInt64 := 32768
  stackOverflow : OverflowPolicy := .unchecked
  /-- Whether the emitted program prints its running time. -/
  reportRuntime : Bool := true
  deriving DecidableEq, Repr

/-- Why settings do not describe a program that can be emitted or run. -/
inductive SettingsFault
  | programSize (found : UInt64)
  | noBudget
  | stackLength (found : UInt64)
  | bufferedMemory
  | slotCount (found : Nat) (expected : UInt64)
  deriving DecidableEq, Repr

/-- Wording of a refusal of settings. -/
def SettingsFault.message : SettingsFault → String
  | .programSize found =>
    "program_size must be a power of two >= 4, got " ++ Numeral.decimal found.toNat
  | .noBudget => "instruction_count must be non-zero"
  | .stackLength found =>
    "stack_length must be an even number >= 2, got " ++ Numeral.decimal found.toNat
  | .bufferedMemory => "the model only supports simulated DRAM reads"
  | .slotCount found expected =>
    "program has " ++ Numeral.decimal found ++ " slots, configuration expects " ++
      Numeral.decimal expected.toNat

namespace Settings

/-- The first condition that settings fail to meet, if there is one. Specification, section E7. -/
def fault? (settings : Settings) : Option SettingsFault :=
  let size := settings.programSize.toNat
  if size ≠ 1 <<< size.log2 ∨ size < 4 then some (.programSize settings.programSize)
  else if settings.budget = 0 then some .noBudget
  else if settings.stackLength.toNat < 2 ∨ settings.stackLength.toNat % 2 ≠ 0 then
    some (.stackLength settings.stackLength)
  else none

/-- Bits of the short immediate that count in a call: a quarter of the program is in reach. -/
def callOffsetMask (settings : Settings) : UInt64 := (settings.programSize >>> 2) - 1

/-- The slot after a slot; the last one is followed by the first. -/
def nextSlot (settings : Settings) (slot : UInt64) : UInt64 :=
  (slot + 1) &&& (settings.programSize - 1)

/-- The slot that a call leads to: past the next slot by as much as the short immediate asks for.
Specification, section 4.4. -/
def callTarget (settings : Settings) (slot : UInt64) (shortImmediate : UInt8) : UInt64 :=
  (slot + 1 + (shortImmediate.toUInt64 &&& settings.callOffsetMask)) &&& (settings.programSize - 1)

end Settings
end RandomMachine
