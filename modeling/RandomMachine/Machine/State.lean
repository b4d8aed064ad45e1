import RandomMachine.Binary64.Directed
import RandomMachine.Cell
import RandomMachine.Dram
import RandomMachine.Error
import RandomMachine.Location
import RandomMachine.Program

/-!
# Machine states

A machine is a program with its settings; a state is everything that running it changes. Register
numbers and slots come from instruction records and need not be in range: reading out of range
gives a default, writing there changes nothing.
-/

namespace RandomMachine

/-- Number of registers in each file. -/
def registerCount : Nat := 8

/-- The registers of one file. -/
abbrev RegisterFile (α : Type) := Vector α registerCount

/-- Content of a register. -/
def RegisterFile.read {α : Type} [Inhabited α] (file : RegisterFile α) (number : UInt8) : α :=
  file[number.toNat]?.getD default

/-- Replaces the content of a register. -/
def RegisterFile.write {α : Type} (file : RegisterFile α) (number : UInt8) (value : α) :
    RegisterFile α :=
  file.setIfInBounds number.toNat value

/-- A register holds what was last written to it. A number out of range names no register. -/
theorem RegisterFile.read_write {α : Type} [Inhabited α] (file : RegisterFile α) (i j : UInt8)
    (value : α) :
    (file.write i value).read j =
      if i = j ∧ i.toNat < registerCount then value else file.read j := by
  unfold read write
  rw [Vector.getElem?_setIfInBounds]
  by_cases h : i = j
  · subst h
    by_cases hi : i.toNat < registerCount <;> simp [hi]
  · have : i.toNat ≠ j.toNat := fun e => h (UInt8.toNat_inj.mp e)
    simp [h, this]

/-- What a call leaves on the stack. -/
structure Frame where
  value : UInt64
  returnSlot : UInt64
  deriving DecidableEq, Repr, Inhabited

/-- Everything that a step may change. -/
structure State where
  /-- Integer registers. -/
  r : RegisterFile UInt64
  /-- Float registers. -/
  f : RegisterFile Binary64
  scratchpad : Vector Cell scratchpadLength
  /-- Frames of the open calls, the innermost one last. -/
  stack : Array Frame
  cursor : DramCursor
  mode : RoundingMode
  /-- Number of instructions that may still run. -/
  budget : UInt64
  /-- The slot that runs next. -/
  slot : UInt64
  /-- Number of instructions that have run. -/
  executed : UInt64
  deriving DecidableEq

/-- A program with the settings it runs under. Specification, section E12. -/
structure Machine where
  settings : Settings
  instructions : Array Instruction
  deriving DecidableEq, Repr

/-- Word of a register image with this number. -/
def imageWord (image : Vector UInt8 imageLength) (number : Fin 16) : UInt64 :=
  littleEndian (Vector.ofFn fun i =>
    image.get ⟨8 * number.val + i.val, by simp only [imageLength]; omega⟩)

/-- The word that an integer register starts with. -/
def integerWord (image : Vector UInt8 imageLength) (i : Fin registerCount) : UInt64 :=
  imageWord image (i.castLE (by decide))

/-- The word that a float register is converted from. -/
def floatWord (image : Vector UInt8 imageLength) (i : Fin registerCount) : UInt64 :=
  imageWord image (i.natAdd 8)

namespace Machine

/-- The instruction in a slot. -/
def instruction (m : Machine) (slot : UInt64) : Instruction :=
  m.instructions[slot.toNat]?.getD {}

/-- A machine and the state in which its run begins. The settings are checked first, then whether
they can be modeled, the number of instructions, and the size of the scratchpad. The integer
registers are the first words of the register image, the float registers the others, converted from
signed integers. The stack grows as it is used. A machine that reserves it ahead has no room for the
stack lengths from `2 ^ 60` on, which are loaded here. Specification, sections 4.5 and E12. -/
def load (settings : Settings) (instructions : Array Instruction) (key : Vector UInt8 keyLength)
    (image : Vector UInt8 imageLength) (scratchpad : Array Cell) : Except Error (Machine × State) :=
  match settings.fault? with
  | some fault => .error (.settings fault)
  | none =>
    if settings.dram = .buffer then .error (.settings .bufferedMemory)
    else if instructions.size ≠ settings.programSize.toNat then
      .error (.settings (.slotCount instructions.size settings.programSize))
    else if h : scratchpad.size = scratchpadLength then
      .ok (⟨settings, instructions⟩,
        { r := Vector.ofFn (integerWord image)
          f := Vector.ofFn fun i =>
            RoundingMode.nearest.ofInt (floatWord image i).toInt64.toInt
          scratchpad := ⟨scratchpad, h⟩
          stack := #[]
          cursor := .ofKey key
          mode := .nearest
          budget := settings.budget
          slot := 0
          executed := 0 })
    else .error (.scratchpadSize scratchpadLength scratchpad.size)

end Machine

/-- Sum of all cells of the scratchpad. -/
def State.checksum (s : State) : UInt64 :=
  s.scratchpad.foldl (fun sum cell => sum + cell.bits) 0

end RandomMachine
