import RandomMachine.Instruction

/-!
# Operand locations

Where an instruction finds its operands and leaves its result: simulated DRAM, one of two windows
onto the scratchpad, a register, or the instruction itself.
-/

namespace RandomMachine

/-- Bytes of a memory cell. -/
def cellSize : Nat := 8

/-- Number of cells in the scratchpad, which holds 256 KiB. -/
def scratchpadLength : Nat := 32768

/-- Bytes of the scratchpad. -/
def scratchpadSize : Nat := scratchpadLength * cellSize

/-- A window onto the first cells of the scratchpad: 16 KiB, or all of it. Specification,
sections 3 and E4. -/
inductive Window
  | l1
  | l2
  deriving DecidableEq, Repr

namespace Window

/-- Address bits that select a cell of the window. -/
def mask : Window → UInt32
  | .l1 => 2047
  | .l2 => 32767

/-- Name of the window in listings. -/
def name : Window → String
  | .l1 => "L1"
  | .l2 => "L2"

/-- Cell that an address selects. -/
def index (window : Window) (address : UInt32) : Fin scratchpadLength :=
  ⟨(address &&& window.mask).toNat, by
    have h : (address &&& window.mask).toNat ≤ window.mask.toNat := by
      rw [UInt32.toNat_and]
      exact Nat.and_le_right
    have : window.mask.toNat < scratchpadLength := by cases window <;> decide
    omega⟩

/-- A window repeats every time its cells have been passed. -/
theorem val_index (window : Window) (address : UInt32) :
    (window.index address).val = address.toNat % (window.mask.toNat + 1) := by
  cases window
  · exact Nat.and_two_pow_sub_one_eq_mod address.toNat 11
  · exact Nat.and_two_pow_sub_one_eq_mod address.toNat 15

end Window

/-- Where operand A is read. -/
inductive SourceA
  | dram
  | scratchpad (window : Window)
  deriving DecidableEq, Repr

/-- Where operand B is read. -/
inductive SourceB
  | register (number : UInt8)
  | immediate
  deriving DecidableEq, Repr

/-- Where the result goes. -/
inductive Destination
  | register (number : UInt8)
  | scratchpad (window : Window) (register : UInt8) (address : UInt32)
  deriving DecidableEq, Repr

/-- Whether a result goes to the scratchpad. -/
def Destination.isMemory : Destination → Bool
  | .register _ => false
  | .scratchpad .. => true

namespace Instruction

/-- Operand A comes from DRAM in half of the places, from the small window in most others.
Specification, section E4. -/
def sourceA (d : Instruction) : SourceA :=
  match (d.placeA &&& 7).toNat with
  | 0 | 1 | 2 | 3 => .dram
  | 4 => .scratchpad .l2
  | _ => .scratchpad .l1

/-- Operand B is a register below place six and the immediate from there on. Specification,
section E4. -/
def sourceB (d : Instruction) : SourceB :=
  if d.placeB < 6 then .register d.registerB else .immediate

/-- Results go to the scratchpad in half of the places, to a register in the others. Specification,
section E4. -/
def destination (d : Instruction) : Destination :=
  match (d.placeC &&& 7).toNat with
  | 0 => .scratchpad .l2 d.registerC d.addressC
  | 1 | 2 | 3 => .scratchpad .l1 d.registerC d.addressC
  | _ => .register d.registerC

/-- The one register that operand B can be. -/
theorem sourceB_eq_or (d : Instruction) :
    d.sourceB = .register d.registerB ∨ d.sourceB = .immediate := by
  unfold sourceB
  split
  · exact .inl rfl
  · exact .inr rfl

/-- The one register that a result can go to, which otherwise addresses its cell. -/
theorem destination_eq_or (d : Instruction) :
    d.destination = .register d.registerC ∨
      ∃ window, d.destination = .scratchpad window d.registerC d.addressC := by
  unfold destination
  split
  · exact .inr ⟨.l2, rfl⟩
  · exact .inr ⟨.l1, rfl⟩
  · exact .inr ⟨.l1, rfl⟩
  · exact .inr ⟨.l1, rfl⟩
  · exact .inl rfl

end Instruction
end RandomMachine
