import Mathlib.Algebra.Group.Nat.Defs
import RandomMachine.Machine.Step

/-!
# Checked steps

A step that trusts nothing: every access to an array tests its index, every sum and product tests
its width, and every division tests its divisor. A test that fails traps. Where no test fails, the
checked step is the step.
-/

namespace RandomMachine

/-- What an operation traps on. -/
inductive Trap
  /-- An index past the end of an array. -/
  | index
  /-- A number that leaves its width. -/
  | overflow
  /-- A divisor of zero. -/
  | divisor
  deriving DecidableEq, Repr

namespace Trap

/-- An element that has to be there. -/
def element {α : Type} (found : Option α) : Except Trap α :=
  match found with
  | some x => .ok x
  | none => .error .index

/-- An element that is there is found. -/
theorem element_some {α : Type} (x : α) : element (some x) = .ok x := rfl

/-- A number that has to fit in a word. -/
def word (n : Nat) : Except Trap UInt64 := if n < 2 ^ 64 then .ok (.ofNat n) else .error .overflow

/-- A difference that has to be a word. -/
def difference (a b : UInt64) : Except Trap UInt64 :=
  if b ≤ a then .ok (a - b) else .error .overflow

/-- What follows a success is applied to it. -/
theorem ok_bind {α β : Type} (x : α) (f : α → Except Trap β) : (Except.ok x >>= f) = f x := rfl

/-- A sum of words that fits is their sum modulo `2 ^ 64`. -/
theorem word_add {a b : UInt64} (h : a.toNat + b.toNat < 2 ^ 64) :
    word (a.toNat + b.toNat) = .ok (a + b) := by
  rw [word, if_pos h, UInt64.ofNat_add, UInt64.ofNat_toNat, UInt64.ofNat_toNat]

/-- A difference in order is the difference. -/
theorem difference_of_le {a b : UInt64} (h : b.toNat ≤ a.toNat) :
    difference a b = .ok (a - b) := by
  rw [difference, if_pos (UInt64.le_iff_toNat_le.mpr h)]

end Trap

/-! ### Registers and slots -/

namespace RegisterFile

variable {α : Type}

/-- Content of a register that has to exist. -/
def checkedRead (file : RegisterFile α) (number : UInt8) : Except Trap α :=
  Trap.element file[number.toNat]?

/-- Replaces the content of a register that has to exist. -/
def checkedWrite (file : RegisterFile α) (number : UInt8) (value : α) :
    Except Trap (RegisterFile α) :=
  if number.toNat < registerCount then .ok (file.write number value) else .error .index

/-- The numbers below eight are those of registers. -/
theorem checkedRead_of_lt [Inhabited α] (file : RegisterFile α) {number : UInt8}
    (h : number.toNat < registerCount) : file.checkedRead number = .ok (file.read number) := by
  unfold checkedRead read
  rw [Vector.getElem?_eq_getElem h]
  rfl

/-- The numbers below eight are those of registers. -/
theorem checkedWrite_of_lt (file : RegisterFile α) {number : UInt8}
    (h : number.toNat < registerCount) (value : α) :
    file.checkedWrite number value = .ok (file.write number value) :=
  if_pos h

end RegisterFile

namespace Settings

/-- The slot after a slot. -/
def checkedNextSlot (settings : Settings) (slot : UInt64) : Except Trap UInt64 := do
  let next ← Trap.word (slot.toNat + (1 : UInt64).toNat)
  let mask ← Trap.difference settings.programSize 1
  return next &&& mask

/-- The slot that a call leads to. -/
def checkedCallTarget (settings : Settings) (slot : UInt64) (shortImmediate : UInt8) :
    Except Trap UInt64 := do
  let offsetMask ← Trap.difference (settings.programSize >>> 2) 1
  let next ← Trap.word (slot.toNat + (1 : UInt64).toNat)
  let target ← Trap.word (next.toNat + (shortImmediate.toUInt64 &&& offsetMask).toNat)
  let mask ← Trap.difference settings.programSize 1
  return target &&& mask

variable {settings : Settings} {slot : UInt64}

/-- Slots of a program of at least one and at most `2 ^ 63` slots can be counted on. -/
theorem checkedNextSlot_eq (hpos : 1 ≤ settings.programSize.toNat)
    (hle : settings.programSize.toNat ≤ 2 ^ 63)
    (hslot : slot.toNat < settings.programSize.toNat) :
    settings.checkedNextSlot slot = .ok (settings.nextSlot slot) := by
  have hone : (1 : UInt64).toNat = 1 := rfl
  unfold checkedNextSlot
  rw [Trap.word_add (by omega), Trap.difference_of_le (by omega)]
  rfl

/-- An offset of eight bits does not leave 64 bits from any slot. -/
theorem checkedCallTarget_eq (hpos : 4 ≤ settings.programSize.toNat)
    (hle : settings.programSize.toNat ≤ 2 ^ 63)
    (hslot : slot.toNat < settings.programSize.toNat) (shortImmediate : UInt8) :
    settings.checkedCallTarget slot shortImmediate =
      .ok (settings.callTarget slot shortImmediate) := by
  have hone : (1 : UInt64).toNat = 1 := rfl
  have hquarter : (settings.programSize >>> 2).toNat = settings.programSize.toNat / 4 := by
    rw [UInt64.toNat_shiftRight, Nat.shiftRight_eq_div_pow]
    rfl
  have hoffset : (shortImmediate.toUInt64 &&& settings.callOffsetMask).toNat < 256 := by
    rw [UInt64.toNat_and, UInt8.toNat_toUInt64]
    exact Nat.lt_of_le_of_lt Nat.and_le_left shortImmediate.toNat_lt
  have hnext : (slot + 1).toNat = slot.toNat + 1 := by
    rw [UInt64.toNat_add]
    exact Nat.mod_eq_of_lt (by omega)
  unfold checkedCallTarget
  rw [Trap.difference_of_le (by omega), Trap.word_add (by omega),
    Trap.difference_of_le (a := settings.programSize) (by omega)]
  change (do
    let target ← Trap.word ((slot + 1).toNat +
      (shortImmediate.toUInt64 &&& settings.callOffsetMask).toNat)
    return target &&& (settings.programSize - 1)) = _
  rw [Trap.word_add (by omega)]
  rfl

end Settings

/-! ### Integer arithmetic -/

/-- What the arithmetic of an integer family traps on: a product that leaves the width it is formed
in, a divisor of zero, or a shift by 64 bits and more. All other families wrap. -/
def Family.integerTrap? (family : Family) (a b : UInt64) : Option Trap :=
  match family with
  | .mulh64 => if 2 ^ 128 ≤ a.toNat * b.toNat then some .overflow else none
  | .mul32 => if 2 ^ 64 ≤ a.toUInt32.toNat * b.toUInt32.toNat then some .overflow else none
  | .imul32 =>
    if 2 ^ 63 ≤ (signedLow a * signedLow b).natAbs then some .overflow else none
  | .imulh64 =>
    if 2 ^ 127 ≤ (signedWord a * signedWord b).natAbs then some .overflow else none
  | .div64 =>
    if (if b.toUInt32 = 0 then 1 else b.toUInt32.toUInt64) = 0 then some .divisor else none
  | .idiv64 => if (if b.toUInt32 = 0 then 1 else signedLow b) = 0 then some .divisor else none
  | .shl64 | .shr64 | .sar64 => if 64 ≤ (b &&& 63).toNat then some .overflow else none
  | _ => none

namespace Family

/-- A product of two magnitudes stays below the product of their bounds. -/
theorem natAbs_mul_lt {a b : Int} {n : Nat} (ha : a.natAbs ≤ 2 ^ n) (hb : b.natAbs ≤ 2 ^ n) :
    (a * b).natAbs < 2 ^ (2 * n + 1) := by
  rw [Int.natAbs_mul]
  calc a.natAbs * b.natAbs ≤ 2 ^ n * 2 ^ n := Nat.mul_le_mul ha hb
    _ = 2 ^ (2 * n) := by rw [← Nat.pow_add, Nat.two_mul]
    _ < 2 ^ (2 * n + 1) := Nat.pow_lt_pow_right (by decide) (by omega)

/-- A divisor is never zero: a zero has been replaced. -/
theorem divisor_ne_zero (b : UInt64) :
    (if b.toUInt32 = 0 then 1 else b.toUInt32.toUInt64) ≠ 0 ∧
      (if b.toUInt32 = 0 then 1 else signedLow b) ≠ 0 := by
  by_cases hb : b.toUInt32 = 0
  · rw [if_pos hb, if_pos hb]
    decide
  rw [if_neg hb, if_neg hb]
  constructor
  · intro h
    apply hb
    rw [← UInt32.toNat_inj, ← UInt32.toNat_toUInt64, h]
    rfl
  · intro h
    apply hb
    have hzero : b.toUInt32.toInt32 = 0 := Int32.toInt_inj.mp h
    rw [← UInt32.toUInt32_toInt32 b.toUInt32, hzero]
    rfl

/-- The arithmetic of no family traps. -/
theorem integerTrap?_eq_none (family : Family) (a b : UInt64) :
    family.integerTrap? a b = none := by
  have hamount : (b &&& 63).toNat < 64 := by
    rw [UInt64.toNat_and]
    exact Nat.lt_of_le_of_lt Nat.and_le_right (by decide)
  have hlow (word : UInt64) : (signedLow word).natAbs ≤ 2 ^ 31 := by
    have h1 := word.toUInt32.toInt32.toInt_lt
    have h2 := word.toUInt32.toInt32.le_toInt
    unfold signedLow
    omega
  have hword (word : UInt64) : (signedWord word).natAbs ≤ 2 ^ 63 := by
    have h1 := word.toInt64.toInt_lt
    have h2 := word.toInt64.le_toInt
    unfold signedWord
    omega
  cases family with
  | mulh64 =>
    exact if_neg (Nat.not_le_of_lt (Nat.mul_lt_mul'' a.toNat_lt b.toNat_lt))
  | mul32 =>
    exact if_neg (Nat.not_le_of_lt (Nat.mul_lt_mul'' a.toUInt32.toNat_lt b.toUInt32.toNat_lt))
  | imul32 => exact if_neg (Nat.not_le_of_lt (natAbs_mul_lt (hlow a) (hlow b)))
  | imulh64 => exact if_neg (Nat.not_le_of_lt (natAbs_mul_lt (hword a) (hword b)))
  | div64 => exact if_neg (divisor_ne_zero b).1
  | idiv64 => exact if_neg (divisor_ne_zero b).2
  | shl64 | shr64 | sar64 => exact if_neg (Nat.not_le_of_lt hamount)
  | _ => rfl

end Family

/-! ### Operands and results -/

namespace State

/-- Mixes the constant of an instruction into its address register. -/
def checkedMixAddress (s : State) (d : Instruction) : Except Trap State := do
  let value ← s.r.checkedRead d.registerA
  let r ← s.r.checkedWrite d.registerA (value ^^^ d.addressA.toUInt64)
  return { s with r }

/-- The cell of a window that an address selects. -/
def checkedCell (s : State) (window : Window) (address : UInt32) : Except Trap Cell :=
  Trap.element s.scratchpad.toArray[(address &&& window.mask).toNat]?

/-- Reads operand A. -/
def checkedReadA (s : State) (d : Instruction) : Except Trap (Cell × State) := do
  let address ← s.r.checkedRead d.registerA
  match d.sourceA with
  | .dram =>
    let (word, cursor) := s.cursor.read address.toUInt32
    return (⟨word⟩, { s with cursor })
  | .scratchpad window => return (← s.checkedCell window address.toUInt32, s)

/-- Operand B of an integer family. -/
def checkedIntegerB (s : State) (d : Instruction) (type : OperandType) : Except Trap UInt64 := do
  match d.sourceB with
  | .register number => return wordAs (← s.r.checkedRead number) type
  | .immediate => return (d.immediateAs type).toUInt64

/-- Operand B of a float family. -/
def checkedFloatB (s : State) (d : Instruction) : Except Trap Binary64 := do
  match d.sourceB with
  | .register number => s.f.checkedRead number
  | .immediate => return ⟨floatImmediateBits d.immediate⟩

/-- Whether a call or return is taken. -/
def checkedCondition (s : State) (d : Instruction) : Except Trap Bool := do
  match d.sourceB with
  | .register number => return decide ((← s.r.checkedRead number).toUInt32 ≤ d.immediate)
  | .immediate => return true

/-- Replaces a cell of the scratchpad. -/
def writeCell (s : State) (i : Fin scratchpadLength) (cell : Cell) : State :=
  { s with scratchpad := s.scratchpad.set i cell i.isLt }

/-- Writes a result to the destination of an instruction. -/
def checkedStore (s : State) (d : Instruction) (value : Scalar) : Except Trap State := do
  match d.destination with
  | .register number =>
    match value with
    | .double x => return { s with f := ← s.f.checkedWrite number x }
    | other => return { s with r := ← s.r.checkedWrite number other.toUInt64 }
  | .scratchpad window register addressC =>
    let address := ((← s.r.checkedRead register) ^^^ addressC.toUInt64).toUInt32
    let cell ← s.checkedCell window address
    return s.writeCell (window.index address) (cell.store value)

/-- Result of an instruction that is neither a call nor a return. -/
def checkedResult (s : State) (d : Instruction) (a : Cell) : Except Trap Scalar := do
  match d.family with
  | .fadd => return .double (s.mode.add (s.floatA a) (← s.checkedFloatB d))
  | .fsub => return .double (s.mode.sub (s.floatA a) (← s.checkedFloatB d))
  | .fmul => return .double (s.mode.mul (s.floatA a) (← s.checkedFloatB d))
  | .fdiv => return .double (s.mode.div (s.floatA a) (← s.checkedFloatB d))
  | .fsqrt => return .double (s.mode.sqrtAbs (s.floatA a))
  | .fround => return .double (s.floatA a)
  | family =>
    let a := a.integerAs family.signature.a
    let b ← match family.signature.b with
      | some type => s.checkedIntegerB d type
      | none => pure 0
    match family.integerTrap? a b with
    | some trap => throw trap
    | none => return integerScalar ((family.integerResult a b).getD 0) family.signature.c

end State

/-! ### The step -/

namespace Machine

/-- Takes a call, unless the stack has no room for another frame. -/
def checkedCall (m : Machine) (d : Instruction) (value : UInt64) (s : State) :
    Except Trap (Progress × State) := do
  let entries ← Trap.word (2 * (s.stack.size + 1))
  if m.settings.stackLength < entries then
    return (.done (.stackOverflow s.slot s.executed), s)
  else
    let target ← m.settings.checkedCallTarget s.slot d.shortImmediate
    let returnSlot ← m.settings.checkedNextSlot s.slot
    return continueAt target { s with stack := s.stack.push ⟨value, returnSlot⟩ }

/-- Executes an instruction whose operand A has been read. -/
def checkedExecute (m : Machine) (d : Instruction) (a : Cell) (s : State) :
    Except Trap (Progress × State) := do
  let next ← m.settings.checkedNextSlot s.slot
  match d.family with
  | .call =>
    if ← s.checkedCondition d then m.checkedCall d a.bits s
    else return continueAt next (← s.checkedStore d (.uint64 a.bits))
  | .ret =>
    match if ← s.checkedCondition d then s.stack.back? else none with
    | some frame =>
      return continueAt frame.returnSlot
        (← { s with stack := s.stack.pop }.checkedStore d (.uint64 (a.bits ^^^ frame.value)))
    | none => return continueAt next (← s.checkedStore d (.uint64 a.bits))
  | _ =>
    let value ← s.checkedResult d a
    return continueAt next { (← s.checkedStore d value) with mode := s.nextMode d a }

/-- One step. Without budget it reports the end of the run and changes nothing. -/
def checkedStep (m : Machine) (s : State) : Except Trap (Progress × State) :=
  if s.budget = 0 then return (.done (.halted s.executed), s)
  else do
    let budget ← Trap.difference s.budget 1
    let executed ← Trap.word (s.executed.toNat + (1 : UInt64).toNat)
    let d ← Trap.element m.instructions[s.slot.toNat]?
    let s ← { s with budget, executed }.checkedMixAddress d
    let (a, s) ← s.checkedReadA d
    m.checkedExecute d a s

end Machine

/-! ### Where no test fails -/

/-- The register numbers of an instruction are those of registers. -/
structure Instruction.InRange (d : Instruction) : Prop where
  registerA : d.registerA.toNat < registerCount
  registerB : d.registerB.toNat < registerCount
  registerC : d.registerC.toNat < registerCount

namespace State

variable {d : Instruction} (hd : d.InRange) (s : State)

include hd

/-- The address register exists. -/
theorem checkedMixAddress_eq : s.checkedMixAddress d = .ok (s.mixAddress d) := by
  unfold checkedMixAddress
  rw [s.r.checkedRead_of_lt hd.registerA, Trap.ok_bind,
    s.r.checkedWrite_of_lt hd.registerA, Trap.ok_bind]
  rfl

omit hd in
/-- Every address selects a cell. -/
theorem checkedCell_eq (window : Window) (address : UInt32) :
    s.checkedCell window address = .ok s.scratchpad[window.index address] := by
  have h : (address &&& window.mask).toNat < s.scratchpad.toArray.size := by
    rw [Vector.size_toArray]
    exact (window.index address).isLt
  unfold checkedCell
  rw [Array.getElem?_eq_getElem h]
  rfl

/-- Operand A is there. -/
theorem checkedReadA_eq : s.checkedReadA d = .ok (s.readA d) := by
  unfold checkedReadA readA
  rw [s.r.checkedRead_of_lt hd.registerA, Trap.ok_bind]
  cases d.sourceA with
  | dram => rfl
  | scratchpad window =>
    dsimp only
    rw [checkedCell_eq, Trap.ok_bind]
    rfl

/-- Operand B of an integer family is there. -/
theorem checkedIntegerB_eq (type : OperandType) :
    s.checkedIntegerB d type = .ok (s.integerB d type) := by
  unfold checkedIntegerB integerB
  rcases d.sourceB_eq_or with hb | hb
  · rw [hb]
    dsimp only
    rw [s.r.checkedRead_of_lt hd.registerB, Trap.ok_bind]
    rfl
  · rw [hb]
    rfl

/-- Operand B of a float family is there. -/
theorem checkedFloatB_eq : s.checkedFloatB d = .ok (s.floatB d) := by
  unfold checkedFloatB floatB
  rcases d.sourceB_eq_or with hb | hb
  · rw [hb]
    exact s.f.checkedRead_of_lt hd.registerB
  · rw [hb]
    rfl

/-- The register of a condition exists. -/
theorem checkedCondition_eq : s.checkedCondition d = .ok (s.condition d) := by
  unfold checkedCondition condition
  rcases d.sourceB_eq_or with hb | hb
  · rw [hb]
    dsimp only
    rw [s.r.checkedRead_of_lt hd.registerB, Trap.ok_bind]
    rfl
  · rw [hb]
    rfl

/-- The destination is there. -/
theorem checkedStore_eq (value : Scalar) : s.checkedStore d value = .ok (s.store d value) := by
  unfold checkedStore store
  rcases d.destination_eq_or with hc | ⟨window, hc⟩
  · rw [hc]
    cases value with
    | double x =>
      dsimp only
      rw [s.f.checkedWrite_of_lt hd.registerC, Trap.ok_bind]
      rfl
    | _ =>
      dsimp only
      rw [s.r.checkedWrite_of_lt hd.registerC, Trap.ok_bind]
      rfl
  · rw [hc]
    dsimp only
    rw [s.r.checkedRead_of_lt hd.registerC, Trap.ok_bind, checkedCell_eq, Trap.ok_bind]
    rfl

/-- Every result can be computed. -/
theorem checkedResult_eq (a : Cell) : s.checkedResult d a = .ok (s.result d a) := by
  unfold checkedResult result
  cases hf : d.family with
  | fadd | fsub | fmul | fdiv =>
    dsimp only
    rw [s.checkedFloatB_eq hd, Trap.ok_bind]
    rfl
  | fsqrt | fround => rfl
  | call | ret =>
    dsimp only
    rw [show (do pure 0 : Except Trap UInt64) = .ok 0 from rfl]
    rfl
  | _ =>
    simp only [Family.signature, Signature.uniform, s.checkedIntegerB_eq hd, Trap.ok_bind,
      Family.integerTrap?_eq_none]
    rfl

end State
end RandomMachine
