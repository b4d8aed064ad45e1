import RandomMachine.Family.Integer
import RandomMachine.Machine.State

/-!
# Steps and runs

A step takes one instruction: it mixes a constant into the address register, reads operand A,
computes, and writes the result or moves along a call or return. A run takes steps until the budget
is spent or the stack overflows.
-/

namespace RandomMachine

/-- How a run ends. -/
inductive Exit
  | halted (executed : UInt64)
  | stackOverflow (slot executed : UInt64)
  deriving DecidableEq, Repr

/-- What a step leads to. -/
inductive Progress
  | next (slot : UInt64)
  | done (exit : Exit)
  deriving DecidableEq, Repr

/-- A cell as an integer operand: the 32-bit types read its low half and extend it. -/
def Cell.integerAs (cell : Cell) : OperandType → UInt64
  | .int32 => cell.toInt32.toInt64.toUInt64
  | .uint32 => cell.toUInt32.toUInt64
  | _ => cell.toUInt64

/-- A word as an integer operand: the 32-bit types read its low half and extend it. -/
def wordAs (word : UInt64) : OperandType → UInt64
  | .int32 => (signExtend word.toUInt32).toUInt64
  | .uint32 => word &&& 0xFFFFFFFF
  | _ => word

/-- An integer result as a value of the type it is stored under. -/
def integerScalar (word : UInt64) : OperandType → Scalar
  | .uint32 => .uint32 word.toUInt32
  | .int64 => .int64 word.toInt64
  | _ => .uint64 word

namespace State

/-- Spends one instruction of the budget. -/
def spend (s : State) : State :=
  { s with budget := s.budget - 1, executed := s.executed + 1 }

/-- Mixes the constant of an instruction into its address register. Specification, section 4.3. -/
def mixAddress (s : State) (d : Instruction) : State :=
  let mixed := s.r.read d.registerA ^^^ d.addressA.toUInt64
  { s with r := s.r.write d.registerA mixed }

/-- Address of operand A. -/
def address (s : State) (d : Instruction) : UInt32 := (s.r.read d.registerA).toUInt32

/-- Reads operand A. Only DRAM reads move the cursor. Specification, sections 4.3 and E4. -/
def readA (s : State) (d : Instruction) : Cell × State :=
  match d.sourceA with
  | .dram =>
    let (word, cursor) := s.cursor.read (s.address d)
    (⟨word⟩, { s with cursor })
  | .scratchpad window => (s.scratchpad[window.index (s.address d)], s)

/-- Operand B of an integer family. -/
def integerB (s : State) (d : Instruction) (type : OperandType) : UInt64 :=
  match d.sourceB with
  | .register number => wordAs (s.r.read number) type
  | .immediate => (d.immediateAs type).toUInt64

/-- Operand B of a float family. -/
def floatB (s : State) (d : Instruction) : Binary64 :=
  match d.sourceB with
  | .register number => s.f.read number
  | .immediate => ⟨floatImmediateBits d.immediate⟩

/-- Whether a call or return is taken: always, or while the low half of a register is at most the
immediate. Specification, section 4.4. -/
def condition (s : State) (d : Instruction) : Bool :=
  match d.sourceB with
  | .register number => decide ((s.r.read number).toUInt32 ≤ d.immediate)
  | .immediate => true

/-- Writes a result to the destination of an instruction. Specification, section 4.3. -/
def store (s : State) (d : Instruction) (value : Scalar) : State :=
  match d.destination with
  | .register number =>
    match value with
    | .double x => { s with f := s.f.write number x }
    | other => { s with r := s.r.write number other.toUInt64 }
  | .scratchpad window register addressC =>
    let i := window.index (s.r.read register ^^^ addressC.toUInt64).toUInt32
    { s with scratchpad := s.scratchpad.set i (s.scratchpad[i].store value) }

/-- Operand A of a float family, converted from a signed word. -/
def floatA (s : State) (a : Cell) : Binary64 := s.mode.ofInt a.toInt64.toInt

/-- Result of an instruction that is neither a call nor a return. -/
def result (s : State) (d : Instruction) (a : Cell) : Scalar :=
  match d.family with
  | .fadd => .double (s.mode.add (s.floatA a) (s.floatB d))
  | .fsub => .double (s.mode.sub (s.floatA a) (s.floatB d))
  | .fmul => .double (s.mode.mul (s.floatA a) (s.floatB d))
  | .fdiv => .double (s.mode.div (s.floatA a) (s.floatB d))
  | .fsqrt => .double (s.mode.sqrtAbs (s.floatA a))
  | .fround => .double (s.floatA a)
  | family =>
    let signature := family.signature
    let b := match signature.b with
      | some type => s.integerB d type
      | none => 0
    integerScalar ((family.integerResult (a.integerAs signature.a) b).getD 0) signature.c

/-- The rounding mode after an instruction: a rounding instruction takes it from operand A. -/
def nextMode (s : State) (d : Instruction) (a : Cell) : RoundingMode :=
  if d.family = .fround then .ofWord a.bits else s.mode

end State

namespace Machine

/-- Ends a step in the slot that runs next. -/
def continueAt (slot : UInt64) (s : State) : Progress × State := (.next slot, { s with slot })

/-- Takes a call, unless the stack has no room for another frame. A call that overflows the stack
leaves the state as it is. Specification, section 4.4. -/
def call (m : Machine) (d : Instruction) (value : UInt64) (s : State) : Progress × State :=
  if m.settings.stackLength.toNat < 2 * (s.stack.size + 1) then
    (.done (.stackOverflow s.slot s.executed), s)
  else
    continueAt (m.settings.callTarget s.slot d.shortImmediate)
      { s with stack := s.stack.push ⟨value, m.settings.nextSlot s.slot⟩ }

/-- Executes an instruction whose operand A has been read. Specification, section 4.4. -/
def execute (m : Machine) (d : Instruction) (a : Cell) (s : State) : Progress × State :=
  let next := m.settings.nextSlot s.slot
  match d.family with
  | .call =>
    if s.condition d then m.call d a.bits s
    else continueAt next (s.store d (.uint64 a.bits))
  | .ret =>
    match if s.condition d then s.stack.back? else none with
    | some frame =>
      continueAt frame.returnSlot
        ({ s with stack := s.stack.pop }.store d (.uint64 (a.bits ^^^ frame.value)))
    | none => continueAt next (s.store d (.uint64 a.bits))
  | _ =>
    let value := s.result d a
    let mode := s.nextMode d a
    continueAt next { s.store d value with mode }

/-- One step. Without budget it reports the end of the run and changes nothing. Specification,
section 4.4. -/
def step (m : Machine) (s : State) : Progress × State :=
  if s.budget = 0 then (.done (.halted s.executed), s)
  else
    let d := m.instruction s.slot
    let (a, s) := (s.spend.mixAddress d).readA d
    m.execute d a s

/-- Without budget a step changes nothing. -/
theorem step_of_budget_zero (m : Machine) (s : State) (h : s.budget = 0) :
    m.step s = (.done (.halted s.executed), s) := by
  rw [step, if_pos h]

/-- Takes steps until one of them ends the run, at most as many as the fuel, and halts after them.
-/
def runFor (m : Machine) : (fuel : Nat) → State → Exit × State
  | 0, s => (.halted s.executed, s)
  | fuel + 1, s =>
    match m.step s with
    | (.next _, s) => m.runFor fuel s
    | (.done exit, s) => (exit, s)

/-- A run without budget halts at once, whatever the fuel. -/
theorem runFor_of_budget_zero (m : Machine) (fuel : Nat) (s : State) (h : s.budget = 0) :
    m.runFor fuel s = (.halted s.executed, s) := by
  cases fuel with
  | zero => rfl
  | succ fuel => rw [runFor, m.step_of_budget_zero s h]

/-- Runs to the end. Every step spends budget, so there are no more steps than that. Specification,
section 5. -/
def run (m : Machine) (s : State) : Exit × State := m.runFor s.budget.toNat s

end Machine
end RandomMachine
