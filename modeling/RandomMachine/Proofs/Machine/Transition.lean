import RandomMachine.Machine.Step

/-!
# Transitions

Everything that one step can do, in one place: it reports the end of the run, finds the stack
full, takes a call or a return, passes over one, or computes. What a step does to the stack, the
budget, the cursor and the slot is read off these cases, and a run is a sequence of them.
-/

namespace RandomMachine

/-! ### Types of results -/

/-- The type of a scalar. -/
def Scalar.type : Scalar → OperandType
  | .int32 _ => .int32
  | .uint32 _ => .uint32
  | .int64 _ => .int64
  | .uint64 _ => .uint64
  | .double _ => .float
  | .shift _ => .shift

/-- A result that is computed has the type under which its family stores it. -/
theorem State.type_result (s : State) {d : Instruction} (hcall : d.family ≠ .call)
    (hret : d.family ≠ .ret) (a : Cell) : (s.result d a).type = d.family.signature.c := by
  unfold result
  cases hfamily : d.family with
  | call => exact absurd hfamily hcall
  | ret => exact absurd hfamily hret
  | _ => rfl

/-! ### What the parts of a step leave alone -/

namespace State

/-- The cursor once operand A has been read. -/
def cursorAfter (s : State) (d : Instruction) : DramCursor :=
  match d.sourceA with
  | .dram => (s.cursor.read (s.address d)).2
  | .scratchpad _ => s.cursor

/-- Reading operand A changes the cursor alone. -/
theorem readA_snd (s : State) (d : Instruction) :
    (s.readA d).2 = { s with cursor := s.cursorAfter d } := by
  unfold readA cursorAfter
  cases d.sourceA <;> rfl

/-- Writing a result leaves the stack alone. -/
@[simp]
theorem store_stack (s : State) (d : Instruction) (value : Scalar) :
    (s.store d value).stack = s.stack := by
  unfold store
  split
  · split <;> rfl
  · rfl

/-- Writing a result leaves the cursor alone. -/
@[simp]
theorem store_cursor (s : State) (d : Instruction) (value : Scalar) :
    (s.store d value).cursor = s.cursor := by
  unfold store
  split
  · split <;> rfl
  · rfl

/-- Writing a result leaves the budget alone. -/
@[simp]
theorem store_budget (s : State) (d : Instruction) (value : Scalar) :
    (s.store d value).budget = s.budget := by
  unfold store
  split
  · split <;> rfl
  · rfl

/-- Writing a result leaves the counter of instructions alone. -/
@[simp]
theorem store_executed (s : State) (d : Instruction) (value : Scalar) :
    (s.store d value).executed = s.executed := by
  unfold store
  split
  · split <;> rfl
  · rfl

/-- Writing a result leaves the rounding mode alone. -/
@[simp]
theorem store_mode (s : State) (d : Instruction) (value : Scalar) :
    (s.store d value).mode = s.mode := by
  unfold store
  split
  · split <;> rfl
  · rfl

end State

namespace Machine

/-- What holds of all instructions of a program, and of the one that stands for a missing slot,
holds of the instruction in every slot. -/
theorem instruction_of_forall {m : Machine} {P : Instruction → Prop} (h : ∀ d ∈ m.instructions, P d)
    (hmissing : P {}) (slot : UInt64) : P (m.instruction slot) := by
  unfold instruction
  cases hslot : m.instructions[slot.toNat]? with
  | none => exact hmissing
  | some d => exact h d (Array.mem_of_getElem? hslot)

/-- Operand A of the instruction that runs next, and the state in which it has been read. -/
def fetch (m : Machine) (s : State) : Cell × State :=
  (s.spend.mixAddress (m.instruction s.slot)).readA (m.instruction s.slot)

/-- The state in which operand A has been read, field by field. -/
theorem fetch_snd (m : Machine) (s : State) :
    (m.fetch s).2 =
      { s.spend.mixAddress (m.instruction s.slot) with
        cursor := (s.spend.mixAddress (m.instruction s.slot)).cursorAfter
          (m.instruction s.slot) } :=
  State.readA_snd _ _

/-- Reading operand A leaves the stack alone. -/
@[simp]
theorem fetch_stack (m : Machine) (s : State) : (m.fetch s).2.stack = s.stack := by
  rw [fetch_snd]
  rfl

/-- Reading operand A leaves the slot alone. -/
@[simp]
theorem fetch_slot (m : Machine) (s : State) : (m.fetch s).2.slot = s.slot := by
  rw [fetch_snd]
  rfl

/-- Reading operand A leaves the rounding mode alone. -/
@[simp]
theorem fetch_mode (m : Machine) (s : State) : (m.fetch s).2.mode = s.mode := by
  rw [fetch_snd]
  rfl

/-- Reading operand A leaves the float registers alone. -/
@[simp]
theorem fetch_f (m : Machine) (s : State) : (m.fetch s).2.f = s.f := by
  rw [fetch_snd]
  rfl

/-- When operand A has been read, one instruction of the budget is spent. -/
@[simp]
theorem fetch_budget (m : Machine) (s : State) : (m.fetch s).2.budget = s.budget - 1 := by
  rw [fetch_snd]
  rfl

/-- When operand A has been read, the instruction counts as executed. -/
@[simp]
theorem fetch_executed (m : Machine) (s : State) : (m.fetch s).2.executed = s.executed + 1 := by
  rw [fetch_snd]
  rfl

/-- A step with budget executes the instruction whose operand A it has fetched. -/
theorem step_of_budget_ne_zero (m : Machine) (s : State) (h : s.budget ≠ 0) :
    m.step s = m.execute (m.instruction s.slot) (m.fetch s).1 (m.fetch s).2 := by
  rw [step, if_neg h]
  rfl

/-! ### The cases of a step -/

/-- What a step may lead to from a state. -/
inductive Transition (m : Machine) (s : State) : Progress × State → Prop
  /-- The budget is spent. -/
  | halt (budget : s.budget = 0) : Transition m s (.done (.halted s.executed), s)
  /-- A call finds the stack full. -/
  | overflow (budget : s.budget ≠ 0) (family : (m.instruction s.slot).family = .call)
      (condition : (m.fetch s).2.condition (m.instruction s.slot) = true)
      (full : m.settings.stackLength.toNat < 2 * (s.stack.size + 1)) :
      Transition m s (.done (.stackOverflow s.slot (s.executed + 1)), (m.fetch s).2)
  /-- A call pushes operand A and the slot to return to. -/
  | call (budget : s.budget ≠ 0) (family : (m.instruction s.slot).family = .call)
      (condition : (m.fetch s).2.condition (m.instruction s.slot) = true)
      (room : 2 * (s.stack.size + 1) ≤ m.settings.stackLength.toNat) :
      Transition m s
        (continueAt (m.settings.callTarget s.slot (m.instruction s.slot).shortImmediate)
          { (m.fetch s).2 with
            stack := s.stack.push ⟨(m.fetch s).1.bits, m.settings.nextSlot s.slot⟩ })
  /-- A return pops the innermost frame. -/
  | ret (budget : s.budget ≠ 0) (family : (m.instruction s.slot).family = .ret)
      (condition : (m.fetch s).2.condition (m.instruction s.slot) = true)
      (stack : Array Frame) (frame : Frame) (pops : s.stack = stack.push frame) :
      Transition m s
        (continueAt frame.returnSlot
          ({ (m.fetch s).2 with stack }.store (m.instruction s.slot)
            (.uint64 ((m.fetch s).1.bits ^^^ frame.value))))
  /-- A call or return that is not taken copies operand A. -/
  | pass (budget : s.budget ≠ 0)
      (reason : (m.instruction s.slot).family = .call ∧
          (m.fetch s).2.condition (m.instruction s.slot) = false ∨
        (m.instruction s.slot).family = .ret ∧
          ((m.fetch s).2.condition (m.instruction s.slot) = false ∨ s.stack = #[])) :
      Transition m s
        (continueAt (m.settings.nextSlot s.slot)
          ((m.fetch s).2.store (m.instruction s.slot) (.uint64 (m.fetch s).1.bits)))
  /-- Every other instruction computes a result and may set the rounding mode. -/
  | compute (budget : s.budget ≠ 0) (notCall : (m.instruction s.slot).family ≠ .call)
      (notRet : (m.instruction s.slot).family ≠ .ret) :
      Transition m s
        (continueAt (m.settings.nextSlot s.slot)
          { (m.fetch s).2.store (m.instruction s.slot)
              ((m.fetch s).2.result (m.instruction s.slot) (m.fetch s).1) with
            mode := (m.fetch s).2.nextMode (m.instruction s.slot) (m.fetch s).1 })

/-- A call that is not taken, or a taken one, with room or without. -/
theorem transition_call (m : Machine) (s : State) (hb : s.budget ≠ 0)
    (hf : (m.instruction s.slot).family = .call) : m.Transition s (m.step s) := by
  rw [m.step_of_budget_ne_zero s hb]
  simp only [execute, hf]
  split
  · next hc =>
    unfold call
    rw [fetch_stack]
    split
    · next hfull =>
      rw [fetch_slot, fetch_executed]
      exact .overflow hb hf hc hfull
    · next hroom =>
      simpa only [fetch_slot] using Transition.call hb hf hc (by omega)
  · next hc =>
    rw [fetch_slot]
    exact .pass hb (.inl ⟨hf, Bool.eq_false_iff.mpr hc⟩)

/-- A return that is not taken, by its condition or for an empty stack, or a taken one. -/
theorem transition_ret (m : Machine) (s : State) (hb : s.budget ≠ 0)
    (hf : (m.instruction s.slot).family = .ret) : m.Transition s (m.step s) := by
  rw [m.step_of_budget_ne_zero s hb]
  simp only [execute, hf]
  split
  · next frame hframe =>
    split at hframe
    · next hc =>
      rw [fetch_stack] at hframe ⊢
      obtain ⟨stack, hpush⟩ := Array.back?_eq_some_iff.mp hframe
      rw [hpush, Array.pop_push]
      exact .ret hb hf hc stack frame hpush
    · exact absurd hframe (Option.some_ne_none frame).symm
  · next hnone =>
    rw [fetch_slot]
    refine .pass hb (.inr ⟨hf, ?_⟩)
    split at hnone
    · rw [fetch_stack] at hnone
      exact .inr (Array.back?_eq_none_iff.mp hnone)
    · next hc => exact .inl (Bool.eq_false_iff.mpr hc)

/-- Every step is one of the cases. -/
theorem transition_step (m : Machine) (s : State) : m.Transition s (m.step s) := by
  by_cases hb : s.budget = 0
  · rw [m.step_of_budget_zero s hb]
    exact .halt hb
  by_cases hc : (m.instruction s.slot).family = .call
  · exact m.transition_call s hb hc
  by_cases hr : (m.instruction s.slot).family = .ret
  · exact m.transition_ret s hb hr
  have hcompute := Transition.compute hb hc hr
  rw [m.step_of_budget_ne_zero s hb]
  unfold execute
  split
  · next h => exact absurd h hc
  · next h => exact absurd h hr
  · rw [fetch_slot]
    exact hcompute

/-! ### Runs -/

/-- A state in which a run may begin, with all registers and cells zero. -/
def zeroState : State where
  r := Vector.replicate registerCount 0
  f := Vector.replicate registerCount (.zero false)
  scratchpad := Vector.replicate scratchpadLength ⟨0⟩
  stack := #[]
  cursor := ⟨0, 0, 0⟩
  mode := .nearest
  budget := 8
  slot := 0
  executed := 0

/-- The state after a number of steps. A step after the end of the run counts like any other. -/
def after (m : Machine) (s : State) : Nat → State
  | 0 => s
  | n + 1 => (m.step (m.after s n)).2

/-- A step before a number of steps is one more step in all. -/
theorem after_step (m : Machine) (s : State) (n : Nat) :
    m.after (m.step s).2 n = m.after s (n + 1) := by
  induction n with
  | zero => rfl
  | succ n ih =>
    rw [after, ih]
    rfl

/-- What every step keeps, every run keeps. -/
theorem after_induction {m : Machine} {P : State → Prop} (hstep : ∀ s, P s → P (m.step s).2)
    {s : State} (h : P s) (n : Nat) : P (m.after s n) := by
  induction n with
  | zero => exact h
  | succ n ih => exact hstep _ ih

end Machine
end RandomMachine
