import RandomMachine.Proofs.Machine.Budget
import RandomMachine.Proofs.Machine.Storage

/-!
# The effect of a step

Everything that a step with budget changes: the counters, the slot, the stack, the cursor, the
rounding mode, the address register and at most one place more, where a result goes. All other
registers and cells, and all other frames, stay as they are.
-/

namespace RandomMachine

/-- How a step moves on. -/
inductive Move
  /-- To the slot that follows. -/
  | next
  /-- Along a call that is taken. -/
  | call
  /-- Along a return that is taken, which pops a frame. -/
  | ret (frame : Frame)
  /-- Nowhere, because a call finds the stack full. -/
  | overflow

namespace Machine

/-- How an instruction moves on. Calls and returns look at the registers once the constant of the
instruction has been mixed in. -/
def move (m : Machine) (d : Instruction) (s : State) : Move :=
  if d.Taken (s.mixedContent d) then
    match d.family with
    | .call =>
      if m.settings.stackLength.toNat < 2 * (s.stack.size + 1) then .overflow else .call
    | .ret =>
      match s.stack.back? with
      | some frame => .ret frame
      | none => .next
    | _ => .next
  else .next

/-- The result that an instruction writes. A call that is taken writes none, whether or not it finds
the stack full. -/
def written (m : Machine) (d : Instruction) (s : State) : Option Scalar :=
  match m.move d s with
  | .call | .overflow => none
  | .ret frame => some (.uint64 ((s.operandCell d).bits ^^^ frame.value))
  | .next =>
    if d.family = .call ∨ d.family = .ret then some (.uint64 (s.operandCell d).bits)
    else some ((s.mixAddress d).result d (s.operandCell d))

/-- The slot that an instruction leads to. -/
def slotAfter (m : Machine) (d : Instruction) (s : State) : UInt64 :=
  match m.move d s with
  | .next => m.settings.nextSlot s.slot
  | .call => m.settings.callTarget s.slot d.shortImmediate
  | .ret frame => frame.returnSlot
  | .overflow => s.slot

/-- The stack that an instruction leaves: a call pushes one frame and a return pops one. -/
def stackAfter (m : Machine) (d : Instruction) (s : State) : Array Frame :=
  match m.move d s with
  | .call => s.stack.push ⟨(s.operandCell d).bits, m.settings.nextSlot s.slot⟩
  | .ret _ => s.stack.pop
  | .next | .overflow => s.stack

/-- The contents that an instruction leaves: the constant is mixed into the address register, and
then a result overwrites one place. -/
def contentAfter (m : Machine) (d : Instruction) (s : State) : Storage → UInt64 :=
  match m.written d s with
  | some value => d.overwrite (s.mixedContent d) value
  | none => s.mixedContent d

/-- What an instruction makes of a state: all fields and, as contents, all registers and cells. -/
structure Effect (m : Machine) (d : Instruction) (s t : State) : Prop where
  budget : t.budget.toNat + 1 = s.budget.toNat
  executed : t.executed.toNat = s.executed.toNat + 1
  slot : t.slot = m.slotAfter d s
  stack : t.stack = m.stackAfter d s
  /-- Reading operand A from DRAM moves the cursor, once. -/
  cursor : t.cursor = s.movedCursor d
  mode : t.mode = if d.family = .fround then .ofWord (s.operandCell d).bits else s.mode
  content : t.content = m.contentAfter d s

/-- Only a call that is taken, or that finds the stack full, writes no result. -/
theorem written_eq_none_iff (m : Machine) (d : Instruction) (s : State) :
    m.written d s = none ↔ m.move d s = .call ∨ m.move d s = .overflow := by
  unfold written
  cases m.move d s with
  | next =>
    dsimp only
    split <;> simp
  | call => simp
  | ret frame => simp
  | overflow => simp

/-- Instructions that are neither calls nor returns move on to the slot that follows. -/
theorem move_of_computes (m : Machine) {d : Instruction} (hcall : d.family ≠ .call)
    (hret : d.family ≠ .ret) (s : State) : m.move d s = .next := by
  unfold move
  split
  · split
    · next hf => exact absurd hf hcall
    · next hf => exact absurd hf hret
    · rfl
  · rfl

/-- Instructions that are neither calls nor returns write what they compute. -/
theorem written_of_computes (m : Machine) {d : Instruction} (hcall : d.family ≠ .call)
    (hret : d.family ≠ .ret) (s : State) :
    m.written d s = some ((s.mixAddress d).result d (s.operandCell d)) := by
  unfold written
  rw [m.move_of_computes hcall hret]
  exact if_neg (not_or.mpr ⟨hcall, hret⟩)

/-- A place that is neither the address register nor the place of the result is left as it is. -/
theorem Effect.content_of_ne {m : Machine} {d : Instruction} {s t : State} (h : m.Effect d s t)
    {place : Storage} (haddress : place ≠ .integer d.registerA)
    (hresult : m.written d s = none ∨ place ≠ d.resultPlace (s.mixedContent d)) :
    t.content place = s.content place := by
  have hmixed : s.mixedContent d place = s.content place := if_neg haddress
  rw [h.content, contentAfter, ← hmixed]
  cases hvalue : m.written d s with
  | none => rfl
  | some value =>
    rw [hvalue] at hresult
    exact if_neg (hresult.resolve_left (Option.some_ne_none value))

/-- Nothing of a state is left open. -/
theorem Effect.unique {m : Machine} {d : Instruction} {s t u : State} (ht : m.Effect d s t)
    (hu : m.Effect d s u) : t = u := by
  obtain ⟨hr, hf, hpad⟩ := State.eq_of_content (ht.content.trans hu.content.symm)
  have hbudget : t.budget = u.budget :=
    UInt64.toNat_inj.mp (Nat.succ.inj (ht.budget.trans hu.budget.symm))
  have hexecuted : t.executed = u.executed :=
    UInt64.toNat_inj.mp (ht.executed.trans hu.executed.symm)
  have hslot := ht.slot.trans hu.slot.symm
  have hstack := ht.stack.trans hu.stack.symm
  have hcursor := ht.cursor.trans hu.cursor.symm
  have hmode := ht.mode.trans hu.mode.symm
  cases t
  cases u
  congr

/-! ### The fields of the next state -/

variable {m : Machine} {s : State}

/-- A step leaves the cursor as reading operand A leaves it. -/
theorem step_cursor (hb : s.budget ≠ 0) : (m.step s).2.cursor = (m.fetch s).2.cursor := by
  generalize hp : m.step s = p
  cases hp ▸ m.transition_step s with
  | halt budget => exact absurd budget hb
  | overflow => rfl
  | call => rfl
  | ret => exact State.store_cursor _ _ _
  | pass => exact State.store_cursor _ _ _
  | compute => exact State.store_cursor _ _ _

/-- Only a rounding instruction sets the rounding mode. -/
theorem step_mode (hb : s.budget ≠ 0) :
    (m.step s).2.mode =
      if (m.instruction s.slot).family = .fround then .ofWord (m.fetch s).1.bits else s.mode := by
  have hother {family : Family} (h : (m.instruction s.slot).family = family)
      (hfround : family ≠ .fround) : (m.instruction s.slot).family ≠ .fround := h ▸ hfround
  generalize hp : m.step s = p
  cases hp ▸ m.transition_step s with
  | halt budget => exact absurd budget hb
  | overflow _ hf => rw [if_neg (hother hf (by decide)), fetch_mode]
  | call _ hf =>
    rw [if_neg (hother hf (by decide))]
    exact m.fetch_mode s
  | ret _ hf =>
    rw [if_neg (hother hf (by decide))]
    exact (State.store_mode _ _ _).trans (m.fetch_mode s)
  | pass _ hreason =>
    have hfround : (m.instruction s.slot).family ≠ .fround := by
      rcases hreason with ⟨hf, -⟩ | ⟨hf, -⟩
      · exact hother hf (by decide)
      · exact hother hf (by decide)
    rw [if_neg hfround]
    exact (State.store_mode _ _ _).trans (m.fetch_mode s)
  | compute =>
    change State.nextMode _ _ _ = _
    rw [State.nextMode, fetch_mode]

/-- The condition of a call or return, once operand A has been read. -/
theorem condition_fetch (hd : (m.instruction s.slot).InRange) :
    (m.fetch s).2.condition (m.instruction s.slot) =
      decide ((m.instruction s.slot).Taken (s.mixedContent (m.instruction s.slot))) := by
  rw [State.condition_eq, State.content_fetch m s hd.registerA]

/-- The result of a computation, once operand A has been read. -/
theorem result_fetch (hd : (m.instruction s.slot).InRange) :
    (m.fetch s).2.result (m.instruction s.slot) (m.fetch s).1 =
      (s.mixAddress (m.instruction s.slot)).result (m.instruction s.slot)
        (s.operandCell (m.instruction s.slot)) := by
  rw [fetch_fst hd.registerA, fetch_snd]
  rfl

/-- Writing a result once operand A has been read, whatever has become of the stack. -/
theorem content_store_fetch (hd : (m.instruction s.slot).InRange) {value : Scalar}
    (hvalue : value.type = (m.instruction s.slot).family.signature.c) (stack : Array Frame) :
    ({ (m.fetch s).2 with stack }.store (m.instruction s.slot) value).content =
      (m.instruction s.slot).overwrite (s.mixedContent (m.instruction s.slot)) value := by
  rw [State.content_store _ hd.registerC hvalue, ← State.content_fetch m s hd.registerA]
  rfl

/-- The slot, the stack, the registers and the cells after a step go by how it moves on. -/
theorem step_moved (hb : s.budget ≠ 0) (hd : (m.instruction s.slot).InRange) :
    (m.step s).2.slot = m.slotAfter (m.instruction s.slot) s ∧
      (m.step s).2.stack = m.stackAfter (m.instruction s.slot) s ∧
      (m.step s).2.content = m.contentAfter (m.instruction s.slot) s := by
  have hcontent := State.content_fetch m s hd.registerA
  generalize hp : m.step s = p
  cases hp ▸ m.transition_step s with
  | halt budget => exact absurd budget hb
  | overflow _ hf hcondition hfull =>
    rw [condition_fetch hd, decide_eq_true_eq] at hcondition
    have hmove : m.move (m.instruction s.slot) s = .overflow := by
      simp only [move, if_pos hcondition, hf, if_pos hfull]
    simp only [slotAfter, stackAfter, contentAfter, written, hmove, fetch_slot, fetch_stack,
      hcontent, and_self]
  | call _ hf hcondition hroom =>
    rw [condition_fetch hd, decide_eq_true_eq] at hcondition
    have hmove : m.move (m.instruction s.slot) s = .call := by
      simp only [move, if_pos hcondition, hf, if_neg (Nat.not_lt.mpr hroom)]
    simp only [slotAfter, stackAfter, contentAfter, written, hmove, fetch_fst hd.registerA]
    exact ⟨rfl, rfl, hcontent⟩
  | ret _ hf hcondition stack frame hpops =>
    rw [condition_fetch hd, decide_eq_true_eq] at hcondition
    have hmove : m.move (m.instruction s.slot) s = .ret frame := by
      simp only [move, if_pos hcondition, hf, hpops, Array.back?_push]
    simp only [slotAfter, stackAfter, contentAfter, written, hmove, fetch_fst hd.registerA]
    refine ⟨rfl, ?_, content_store_fetch hd (by rw [hf]; rfl) stack⟩
    rw [hpops, Array.pop_push]
    exact State.store_stack _ _ _
  | pass _ hreason =>
    have hmove : m.move (m.instruction s.slot) s = .next := by
      simp only [condition_fetch hd, decide_eq_false_iff_not] at hreason
      unfold move
      split
      · next htaken =>
        rcases hreason with ⟨-, hnot⟩ | ⟨hf, hnot | hempty⟩
        · exact absurd htaken hnot
        · exact absurd htaken hnot
        · rw [hf, hempty]
          rfl
      · rfl
    have hfamily := hreason.imp And.left And.left
    have htype : (Scalar.uint64 (s.operandCell (m.instruction s.slot)).bits).type =
        (m.instruction s.slot).family.signature.c := by
      rcases hfamily with hf | hf <;> rw [hf] <;> rfl
    simp only [slotAfter, stackAfter, contentAfter, written, hmove, if_pos hfamily,
      fetch_fst hd.registerA]
    exact ⟨rfl, (State.store_stack _ _ _).trans (m.fetch_stack s),
      content_store_fetch hd htype (m.fetch s).2.stack⟩
  | compute _ hcall hret =>
    simp only [slotAfter, stackAfter, contentAfter, m.move_of_computes hcall hret,
      m.written_of_computes hcall hret, ← result_fetch hd]
    exact ⟨rfl, (State.store_stack _ _ _).trans (m.fetch_stack s),
      content_store_fetch hd (State.type_result _ hcall hret _) (m.fetch s).2.stack⟩

/-- A step with budget has the effect of its instruction. -/
theorem effect_step (h : m.Invariant s) (hb : s.budget ≠ 0)
    (hd : (m.instruction s.slot).InRange) :
    m.Effect (m.instruction s.slot) s (m.step s).2 := by
  obtain ⟨hbudget, hexecuted, -⟩ := m.step_spends hb
  obtain ⟨hslot, hstack, hcontent⟩ := m.step_moved hb hd
  have hpos : s.budget.toNat ≠ 0 := fun e => hb (UInt64.toNat_inj.mp e)
  exact
    { budget := by
        rw [hbudget, toNat_budget_sub_one hb]
        omega
      executed := by rw [hexecuted, h.toNat_executed_add_one hb]
      slot := hslot
      stack := hstack
      cursor := (step_cursor hb).trans (fetch_cursor hd.registerA)
      mode := by rw [step_mode hb, fetch_fst hd.registerA]
      content := hcontent }

/-- From the state in which a machine is loaded, any number of steps leads to a state in which the
next step has the effect of its instruction. The constant of an instruction leaves the high half of
the address register as it is; a result is written unless a call is taken or finds the stack full;
and whatever is neither the address register nor the place of that result stays as it is. -/
theorem effect_of_load {settings : Settings} {instructions : Array Instruction}
    {key : Vector UInt8 keyLength} {image : Vector UInt8 imageLength} {scratchpad : Array Cell}
    (h : load settings instructions key image scratchpad = .ok (m, s))
    (hrange : ∀ d ∈ instructions, d.InRange) (n : Nat) {t : State} (ht : m.after s n = t)
    (hb : t.budget ≠ 0) {d : Instruction} (hd : m.instruction t.slot = d) :
    m.Effect d t (m.step t).2 ∧
      (m.written d t = none ↔ m.move d t = .call ∨ m.move d t = .overflow) ∧
      ∀ place,
        (t.mixedContent d place).toNat / 2 ^ 32 = (t.content place).toNat / 2 ^ 32 ∧
        (place ≠ .integer d.registerA →
          m.written d t = none ∨ place ≠ d.resultPlace (t.mixedContent d) →
          (m.step t).2.content place = t.content place) := by
  have hstart := invariant_of_load h
  obtain ⟨hvalid, -, -, rfl, -⟩ := load_eq_ok_iff.mp h
  subst ht hd
  have heffect := effect_step (hstart.after hvalid n) hb
    (instruction_of_forall hrange ⟨by decide, by decide, by decide⟩ _)
  exact ⟨heffect, written_eq_none_iff _ _ _,
    fun place => ⟨State.high_mixedContent _ _ place, heffect.content_of_ne⟩⟩

/-- A sum of 32 bits whose address register is also its operand and addresses its result. -/
theorem effect_of_load_aliased :
    let d : Instruction := {
      opcode := 20, placeA := 5, registerA := 3, registerB := 3, placeC := 1, registerC := 3,
      addressA := 0xFFFF0000, immediate := 9 }
    ∃ m s, load { programSize := 4, budget := 6 } (Array.replicate 4 d)
        (Vector.replicate keyLength 7) (Vector.replicate imageLength 1)
        (Array.replicate scratchpadLength ⟨5⟩) = .ok (m, s) ∧
      d.family = .add32 ∧ m.instruction (m.after s 2).slot = d ∧ (m.after s 2).budget ≠ 0 ∧
      m.Effect d (m.after s 2) (m.step (m.after s 2)).2 := by
  intro d
  obtain ⟨m, s, h⟩ := exists_load_eq_ok { programSize := 4, budget := 6 } (Array.replicate 4 d)
    (Vector.replicate keyLength 7) (Vector.replicate imageLength 1)
    (Array.replicate scratchpadLength ⟨5⟩) (by decide) (by decide)
    (by rw [Array.size_replicate]; rfl) Array.size_replicate
  have hrange : ∀ e ∈ Array.replicate 4 d, e.InRange := by
    intro e he
    rw [Array.eq_of_mem_replicate he]
    exact ⟨by decide, by decide, by decide⟩
  have hstart := invariant_of_load h
  obtain ⟨hvalid, -, -, hm, _, hs⟩ := load_eq_ok_iff.mp h
  have hb : (m.after s 2).budget ≠ 0 := by
    apply m.budget_after_ne_zero
    rw [hs]
    change 2 < 6
    decide
  have hd : m.instruction (m.after s 2).slot = d := by
    have hslot : (m.after s 2).slot.toNat < 4 := by
      have h := (hstart.after (hm ▸ hvalid) 2).slot
      rw [hm] at h ⊢
      exact h
    rw [instruction, show m.instructions = Array.replicate 4 d by rw [hm],
      Array.getElem?_replicate, if_pos hslot]
    rfl
  exact ⟨m, s, h, by decide, hd, hb, (effect_of_load h hrange 2 rfl hb hd).1⟩

end Machine
end RandomMachine
