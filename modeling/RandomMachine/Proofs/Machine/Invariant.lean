import RandomMachine.Proofs.Machine.Transition
import RandomMachine.Proofs.Settings.Slots

/-!
# The invariant of a run

What stays true however long a machine runs: the slot and all slots to return to lie in the program,
budget and counter add up, the stack fits its capacity, and the DRAM cursor stands at whole words of
whole blocks. Loading establishes it and every step keeps it.
-/

namespace RandomMachine

/-! ### The cursor -/

/-- The cursor stands at a word, and the block that follows begins at a block. -/
structure DramCursor.Aligned (cursor : DramCursor) : Prop where
  position : cursor.position.toNat % 8 = 0
  nextBlock : cursor.nextBlock.toNat % 256 = 0

namespace DramCursor

/-- An address under the block mask is that of a block. -/
theorem toNat_and_blockMask_mod (address : UInt32) :
    (address &&& blockMask).toNat % 256 = 0 := by
  rw [UInt32.toNat_and]
  change (address.toNat &&& 0xFFFFFF00) % 2 ^ 8 = 0
  rw [Nat.and_mod_two_pow, show 0xFFFFFF00 % 2 ^ 8 = 0 from rfl, Nat.and_zero]

/-- A word that is shifted by three bits or more is a multiple of eight. -/
theorem toNat_shiftLeft_mod (word amount : UInt32) (h : 3 ≤ amount.toNat)
    (hlt : amount.toNat < 32) : (word <<< amount).toNat % 2 ^ 3 = 0 := by
  have hpow : 2 ^ amount.toNat = 2 ^ 3 * 2 ^ (amount.toNat - 3) := by
    rw [← Nat.pow_add]
    congr 1
    omega
  rw [UInt32.toNat_shiftLeft, Nat.mod_eq_of_lt hlt, Nat.shiftLeft_eq,
    Nat.mod_mod_of_dvd _ (by decide), hpow, Nat.mul_left_comm]
  exact Nat.mul_mod_right _ _

/-- The bytes of a key name a word. -/
theorem aligned_ofKey (key : Vector UInt8 32) : (ofKey key).Aligned where
  position := by
    change (ofKey key).position.toNat % 2 ^ 3 = 0
    unfold ofKey
    simp only [UInt32.toNat_or, Nat.or_mod_two_pow]
    rw [toNat_shiftLeft_mod _ 8 (by decide) (by decide),
      toNat_shiftLeft_mod _ 16 (by decide) (by decide),
      toNat_shiftLeft_mod _ 24 (by decide) (by decide)]
    rfl
  nextBlock := rfl

/-- Reading keeps a cursor aligned: it moves by a word, and at the end of a block to a block. -/
theorem Aligned.read {cursor : DramCursor} (h : cursor.Aligned) (address : UInt32) :
    (cursor.read address).2.Aligned := by
  have hposition := h.position
  have hnext : (cursor.read address).2.nextBlock.toNat % 256 = 0 := by
    unfold DramCursor.read
    dsimp only
    split
    · exact toNat_and_blockMask_mod _
    · exact h.nextBlock
  refine ⟨?_, hnext⟩
  have hmoved : (cursor.position + stride).toNat % 8 = 0 := by
    rw [UInt32.toNat_add]
    change (cursor.position.toNat + 8) % 2 ^ 32 % 8 = 0
    omega
  change (if (cursor.position + stride) &&& 255 = 0 then (cursor.read address).2.nextBlock
    else cursor.position + stride).toNat % 8 = 0
  split
  · omega
  · exact hmoved

end DramCursor

/-! ### Machine and state -/

namespace Machine

/-- What holds of every state that a run reaches. -/
structure Invariant (m : Machine) (s : State) : Prop where
  /-- The slot that runs next lies in the program. -/
  slot : s.slot.toNat < m.settings.programSize.toNat
  /-- Every instruction is either still in the budget or has been executed. -/
  budget : s.budget.toNat + s.executed.toNat = m.settings.budget.toNat
  /-- A call takes two entries of the stack, and they fit its capacity. -/
  stack : 2 * s.stack.size ≤ m.settings.stackLength.toNat
  /-- Every open call returns to a slot of the program. -/
  returnSlot : ∀ frame ∈ s.stack, frame.returnSlot.toNat < m.settings.programSize.toNat
  /-- The scratchpad has all its cells. -/
  scratchpad : s.scratchpad.toArray.size = scratchpadLength
  cursor : s.cursor.Aligned

/-- A machine loads exactly if its settings are valid and can be modeled, it has one instruction for
each slot, and the scratchpad has the right size. -/
theorem load_eq_ok_iff {settings : Settings} {instructions : Array Instruction}
    {key : Vector UInt8 keyLength} {image : Vector UInt8 imageLength} {scratchpad : Array Cell}
    {m : Machine} {s : State} :
    load settings instructions key image scratchpad = .ok (m, s) ↔
      settings.fault? = none ∧ settings.dram ≠ .buffer ∧
        instructions.size = settings.programSize.toNat ∧ m = ⟨settings, instructions⟩ ∧
        ∃ h : scratchpad.size = scratchpadLength,
          s =
            { r := Vector.ofFn (integerWord image)
              f := Vector.ofFn fun i =>
                RoundingMode.nearest.ofInt (floatWord image i).toInt64.toInt
              scratchpad := ⟨scratchpad, h⟩
              stack := #[]
              cursor := .ofKey key
              mode := .nearest
              budget := settings.budget
              slot := 0
              executed := 0 } := by
  unfold load
  split
  · next fault hfault => simp [hfault]
  · next hfault =>
    split
    · next hdram => simp [hdram]
    · next hdram =>
      split
      · next hsize => simp [hsize]
      · next hsize =>
        split
        · next hpad =>
          simp only [Except.ok.injEq, Prod.mk.injEq, hfault, ne_eq, hdram, not_false_eq_true,
            Decidable.not_not.mp hsize, true_and, hpad, exists_true_left]
          rw [eq_comm, and_congr_right_iff]
          exact fun _ => eq_comm
        · next hpad => simp [hpad]

/-- Whatever meets these conditions loads, with any key and register image. -/
theorem exists_load_eq_ok (settings : Settings) (instructions : Array Instruction)
    (key : Vector UInt8 keyLength) (image : Vector UInt8 imageLength) (scratchpad : Array Cell)
    (hvalid : settings.fault? = none) (hdram : settings.dram ≠ .buffer)
    (hsize : instructions.size = settings.programSize.toNat)
    (hpad : scratchpad.size = scratchpadLength) :
    ∃ m s, load settings instructions key image scratchpad = .ok (m, s) :=
  ⟨_, _, load_eq_ok_iff.mpr ⟨hvalid, hdram, hsize, rfl, hpad, rfl⟩⟩

/-- The invariant holds where a run begins. -/
theorem invariant_of_load {settings : Settings} {instructions : Array Instruction}
    {key : Vector UInt8 keyLength} {image : Vector UInt8 imageLength} {scratchpad : Array Cell}
    {m : Machine} {s : State}
    (h : load settings instructions key image scratchpad = .ok (m, s)) : m.Invariant s := by
  obtain ⟨hvalid, -, -, rfl, hpad, rfl⟩ := load_eq_ok_iff.mp h
  have hsize := Settings.four_le_programSize hvalid
  exact
    { slot := by
        change 0 < settings.programSize.toNat
        omega
      budget := rfl
      stack := Nat.zero_le _
      returnSlot := by
        intro frame hframe
        exact absurd hframe (Array.not_mem_empty frame)
      scratchpad := hpad
      cursor := DramCursor.aligned_ofKey key }

variable {m : Machine} {s : State}

/-- One instruction can be taken off a budget that is not spent. -/
theorem toNat_budget_sub_one {budget : UInt64} (h : budget ≠ 0) :
    (budget - 1).toNat = budget.toNat - 1 := by
  have hpos : budget.toNat ≠ 0 := fun e => h (UInt64.toNat_inj.mp e)
  exact UInt64.toNat_sub_of_le _ _
    (UInt64.le_iff_toNat_le.mpr (Nat.one_le_iff_ne_zero.mpr hpos))

/-- The counter of instructions does not overflow while there is budget. -/
theorem Invariant.toNat_executed_add_one (h : m.Invariant s) (hb : s.budget ≠ 0) :
    (s.executed + 1).toNat = s.executed.toNat + 1 := by
  have hsum := h.budget
  have hlt := m.settings.budget.toNat_lt
  have hpos : s.budget.toNat ≠ 0 := fun e => hb (UInt64.toNat_inj.mp e)
  rw [UInt64.toNat_add]
  change (s.executed.toNat + 1) % 2 ^ 64 = _
  omega

/-- Spending one instruction moves it from the budget to the counter. -/
theorem Invariant.spend (h : m.Invariant s) (hb : s.budget ≠ 0) :
    (s.budget - 1).toNat + (s.executed + 1).toNat = m.settings.budget.toNat := by
  have hsum := h.budget
  have hpos : s.budget.toNat ≠ 0 := fun e => hb (UInt64.toNat_inj.mp e)
  rw [toNat_budget_sub_one hb, h.toNat_executed_add_one hb]
  omega

/-- Reading operand A keeps the cursor aligned. -/
theorem Invariant.fetch_cursor (h : m.Invariant s) : (m.fetch s).2.cursor.Aligned := by
  rw [fetch_snd]
  change (State.cursorAfter _ _).Aligned
  unfold State.cursorAfter
  split
  · exact h.cursor.read _
  · exact h.cursor

/-- A step that goes on in a slot of the program with a stack that fits keeps the invariant. -/
theorem Invariant.of_stack (h : m.Invariant s) (hb : s.budget ≠ 0) {slot : UInt64} {t : State}
    (hslot : slot.toNat < m.settings.programSize.toNat)
    (hbudget : t.budget = s.budget - 1) (hexecuted : t.executed = s.executed + 1)
    (hcursor : t.cursor = (m.fetch s).2.cursor)
    (hstack : 2 * t.stack.size ≤ m.settings.stackLength.toNat)
    (hreturn : ∀ frame ∈ t.stack, frame.returnSlot.toNat < m.settings.programSize.toNat) :
    m.Invariant (continueAt slot t).2 where
  slot := hslot
  budget := by
    change t.budget.toNat + t.executed.toNat = _
    rw [hbudget, hexecuted]
    exact h.spend hb
  stack := hstack
  returnSlot := hreturn
  scratchpad := t.scratchpad.size_toArray
  cursor := by
    change t.cursor.Aligned
    rw [hcursor]
    exact h.fetch_cursor

/-- Every step keeps the invariant. -/
theorem Invariant.step (hvalid : m.settings.fault? = none) (h : m.Invariant s) :
    m.Invariant (m.step s).2 := by
  have hnext := Settings.toNat_nextSlot_lt hvalid s.slot
  have hstack := h.stack
  generalize hp : m.step s = p
  cases hp ▸ m.transition_step s with
  | halt => exact h
  | overflow hb =>
    exact
      { slot := by
          rw [fetch_slot]
          exact h.slot
        budget := by
          rw [fetch_budget, fetch_executed]
          exact h.spend hb
        stack := by
          rw [fetch_stack]
          exact hstack
        returnSlot := by
          rw [fetch_stack]
          exact h.returnSlot
        scratchpad := (m.fetch s).2.scratchpad.size_toArray
        cursor := h.fetch_cursor }
  | call hb _ _ hroom =>
    refine h.of_stack hb (Settings.toNat_callTarget_lt hvalid _ _) (m.fetch_budget s)
      (m.fetch_executed s) rfl ?_ ?_
    · rw [Array.size_push]
      exact hroom
    · intro frame hframe
      rcases Array.mem_push.mp hframe with hframe | rfl
      · exact h.returnSlot frame hframe
      · exact hnext
  | ret hb _ _ stack frame hpops =>
    have hmem : frame ∈ s.stack := by
      rw [hpops]
      exact Array.mem_push_self
    refine h.of_stack hb (h.returnSlot frame hmem) ?_ ?_ ?_ ?_ ?_
    · rw [State.store_budget]
      exact m.fetch_budget s
    · rw [State.store_executed]
      exact m.fetch_executed s
    · exact State.store_cursor _ _ _
    · rw [State.store_stack]
      rw [hpops, Array.size_push] at hstack
      change 2 * stack.size ≤ _
      omega
    · rw [State.store_stack]
      intro inner hinner
      exact h.returnSlot inner (hpops ▸ Array.mem_push_of_mem frame hinner)
  | pass hb =>
    refine h.of_stack hb hnext ?_ ?_ (State.store_cursor _ _ _) ?_ ?_
    · rw [State.store_budget, fetch_budget]
    · rw [State.store_executed, fetch_executed]
    · rw [State.store_stack, fetch_stack]
      exact hstack
    · rw [State.store_stack, fetch_stack]
      exact h.returnSlot
  | compute hb =>
    refine h.of_stack hb hnext ?_ ?_ (State.store_cursor _ _ _) ?_ ?_
    · exact (State.store_budget _ _ _).trans (m.fetch_budget s)
    · exact (State.store_executed _ _ _).trans (m.fetch_executed s)
    · rw [show State.stack _ = s.stack from (State.store_stack _ _ _).trans (m.fetch_stack s)]
      exact hstack
    · rw [show State.stack _ = s.stack from (State.store_stack _ _ _).trans (m.fetch_stack s)]
      exact h.returnSlot

/-- The invariant holds after any number of steps. -/
theorem Invariant.after (hvalid : m.settings.fault? = none) (h : m.Invariant s) (n : Nat) :
    m.Invariant (m.after s n) :=
  after_induction (fun _ => Invariant.step hvalid) h n

end Machine
end RandomMachine
