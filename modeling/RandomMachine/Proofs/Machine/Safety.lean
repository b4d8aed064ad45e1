import RandomMachine.Proofs.Machine.Checked
import RandomMachine.Proofs.Machine.Invariant

/-!
# Safety of runs

No step of a run traps. Instruction words hold register numbers below eight, and the invariant keeps
every slot in the program and the stack in its capacity, so that all tests of a checked step pass in
every state that a run reaches.
-/

namespace RandomMachine

/-- Whether the frames of the stack can be held in an array: a frame takes sixteen bytes, and no
array takes `2 ^ 63` bytes. -/
def State.StackFits (s : State) : Prop := s.stack.size * 16 < 2 ^ 63

namespace Instruction

/-- A field of three bits is below eight. -/
theorem toNat_field_lt (field : Field) (word : BitVec 128) (h : field.width = 3) :
    (UInt8.ofNat (field.ofWord word)).toNat < registerCount := by
  have hlt : field.ofWord word < 2 ^ field.width := BitVec.isLt _
  rw [h] at hlt
  rw [UInt8.toNat_ofNat']
  exact Nat.lt_of_le_of_lt (Nat.mod_le _ _) hlt

/-- The register numbers of an instruction word are those of registers. -/
theorem inRange_ofWord (word : BitVec 128) : (ofWord word).InRange where
  registerA := toNat_field_lt .registerA word rfl
  registerB := toNat_field_lt .registerB word rfl
  registerC := toNat_field_lt .registerC word rfl

end Instruction

namespace Machine

/-- Every index that the next step uses lies in its array: the slot in the program, the three
register numbers in the register files, and whatever cell an address selects in the scratchpad. -/
structure IndexesInBounds (m : Machine) (s : State) : Prop where
  slot : s.slot.toNat < m.instructions.size
  registerA : (m.instruction s.slot).registerA.toNat < registerCount
  registerB : (m.instruction s.slot).registerB.toNat < registerCount
  registerC : (m.instruction s.slot).registerC.toNat < registerCount
  cell : ∀ (window : Window) (address : UInt32),
    (address &&& window.mask).toNat < s.scratchpad.toArray.size

variable {m : Machine} {s : State}

/-- A call computes its slots and the size of the stack in words. -/
theorem checkedCall_eq (hvalid : m.settings.fault? = none)
    (hslot : s.slot.toNat < m.settings.programSize.toNat)
    (hstack : 2 * (s.stack.size + 1) < 2 ^ 64) (d : Instruction) (value : UInt64) :
    m.checkedCall d value s = .ok (m.call d value s) := by
  have hpos := Settings.four_le_programSize hvalid
  have hle := Settings.programSize_le hvalid
  have hentries : (UInt64.ofNat (2 * (s.stack.size + 1))).toNat = 2 * (s.stack.size + 1) :=
    UInt64.toNat_ofNat_of_lt' hstack
  unfold checkedCall call
  rw [Trap.word, if_pos hstack, Trap.ok_bind]
  simp only [UInt64.lt_iff_toNat_lt, hentries]
  split
  · rfl
  · rw [Settings.checkedCallTarget_eq hpos hle hslot, Trap.ok_bind,
      Settings.checkedNextSlot_eq (by omega) hle hslot, Trap.ok_bind]
    rfl

/-- An instruction whose registers exist executes without a trap. -/
theorem checkedExecute_eq (hvalid : m.settings.fault? = none)
    (hslot : s.slot.toNat < m.settings.programSize.toNat)
    (hstack : 2 * (s.stack.size + 1) < 2 ^ 64) {d : Instruction} (hd : d.InRange) (a : Cell) :
    m.checkedExecute d a s = .ok (m.execute d a s) := by
  have hpos := Settings.four_le_programSize hvalid
  unfold checkedExecute execute
  rw [Settings.checkedNextSlot_eq (by omega) (Settings.programSize_le hvalid) hslot, Trap.ok_bind]
  cases d.family with
  | call =>
    dsimp only
    rw [s.checkedCondition_eq hd, Trap.ok_bind]
    split
    · exact checkedCall_eq hvalid hslot hstack d a.bits
    · rw [s.checkedStore_eq hd, Trap.ok_bind]
      rfl
  | ret =>
    dsimp only
    rw [s.checkedCondition_eq hd, Trap.ok_bind]
    cases if s.condition d = true then s.stack.back? else none with
    | some frame =>
      dsimp only
      rw [State.checkedStore_eq hd, Trap.ok_bind]
      rfl
    | none =>
      dsimp only
      rw [State.checkedStore_eq hd, Trap.ok_bind]
      rfl
  | _ =>
    dsimp only
    rw [s.checkedResult_eq hd, Trap.ok_bind, s.checkedStore_eq hd, Trap.ok_bind]
    rfl

/-- A step does not trap where the invariant holds. -/
theorem checkedStep_eq (hvalid : m.settings.fault? = none)
    (hsize : m.instructions.size = m.settings.programSize.toNat)
    (hd : ∀ slot, (m.instruction slot).InRange) (hcount : 2 * (s.stack.size + 1) < 2 ^ 64)
    (h : m.Invariant s) : m.checkedStep s = .ok (m.step s) := by
  have hslot := h.slot
  have hstack := h.stack
  have hbudget := h.budget
  have htotal := m.settings.budget.toNat_lt
  unfold checkedStep step
  split
  · rfl
  next hb =>
  have hone : (1 : UInt64).toNat = 1 := rfl
  have hpos : s.budget.toNat ≠ 0 := fun e => hb (UInt64.toNat_inj.mp e)
  have hinstruction : m.instructions[s.slot.toNat]? = some (m.instruction s.slot) := by
    unfold instruction
    rw [Array.getElem?_eq_getElem (by omega)]
    rfl
  rw [Trap.difference_of_le (by omega), Trap.ok_bind, Trap.word_add (by omega), Trap.ok_bind,
    hinstruction, Trap.element_some, Trap.ok_bind, State.checkedMixAddress_eq (hd _), Trap.ok_bind,
    State.checkedReadA_eq (hd _), Trap.ok_bind]
  apply checkedExecute_eq hvalid _ _ (hd _)
  · change (m.fetch s).2.slot.toNat < _
    rw [fetch_slot]
    exact hslot
  · change 2 * ((m.fetch s).2.stack.size + 1) < _
    rw [fetch_stack]
    exact hcount

/-- From the state in which a machine with instructions read from words is loaded, any number of
steps leads to a state where the invariant holds and every index of the next step is in bounds, and
the next step does not trap. With the largest capacity of all, where one more frame makes more
entries than a word counts, this takes that the frames of the stack can be held in an array. -/
theorem invariant_and_no_trap {settings : Settings} {words : Array (BitVec 128)}
    {key : Vector UInt8 keyLength} {image : Vector UInt8 imageLength} {scratchpad : Array Cell}
    (h : load settings (words.map Instruction.ofWord) key image scratchpad = .ok (m, s)) (n : Nat) :
    m.settings = settings ∧ m.Invariant (m.after s n) ∧ m.IndexesInBounds (m.after s n) ∧
      (settings.stackLength.toNat < 2 ^ 64 - 2 ∨ (m.after s n).StackFits →
        m.checkedStep (m.after s n) = .ok (m.step (m.after s n))) := by
  have hstart := invariant_of_load h
  obtain ⟨hvalid, -, hsize, rfl, -⟩ := load_eq_ok_iff.mp h
  have hrun := hstart.after hvalid n
  have hd (slot : UInt64) :
      (instruction ⟨settings, words.map Instruction.ofWord⟩ slot).InRange := by
    unfold instruction
    rw [Array.getElem?_map]
    cases words[slot.toNat]? with
    | none => exact ⟨by decide, by decide, by decide⟩
    | some word => exact Instruction.inRange_ofWord word
  refine ⟨rfl, hrun, ?_, ?_⟩
  · exact
      { slot := hsize ▸ hrun.slot
        registerA := (hd _).registerA
        registerB := (hd _).registerB
        registerC := (hd _).registerC
        cell := by
          intro window address
          rw [Vector.size_toArray]
          exact (window.index address).isLt }
  · intro hfits
    have hstack := hrun.stack
    dsimp only at hstack
    apply checkedStep_eq hvalid hsize hd _ hrun
    rcases hfits with hlength | hfits
    · omega
    · unfold State.StackFits at hfits
      omega

/-- A program of calls whose stack has room for one frame: its second step finds the stack full, and
five more steps follow. -/
theorem invariant_and_no_trap_calls :
    ∃ m s, load { programSize := 4, budget := 6, stackLength := 2 }
        ((Array.replicate 4 0x060000E0#128).map Instruction.ofWord) (Vector.replicate keyLength 7)
        (Vector.replicate imageLength 1) (Array.replicate scratchpadLength ⟨5⟩) = .ok (m, s) ∧
      m.Invariant (m.after s 7) ∧ m.IndexesInBounds (m.after s 7) ∧
        m.checkedStep (m.after s 7) = .ok (m.step (m.after s 7)) := by
  obtain ⟨m, s, h⟩ := exists_load_eq_ok { programSize := 4, budget := 6, stackLength := 2 }
    ((Array.replicate 4 0x060000E0#128).map Instruction.ofWord) (Vector.replicate keyLength 7)
    (Vector.replicate imageLength 1) (Array.replicate scratchpadLength ⟨5⟩) (by decide) (by decide)
    (by rw [Array.size_map, Array.size_replicate]; rfl) Array.size_replicate
  obtain ⟨-, hinvariant, hindexes, hstep⟩ := invariant_and_no_trap h 7
  exact ⟨m, s, h, hinvariant, hindexes, hstep (.inl (by decide))⟩

end Machine
end RandomMachine
