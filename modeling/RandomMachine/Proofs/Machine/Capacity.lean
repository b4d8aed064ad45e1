import RandomMachine.Proofs.Machine.Brackets
import RandomMachine.Proofs.Machine.Budget

/-!
# Stack capacity

The capacity of the stack shows in a run only when a call finds no room. Up to there a machine with
a larger stack goes through the same states, and because frames take two entries and capacities are
even, the call that overflows a stack fits into every larger one.
-/

namespace RandomMachine.Machine

/-- The machine with another stack capacity in its settings. -/
def withStackLength (m : Machine) (stackLength : UInt64) : Machine :=
  { m with settings := { m.settings with stackLength } }

variable {m : Machine} {s : State} {stackLength : UInt64}

/-! ### Overflows -/

/-- The stack overflows exactly if a call is to be taken and there is no room for its frame. -/
theorem overflows_iff {slot : UInt64} :
    m.Overflows s slot ↔
      s.slot = slot ∧ s.budget ≠ 0 ∧ (m.instruction s.slot).family = .call ∧
        (m.fetch s).2.condition (m.instruction s.slot) = true ∧
        m.settings.stackLength.toNat < 2 * (s.stack.size + 1) := by
  constructor
  · rintro ⟨executed, hdone⟩
    generalize hp : m.step s = p at hdone
    cases hp ▸ m.transition_step s with
    | halt => cases hdone
    | overflow hb hf hc hfull =>
      injection hdone with hdone
      injection hdone with hslot
      exact ⟨hslot, hb, hf, hc, hfull⟩
    | call => cases hdone
    | ret => cases hdone
    | pass => cases hdone
    | compute => cases hdone
  · rintro ⟨rfl, hb, hf, hc, hfull⟩
    refine ⟨s.executed + 1, ?_⟩
    rw [m.step_of_budget_ne_zero s hb, execute, hf]
    dsimp only
    rw [if_pos hc, call, fetch_stack, if_pos hfull, fetch_slot, fetch_executed]

/-- A step that goes on does not overflow the stack. -/
theorem not_overflows_of_next {next : UInt64} (h : (m.step s).1 = .next next) (slot : UInt64) :
    ¬m.Overflows s slot := by
  rintro ⟨executed, hdone⟩
  cases h.symm.trans hdone

/-! ### Two capacities in lock step -/

section LockStep

variable (hle : m.settings.stackLength.toNat ≤ stackLength.toNat)

include hle

/-- Unless the stack overflows, a step is the same with a larger stack. -/
theorem step_withStackLength (hroom : ∀ slot, ¬m.Overflows s slot) :
    (m.withStackLength stackLength).step s = m.step s := by
  by_cases hb : s.budget = 0
  · rw [step_of_budget_zero _ _ hb, step_of_budget_zero _ _ hb]
  rw [step_of_budget_ne_zero _ _ hb, step_of_budget_ne_zero _ _ hb]
  change (m.withStackLength stackLength).execute (m.instruction s.slot) (m.fetch s).1
    (m.fetch s).2 = _
  unfold execute
  split
  · next hf =>
    split
    · next hc =>
      -- Only a call that is taken looks at the capacity.
      have hfits : 2 * (s.stack.size + 1) ≤ m.settings.stackLength.toNat :=
        Nat.le_of_not_lt fun hfull => hroom s.slot (overflows_iff.mpr ⟨rfl, hb, hf, hc, hfull⟩)
      have hlarge : ¬stackLength.toNat < 2 * (s.stack.size + 1) := by omega
      unfold call
      rw [fetch_stack, if_neg (Nat.not_lt.mpr hfits)]
      exact if_neg hlarge
    · rfl
  · rfl
  · rfl

/-- Up to the first overflow, a larger stack leads through the same states. -/
theorem after_withStackLength {n : Nat}
    (hroom : ∀ i < n, ∀ slot, ¬m.Overflows (m.after s i) slot) :
    (m.withStackLength stackLength).after s n = m.after s n := by
  induction n with
  | zero => rfl
  | succ n ih =>
    rw [after, ih fun i hi => hroom i (by omega), step_withStackLength hle (hroom n (by omega))]
    rfl

/-- A run that does not end in an overflow is the same with a larger stack. -/
theorem RunsTo.withStackLength {t : State} {exit : Exit} (h : m.RunsTo s exit t)
    (hexit : ∀ slot executed, exit ≠ .stackOverflow slot executed) :
    (m.withStackLength stackLength).RunsTo s exit t := by
  induction h with
  | done hstep =>
    refine .done ?_
    rw [step_withStackLength hle, hstep]
    rintro slot ⟨executed, hdone⟩
    rw [hstep] at hdone
    exact hexit slot executed (Progress.done.inj hdone)
  | next hstep _ ih =>
    have hroom := not_overflows_of_next (congrArg Prod.fst hstep)
    exact .next ((step_withStackLength hle hroom).trans hstep) (ih hexit)

end LockStep

/-! ### The step that ends a run -/

/-- A call that overflows the stack is paid from the budget. -/
theorem lt_budget_of_overflows {n : Nat}
    (hnext : ∀ i < n, ∃ slot, (m.step (m.after s i)).1 = .next slot) {slot : UInt64}
    (hfull : m.Overflows (m.after s n) slot) : n < s.budget.toNat := by
  apply Nat.lt_of_not_le
  intro hle
  -- When the budget is spent, the next step halts.
  have hspent := (m.after_spends s (Nat.le_refl s.budget.toNat)).1
  rw [Nat.sub_self] at hspent
  have hhalts := step_of_budget_zero m _ (UInt64.toNat_inj.mp hspent)
  rcases Nat.eq_or_lt_of_le hle with rfl | hlt
  · obtain ⟨executed, hdone⟩ := hfull
    rw [hhalts] at hdone
    cases hdone
  · obtain ⟨next, hslot⟩ := hnext _ hlt
    rw [hhalts] at hslot
    cases hslot

/-- A run that overflows the stack does so for the first time, and counts its steps. -/
theorem RunsTo.exists_overflow {t : State} {slot executed : UInt64}
    (h : m.RunsTo s (.stackOverflow slot executed) t) :
    ∃ k < s.budget.toNat, executed = s.executed + .ofNat (k + 1) ∧
      (∀ i < k, ∀ other, ¬m.Overflows (m.after s i) other) ∧
      m.step (m.after s k) = (.done (.stackOverflow slot executed), t) := by
  obtain ⟨k, hnext, hlast⟩ := h.exists_after
  have hfull : m.Overflows (m.after s k) slot := ⟨executed, congrArg Prod.fst hlast⟩
  have hk := lt_budget_of_overflows hnext hfull
  refine ⟨k, hk, ?_, ?_, hlast⟩
  · have hexit := m.exit_of_overflows s hk hfull
    rw [hlast] at hexit
    injection hexit with hexit
    injection hexit
  · intro i hi
    obtain ⟨next, hslot⟩ := hnext i hi
    exact not_overflows_of_next hslot

/-! ### Larger stacks -/

/-- The call that overflows a stack fits into every larger one: capacities are even, so that a full
stack leaves no entry over, and the next capacity has room for one more frame. -/
theorem takesCall_withStackLength {slot : UInt64}
    (hstack : 2 * s.stack.size ≤ m.settings.stackLength.toNat)
    (heven : m.settings.stackLength.toNat % 2 = 0) (heven' : stackLength.toNat % 2 = 0)
    (hlt : m.settings.stackLength < stackLength) (hfull : m.Overflows s slot) :
    (m.withStackLength stackLength).TakesCall s := by
  obtain ⟨-, hbudget, hfamily, hcondition, hover⟩ := overflows_iff.mp hfull
  have hlt := UInt64.lt_iff_toNat_lt.mp hlt
  have hroom : 2 * (s.stack.size + 1) ≤ stackLength.toNat := by omega
  exact ⟨hbudget, hfamily, hcondition, hroom⟩

/-- The capacity of the stack matters through overflows alone. Two machines that are loaded with the
same program and differ in their capacities both run to an end. If the one with the smaller stack
halts, the other one halts in the same state. If it overflows its stack with instruction `k + 1`,
both have gone through the same states up to there, and a stack that is really larger has room for
that call. -/
theorem run_of_larger_stack {settings : Settings} {instructions : Array Instruction}
    {key : Vector UInt8 keyLength} {image : Vector UInt8 imageLength} {scratchpad : Array Cell}
    {small : Machine}
    (h : load settings instructions key image scratchpad = .ok (small, s))
    (hle : settings.stackLength ≤ stackLength) (heven : stackLength.toNat % 2 = 0) :
    ∃ large, load { settings with stackLength } instructions key image scratchpad =
        .ok (large, s) ∧
      small.RunsTo s (small.run s).1 (small.run s).2 ∧
      large.RunsTo s (large.run s).1 (large.run s).2 ∧
      (∀ executed, (small.run s).1 = .halted executed → large.run s = small.run s) ∧
      ∀ slot executed, (small.run s).1 = .stackOverflow slot executed →
        ∃ k, executed.toNat = k + 1 ∧ (∀ i ≤ k, large.after s i = small.after s i) ∧
          small.step (small.after s k) = (.done (.stackOverflow slot executed), (small.run s).2) ∧
          (large.after s k).slot = slot ∧
          (settings.stackLength < stackLength → large.TakesCall (large.after s k)) ∧
          (settings.stackLength = stackLength → large.run s = small.run s) := by
  have hstart := invariant_of_load h
  obtain ⟨hvalid, hdram, hsize, rfl, hstate⟩ := load_eq_ok_iff.mp h
  obtain ⟨hprogram, hbudget, hpositive, hsmall⟩ := settings.fault?_eq_none_iff.mp hvalid
  have hlengths : settings.stackLength.toNat ≤ stackLength.toNat := UInt64.le_iff_toNat_le.mp hle
  have hvalid' : { settings with stackLength }.fault? = none :=
    (Settings.fault?_eq_none_iff _).mpr ⟨hprogram, hbudget, Nat.le_trans hpositive hlengths, heven⟩
  have hexecuted : s.executed = 0 := by
    obtain ⟨_, rfl⟩ := hstate
    rfl
  have hrun := runsTo_run ⟨settings, instructions⟩ s
  refine ⟨withStackLength ⟨settings, instructions⟩ stackLength,
    load_eq_ok_iff.mpr ⟨hvalid', hdram, hsize, rfl, hstate⟩, hrun, runsTo_run _ _, ?_, ?_⟩
  · intro executed hhalted
    have hlarge := hrun.withStackLength hlengths
      (by rw [hhalted]; exact fun _ _ => Exit.noConfusion)
    obtain ⟨hexit, hend⟩ := (runsTo_run _ _).unique hlarge
    exact Prod.ext hexit hend
  · intro slot executed hfull
    rw [hfull] at hrun
    obtain ⟨k, hk, hcount, hroom, hlast⟩ := hrun.exists_overflow
    have hover : Overflows ⟨settings, instructions⟩ _ slot := ⟨executed, congrArg Prod.fst hlast⟩
    have hsame (i : Nat) (hi : i ≤ k) :
        (withStackLength ⟨settings, instructions⟩ stackLength).after s i =
          after ⟨settings, instructions⟩ s i :=
      after_withStackLength hlengths fun j hj => hroom j (by omega)
    refine ⟨k, ?_, hsame, hlast, ?_, ?_, ?_⟩
    · have hlt := s.budget.toNat_lt
      rw [hcount, hexecuted, UInt64.zero_add, UInt64.toNat_ofNat_of_lt']
      exact Nat.lt_of_le_of_lt hk hlt
    · rw [hsame k (Nat.le_refl k)]
      exact (overflows_iff.mp hover).1
    · intro hlarger
      rw [hsame k (Nat.le_refl k)]
      exact takesCall_withStackLength (hstart.after hvalid k).stack hsmall heven hlarger hover
    · rintro rfl
      rfl

/-- The call in the second slot overflows a stack with room for one frame, and is taken if there is
room for two. -/
theorem run_of_larger_stack_calls :
    ∃ small large s, nestingCalls 6 = .ok (small, s) ∧
      load { programSize := 4, budget := 6, stackLength := 4 }
        (Array.replicate 4 { opcode := 224, placeB := 6 }) (Vector.replicate keyLength 7)
        (Vector.replicate imageLength 1) (Array.replicate scratchpadLength ⟨5⟩) =
          .ok (large, s) ∧
      (small.run s).1 = .stackOverflow 1 2 ∧ large.after s 1 = small.after s 1 ∧
      large.TakesCall (large.after s 1) := by
  have h : nestingCalls 6 = .ok (⟨_, _⟩, _) :=
    load_eq_ok_iff.mpr ⟨by decide, by decide, Array.size_replicate, rfl, Array.size_replicate, rfl⟩
  obtain ⟨large, hlarge, -, -, -, hoverflows⟩ :=
    run_of_larger_stack h (by decide : (2 : UInt64) ≤ 4) (by decide)
  obtain ⟨k, hk, hsame, -, -, htakes, -⟩ := hoverflows 1 2 (by decide)
  obtain rfl : 1 = k := Nat.succ.inj hk
  exact ⟨_, large, _, h, hlarge, by decide, hsame 1 (Nat.le_refl 1), htakes (by decide)⟩

end RandomMachine.Machine
