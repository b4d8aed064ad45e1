import RandomMachine.Proofs.Machine.Invariant

/-!
# Budgets

The budget of a run is what makes it end, and all that it does is to cut the run off: a machine with
a smaller budget goes through the same states as one with a larger budget, apart from the budget
itself, until either its budget is spent or the stack overflows.
-/

namespace RandomMachine

/-- Replaces the budget of a state. -/
def State.withBudget (s : State) (budget : UInt64) : State := { s with budget }

/-! ### Two budgets in lock step -/

namespace State

variable (s : State) (budget : UInt64) (d : Instruction)

/-- The budget does not decide what is read as operand A. -/
theorem readA_withBudget : (s.withBudget budget).readA d =
    ((s.readA d).1, (s.readA d).2.withBudget budget) := by
  unfold readA
  cases d.sourceA <;> rfl

/-- The budget does not decide what is written. -/
theorem store_withBudget (value : Scalar) :
    (s.withBudget budget).store d value = (s.store d value).withBudget budget := by
  unfold store
  cases d.destination with
  | register number => cases value <;> rfl
  | scratchpad window register address => rfl

end State

namespace Machine

/-- The machine with another budget in its settings. -/
def withBudget (m : Machine) (budget : UInt64) : Machine :=
  { m with settings := { m.settings with budget } }

/-- Settings set the budget of a run only where it begins. -/
theorem step_machine_withBudget (m : Machine) (budget : UInt64) (s : State) :
    (m.withBudget budget).step s = m.step s := rfl

/-- The budget does not decide what an instruction does. -/
theorem execute_withBudget (m : Machine) (d : Instruction) (a : Cell) (s : State)
    (budget : UInt64) :
    m.execute d a (s.withBudget budget) =
      ((m.execute d a s).1, (m.execute d a s).2.withBudget budget) := by
  have hstore (t : State) (value : Scalar) (slot : UInt64) :
      continueAt slot ((t.withBudget budget).store d value) =
        ((continueAt slot (t.store d value)).1,
          (continueAt slot (t.store d value)).2.withBudget budget) := by
    rw [State.store_withBudget]
    rfl
  unfold execute
  split
  · rw [show (s.withBudget budget).condition d = s.condition d from rfl]
    split
    · unfold call
      rw [show (s.withBudget budget).stack = s.stack from rfl]
      split <;> rfl
    · exact hstore s _ _
  · rw [show (s.withBudget budget).condition d = s.condition d from rfl,
      show (s.withBudget budget).stack = s.stack from rfl]
    split
    · next frame _ => exact hstore { s with stack := s.stack.pop } _ _
    · exact hstore s _ _
  · dsimp only
    rw [State.store_withBudget]
    rfl

/-- Two states that differ in their budgets alone take the same step, as long as there is budget in
both. -/
theorem step_withBudget (m : Machine) {s : State} (hs : s.budget ≠ 0) {budget : UInt64}
    (hb : budget ≠ 0) :
    m.step (s.withBudget budget) = ((m.step s).1, (m.step s).2.withBudget (budget - 1)) := by
  have hfetch : m.fetch (s.withBudget budget) =
      ((m.fetch s).1, (m.fetch s).2.withBudget (budget - 1)) :=
    State.readA_withBudget (s.spend.mixAddress (m.instruction s.slot)) (budget - 1) _
  rw [m.step_of_budget_ne_zero s hs, m.step_of_budget_ne_zero (s.withBudget budget) hb, hfetch]
  exact m.execute_withBudget _ _ _ _

/-! ### Runs that go on until they end -/

/-- Taking steps from a state leads to an end in this way and in this state. -/
inductive RunsTo (m : Machine) : State → Exit → State → Prop
  | done {s t : State} {exit : Exit} (step : m.step s = (.done exit, t)) : RunsTo m s exit t
  | next {s t u : State} {slot : UInt64} {exit : Exit} (step : m.step s = (.next slot, t))
      (run : RunsTo m t exit u) : RunsTo m s exit u

/-- The next step ends the run because the stack has no room. -/
def Overflows (m : Machine) (s : State) (slot : UInt64) : Prop :=
  ∃ executed, (m.step s).1 = .done (.stackOverflow slot executed)

/-- A step with budget spends one instruction of it, and reports the end of the run exactly if the
stack overflows. -/
theorem step_spends (m : Machine) {s : State} (h : s.budget ≠ 0) :
    (m.step s).2.budget = s.budget - 1 ∧ (m.step s).2.executed = s.executed + 1 ∧
      ((∃ slot, (m.step s).1 = .next slot) ∨
        (m.step s).1 = .done (.stackOverflow s.slot (s.executed + 1))) := by
  generalize hp : m.step s = p
  cases hp ▸ m.transition_step s with
  | halt hb => exact absurd hb h
  | overflow => exact ⟨m.fetch_budget s, m.fetch_executed s, .inr rfl⟩
  | call => exact ⟨m.fetch_budget s, m.fetch_executed s, .inl ⟨_, rfl⟩⟩
  | ret =>
    exact ⟨(State.store_budget _ _ _).trans (m.fetch_budget s),
      (State.store_executed _ _ _).trans (m.fetch_executed s), .inl ⟨_, rfl⟩⟩
  | pass =>
    exact ⟨(State.store_budget _ _ _).trans (m.fetch_budget s),
      (State.store_executed _ _ _).trans (m.fetch_executed s), .inl ⟨_, rfl⟩⟩
  | compute =>
    exact ⟨(State.store_budget _ _ _).trans (m.fetch_budget s),
      (State.store_executed _ _ _).trans (m.fetch_executed s), .inl ⟨_, rfl⟩⟩

/-- Steps that spend the whole budget come to an end: fuel for as many steps as there is budget is
enough, and what is found with it is what the steps lead to. -/
theorem runsTo_runFor (m : Machine) (fuel : Nat) (s : State) (h : s.budget.toNat = fuel) :
    m.RunsTo s (m.runFor fuel s).1 (m.runFor fuel s).2 := by
  induction fuel generalizing s with
  | zero => exact .done (m.step_of_budget_zero s (UInt64.toNat_inj.mp h))
  | succ fuel ih =>
    have hb : s.budget ≠ 0 := by
      rintro hzero
      rw [hzero] at h
      cases h
    obtain ⟨hbudget, -, -⟩ := m.step_spends hb
    rw [runFor]
    split
    · next slot t hstep =>
      rw [hstep] at hbudget
      refine .next hstep (ih t ?_)
      rw [hbudget, toNat_budget_sub_one hb, h]
      rfl
    · next exit t hstep => exact .done hstep

/-- The model's run is a run to the end. -/
theorem runsTo_run (m : Machine) (s : State) : m.RunsTo s (m.run s).1 (m.run s).2 :=
  m.runsTo_runFor _ s rfl

/-- A run has one end. -/
theorem RunsTo.unique {m : Machine} {s t t' : State} {exit exit' : Exit} (h : m.RunsTo s exit t)
    (h' : m.RunsTo s exit' t') : exit = exit' ∧ t = t' := by
  induction h with
  | done hstep =>
    cases h' with
    | done hstep' =>
      obtain ⟨hexit, ht⟩ := Prod.mk.inj (hstep.symm.trans hstep')
      exact ⟨Progress.done.inj hexit, ht⟩
    | next hstep' => exact absurd (Prod.mk.inj (hstep.symm.trans hstep')).1 (by simp)
  | next hstep _ ih =>
    cases h' with
    | done hstep' => exact absurd (Prod.mk.inj (hstep.symm.trans hstep')).1 (by simp)
    | next hstep' hrun =>
      obtain ⟨-, rfl⟩ := Prod.mk.inj (hstep.symm.trans hstep')
      exact ih hrun

/-- A run that has taken steps without an end ends as it does from there. -/
theorem RunsTo.of_after {m : Machine} {s t : State} {exit : Exit} {n : Nat}
    (hnext : ∀ i < n, ∃ slot, (m.step (m.after s i)).1 = .next slot)
    (h : m.RunsTo (m.after s n) exit t) : m.RunsTo s exit t := by
  induction n with
  | zero => exact h
  | succ n ih =>
    obtain ⟨slot, hslot⟩ := hnext n (Nat.lt_succ_self n)
    exact ih (fun i hi => hnext i (Nat.lt_succ_of_lt hi)) (.next (Prod.ext hslot rfl) h)

/-- A run takes steps that go on, and then one that ends it. -/
theorem RunsTo.exists_after {m : Machine} {s t : State} {exit : Exit} (h : m.RunsTo s exit t) :
    ∃ n, (∀ i < n, ∃ slot, (m.step (m.after s i)).1 = .next slot) ∧
      m.step (m.after s n) = (.done exit, t) := by
  induction h with
  | done hstep => exact ⟨0, fun i hi => absurd hi (Nat.not_lt_zero i), hstep⟩
  | next hstep _ ih =>
    obtain ⟨n, hnext, hdone⟩ := ih
    refine ⟨n + 1, ?_, ?_⟩
    · intro i hi
      cases i with
      | zero => exact ⟨_, congrArg Prod.fst hstep⟩
      | succ i =>
        rw [← after_step, hstep]
        exact hnext i (by omega)
    · rw [← after_step, hstep]
      exact hdone

/-! ### Runs with a smaller budget -/

/-- Every step spends one instruction, as long as there is budget. -/
theorem after_spends (m : Machine) (s : State) {n : Nat} (h : n ≤ s.budget.toNat) :
    (m.after s n).budget.toNat = s.budget.toNat - n ∧
      (m.after s n).executed = s.executed + .ofNat n := by
  induction n with
  | zero => exact ⟨rfl, (UInt64.add_zero _).symm⟩
  | succ n ih =>
    obtain ⟨hbudget, hexecuted⟩ := ih (by omega)
    have hne : (m.after s n).budget ≠ 0 := by
      intro hzero
      rw [hzero] at hbudget
      change 0 = _ at hbudget
      omega
    obtain ⟨hspent, hcounted, -⟩ := m.step_spends hne
    refine ⟨?_, ?_⟩
    · change (m.step (m.after s n)).2.budget.toNat = _
      rw [hspent, toNat_budget_sub_one hne, hbudget]
      omega
    · change (m.step (m.after s n)).2.executed = _
      rw [hcounted, hexecuted, UInt64.ofNat_add, UInt64.add_assoc]
      rfl

/-- There is budget left before as many steps have been taken as there was budget. -/
theorem budget_after_ne_zero (m : Machine) (s : State) {n : Nat} (h : n < s.budget.toNat) :
    (m.after s n).budget ≠ 0 := by
  intro hzero
  have hbudget := (m.after_spends s (n := n) (by omega)).1
  rw [hzero] at hbudget
  change 0 = _ at hbudget
  omega

/-- A step of a run that has a smaller budget left is the same step. -/
theorem step_after_withBudget (m : Machine) (s : State) {budget : UInt64}
    (hle : budget.toNat ≤ s.budget.toNat) {n : Nat} (h : n < budget.toNat) :
    (m.withBudget budget).step ((m.after s n).withBudget (budget - .ofNat n)) =
      ((m.step (m.after s n)).1, (m.after s (n + 1)).withBudget (budget - .ofNat (n + 1))) := by
  have hleft : budget - .ofNat n ≠ 0 := by
    intro hzero
    rw [show budget = .ofNat n by grind, UInt64.toNat_ofNat'] at h
    have := Nat.mod_le n (2 ^ 64)
    omega
  have hspent : budget - .ofNat (n + 1) = budget - .ofNat n - 1 := by
    rw [UInt64.ofNat_add]
    grind
  rw [step_machine_withBudget, m.step_withBudget (m.budget_after_ne_zero s (by omega)) hleft,
    hspent]
  rfl

/-- A smaller budget leads through the same states, apart from what is left of it. -/
theorem after_withBudget (m : Machine) (s : State) {budget : UInt64}
    (hle : budget.toNat ≤ s.budget.toNat) {n : Nat} (h : n ≤ budget.toNat) :
    (m.withBudget budget).after (s.withBudget budget) n =
      (m.after s n).withBudget (budget - .ofNat n) := by
  induction n with
  | zero => rw [after, after, show UInt64.ofNat 0 = 0 from rfl, UInt64.sub_zero]
  | succ n ih => rw [after, ih (by omega), m.step_after_withBudget s hle h]

/-- A run with a smaller budget goes on as long as the stack does not overflow. -/
theorem step_next_of_not_overflows (m : Machine) (s : State) {budget : UInt64}
    (hle : budget.toNat ≤ s.budget.toNat) {n : Nat} (h : n < budget.toNat)
    (hroom : ∀ slot, ¬m.Overflows (m.after s n) slot) :
    ∃ slot, ((m.withBudget budget).step
      ((m.withBudget budget).after (s.withBudget budget) n)).1 = .next slot := by
  rw [m.after_withBudget s hle (by omega), m.step_after_withBudget s hle h]
  rcases (m.step_spends (m.budget_after_ne_zero s (by omega : n < _))).2.2 with hnext | hfull
  · exact hnext
  · exact absurd ⟨_, hfull⟩ (hroom _)

/-- Without an overflow a run with a smaller budget halts when the budget is spent. -/
theorem runsTo_of_not_overflows (m : Machine) (s : State) {budget : UInt64}
    (hle : budget.toNat ≤ s.budget.toNat)
    (hroom : ∀ i < budget.toNat, ∀ slot, ¬m.Overflows (m.after s i) slot) :
    (m.withBudget budget).RunsTo (s.withBudget budget) (.halted (s.executed + budget))
      ((m.after s budget.toNat).withBudget 0) := by
  have hend : (m.withBudget budget).after (s.withBudget budget) budget.toNat =
      (m.after s budget.toNat).withBudget 0 := by
    rw [m.after_withBudget s hle (Nat.le_refl _), UInt64.ofNat_toNat, UInt64.sub_self]
  have hexecuted : ((m.after s budget.toNat).withBudget 0).executed = s.executed + budget := by
    have hcounted := (m.after_spends s hle).2
    rwa [UInt64.ofNat_toNat] at hcounted
  refine .of_after (fun i hi => m.step_next_of_not_overflows s hle hi (hroom i hi)) ?_
  rw [hend, ← hexecuted]
  exact .done (step_of_budget_zero _ _ rfl)

/-- An overflow reports how many instructions have been executed, the call included. -/
theorem exit_of_overflows (m : Machine) (s : State) {k : Nat} (hk : k < s.budget.toNat)
    {slot : UInt64} (hfull : m.Overflows (m.after s k) slot) :
    (m.step (m.after s k)).1 = .done (.stackOverflow slot (s.executed + .ofNat (k + 1))) := by
  have hcounted := (m.after_spends s (Nat.le_of_lt hk)).2
  obtain ⟨executed, hdone⟩ := hfull
  rcases (m.step_spends (m.budget_after_ne_zero s hk)).2.2 with ⟨_, hnext⟩ | hover
  · exact absurd (hnext.symm.trans hdone) (by simp)
  · have hsame := hover.symm.trans hdone
    injection hsame with hsame
    injection hsame with hslot
    rw [hover, hslot, hcounted, UInt64.ofNat_add, ← UInt64.add_assoc]
    rfl

/-- The first overflow within a smaller budget ends the run with that budget, too. -/
theorem runsTo_of_overflows (m : Machine) (s : State) {budget : UInt64}
    (hle : budget.toNat ≤ s.budget.toNat) {k : Nat} (hk : k < budget.toNat)
    (hroom : ∀ i < k, ∀ slot, ¬m.Overflows (m.after s i) slot) {slot : UInt64}
    (hfull : m.Overflows (m.after s k) slot) :
    (m.withBudget budget).RunsTo (s.withBudget budget)
      (.stackOverflow slot (s.executed + .ofNat (k + 1)))
      ((m.after s (k + 1)).withBudget (budget - .ofNat (k + 1))) := by
  have hexit := m.exit_of_overflows s (by omega : k < _) hfull
  refine .of_after (fun i hi => m.step_next_of_not_overflows s hle (by omega) (hroom i hi)) ?_
  rw [m.after_withBudget s hle (by omega)]
  exact .done (by rw [m.step_after_withBudget s hle hk, hexit])

/-- The budget cuts a run off and does nothing else. Two machines that are loaded with the same
program and differ in their budgets both run to an end. If the one with the larger budget does not
overflow its stack within the smaller budget, the other one halts with the whole budget spent, in
the state that the first one has after as many steps. If the first overflow comes within the smaller
budget, both runs end with it, in states that differ in what is left of the budget. -/
theorem run_of_smaller_budget {settings : Settings} {instructions : Array Instruction}
    {key : Vector UInt8 keyLength} {image : Vector UInt8 imageLength} {scratchpad : Array Cell}
    {long : Machine} {s : State} {budget : UInt64}
    (h : load settings instructions key image scratchpad = .ok (long, s)) (hpos : 1 ≤ budget)
    (hle : budget ≤ settings.budget) :
    ∃ short t, load { settings with budget } instructions key image scratchpad = .ok (short, t) ∧
      long.RunsTo s (long.run s).1 (long.run s).2 ∧
      short.RunsTo t (short.run t).1 (short.run t).2 ∧
      ((∀ i < budget.toNat, ∀ slot, ¬long.Overflows (long.after s i) slot) →
        short.run t = (.halted budget, { long.after s budget.toNat with budget := 0 })) ∧
      ∀ k < budget.toNat, ∀ slot, (∀ i < k, ∀ other, ¬long.Overflows (long.after s i) other) →
        long.Overflows (long.after s k) slot →
          long.run s = (.stackOverflow slot (.ofNat (k + 1)), long.after s (k + 1)) ∧
          short.run t = (.stackOverflow slot (.ofNat (k + 1)),
            { long.after s (k + 1) with budget := budget - .ofNat (k + 1) }) := by
  obtain ⟨hvalid, hdram, hsize, rfl, hpad, rfl⟩ := load_eq_ok_iff.mp h
  obtain ⟨hprogram, -, hstack⟩ := settings.fault?_eq_none_iff.mp hvalid
  have hvalid' : { settings with budget }.fault? = none := by
    refine (Settings.fault?_eq_none_iff _).mpr ⟨hprogram, ?_, hstack⟩
    rintro rfl
    exact absurd hpos (by decide)
  refine ⟨_, _, load_eq_ok_iff.mpr ⟨hvalid', hdram, hsize, rfl, hpad, rfl⟩, runsTo_run _ _,
    runsTo_run _ _, ?_, ?_⟩
  · intro hroom
    have hend := runsTo_of_not_overflows _ _ (UInt64.le_iff_toNat_le.mp hle) hroom
    rw [UInt64.zero_add] at hend
    obtain ⟨hexit, hstate⟩ := (runsTo_run _ _).unique hend
    exact Prod.ext hexit hstate
  · intro k hk slot hroom hfull
    have hends (other : UInt64) (hother : other ≤ settings.budget) (hlt : k < other.toNat) :=
      runsTo_of_overflows _ _ (UInt64.le_iff_toNat_le.mp hother) hlt hroom hfull
    simp only [UInt64.zero_add] at hends
    have hlt : k < settings.budget.toNat :=
      Nat.lt_of_lt_of_le hk (UInt64.le_iff_toNat_le.mp hle)
    -- The larger budget, taken as a budget to cut to, leaves every state as it is.
    have hlong := hends settings.budget (UInt64.le_refl _) hlt
    rw [← after_withBudget _ _ (Nat.le_refl _) hlt] at hlong
    obtain ⟨hexit, hstate⟩ := (runsTo_run _ _).unique hlong
    obtain ⟨hexit', hstate'⟩ := (runsTo_run _ _).unique (hends budget hle hk)
    exact ⟨Prod.ext hexit hstate, Prod.ext hexit' hstate'⟩

/-- A program of calls whose stack has room for one frame. -/
def nestingCalls (budget : UInt64) : Except Error (Machine × State) :=
  load { programSize := 4, budget, stackLength := 2 }
    (Array.replicate 4 { opcode := 224, placeB := 6 }) (Vector.replicate keyLength 7)
    (Vector.replicate imageLength 1) (Array.replicate scratchpadLength ⟨5⟩)

/-- Of a budget of six, the first instruction is left, or the first three: the call in the second
slot overflows the stack. -/
theorem run_of_smaller_budget_calls :
    ∃ long s, nestingCalls 6 = .ok (long, s) ∧
      (∃ short t, nestingCalls 1 = .ok (short, t) ∧
        short.run t = (.halted 1, { long.after s 1 with budget := 0 })) ∧
      ∃ short t, nestingCalls 3 = .ok (short, t) ∧
        short.run t = (.stackOverflow 1 2, { long.after s 2 with budget := 1 }) := by
  have h : nestingCalls 6 = .ok (⟨_, _⟩, _) :=
    load_eq_ok_iff.mpr ⟨by decide, by decide, Array.size_replicate, rfl, Array.size_replicate, rfl⟩
  obtain ⟨one, t, hone, -, -, hhalts, -⟩ :=
    run_of_smaller_budget h (by decide : (1 : UInt64) ≤ 1) (by decide)
  obtain ⟨three, u, hthree, -, -, -, hends⟩ :=
    run_of_smaller_budget h (by decide : (1 : UInt64) ≤ 3) (by decide)
  refine ⟨_, _, h, ⟨one, t, hone, hhalts ?_⟩, three, u, hthree,
    (hends 1 (by decide) 1 ?_ ⟨2, by decide⟩).2⟩
  -- The first call goes on.
  all_goals
    intro i hi slot ⟨executed, hdone⟩
    obtain rfl : i = 0 := Nat.lt_one_iff.mp hi
    exact Progress.noConfusion ((by decide : _ = Progress.next 1).symm.trans hdone)

end Machine
end RandomMachine
