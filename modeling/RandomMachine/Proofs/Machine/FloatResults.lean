import RandomMachine.Proofs.Binary64.Arithmetic
import RandomMachine.Proofs.Machine.Transition

/-!
# Float results

Operand A of a float instruction is a 64-bit integer rounded to a double. Each of the float families
rounds its exact result once, in the mode of the machine, whatever finite double operand B is.
-/

namespace RandomMachine

open Binary64

/-- The real number that a float family computes from the values of its operands. Nothing is
divided by zero, and the root reads operand A without its sign. -/
noncomputable def Family.exactResult (family : Family) (a b : ℝ) : Option ℝ :=
  match family with
  | .fadd => some (a + b)
  | .fsub => some (a - b)
  | .fmul => some (a * b)
  | .fdiv => if b = 0 then none else some (a / b)
  | .fsqrt => some √|a|
  | _ => none

/-- The families with an exact result. -/
theorem Family.exactResult_eq_some {family : Family} {a b v : ℝ}
    (h : family.exactResult a b = some v) :
    family = .fadd ∧ v = a + b ∨ family = .fsub ∧ v = a - b ∨ family = .fmul ∧ v = a * b ∨
      (family = .fdiv ∧ b ≠ 0 ∧ v = a / b) ∨ family = .fsqrt ∧ v = √|a| := by
  unfold exactResult at h
  split at h
  · exact .inl ⟨rfl, (Option.some.inj h).symm⟩
  · exact .inr (.inl ⟨rfl, (Option.some.inj h).symm⟩)
  · exact .inr (.inr (.inl ⟨rfl, (Option.some.inj h).symm⟩))
  · split at h
    · cases h
    · next hb => exact .inr (.inr (.inr (.inl ⟨rfl, hb, (Option.some.inj h).symm⟩)))
  · exact .inr (.inr (.inr (.inr ⟨rfl, (Option.some.inj h).symm⟩)))
  · cases h

namespace State

/-- Operand A of a float family is a 64-bit integer, rounded in any mode. -/
theorem int64Valued_floatA (s : State) (a : Cell) : Int64Valued (s.floatA a) :=
  int64Valued_ofInt s.mode (abs_toInt_le a.toInt64)

/-- The result of a float family is its exact result, rounded once and flushed. -/
theorem exists_rounds_result {s : State} {d : Instruction} {a : Cell} {v : ℝ}
    (hb : d.family = .fsqrt ∨ (s.floatB d).isFinite = true)
    (hv : d.family.exactResult (s.floatA a).value (s.floatB d).value = some v) :
    ∃ z, Rounds s.mode v z ∧ s.result d a = .double z.flush := by
  have ha := s.int64Valued_floatA a
  rcases Family.exactResult_eq_some hv with ⟨hf, rfl⟩ | ⟨hf, rfl⟩ | ⟨hf, rfl⟩ | ⟨hf, hne, rfl⟩ |
    ⟨hf, rfl⟩
  · have hfinite := hb.resolve_left (by rw [hf]; decide)
    obtain ⟨z, hz, heq⟩ := ha.exists_rounds_add s.mode hfinite
    exact ⟨z, hz, by simp only [result, hf, heq]⟩
  · have hfinite := hb.resolve_left (by rw [hf]; decide)
    obtain ⟨z, hz, heq⟩ := ha.exists_rounds_sub s.mode hfinite
    exact ⟨z, hz, by simp only [result, hf, heq]⟩
  · have hfinite := hb.resolve_left (by rw [hf]; decide)
    obtain ⟨z, hz, heq⟩ := ha.exists_rounds_mul s.mode hfinite
    exact ⟨z, hz, by simp only [result, hf, heq]⟩
  · have hfinite := hb.resolve_left (by rw [hf]; decide)
    have hzero : (s.floatB d).isZero = false := by
      refine Bool.eq_false_iff.mpr fun hzero => hne ?_
      rw [value, units_eq_zero_iff.mpr hzero, Int.cast_zero, zero_div]
    obtain ⟨z, hz, heq⟩ := ha.exists_rounds_div s.mode hfinite hzero
    exact ⟨z, hz, by simp only [result, hf, heq]⟩
  · obtain ⟨z, hz, heq⟩ := ha.exists_rounds_sqrtAbs s.mode
    exact ⟨z, hz, by simp only [result, hf, heq]⟩

end State

namespace Machine

/-- A step of a family that neither moves along a call or return nor sets the rounding mode stores
a result and goes on. -/
theorem step_of_result {m : Machine} {s : State} (hbudget : s.budget ≠ 0)
    (hcall : (m.instruction s.slot).family ≠ .call) (hret : (m.instruction s.slot).family ≠ .ret)
    (hfround : (m.instruction s.slot).family ≠ .fround) :
    m.step s = continueAt (m.settings.nextSlot s.slot)
      ((m.fetch s).2.store (m.instruction s.slot)
        ((m.fetch s).2.result (m.instruction s.slot) (m.fetch s).1)) := by
  rw [m.step_of_budget_ne_zero s hbudget]
  unfold execute
  split
  · next h => exact absurd h hcall
  · next h => exact absurd h hret
  · rw [fetch_slot]
    dsimp only
    rw [State.nextMode, if_neg hfround, ← State.store_mode]

/-- A step of a float family stores its exact result, rounded once in the mode of the machine and
flushed. Operand A is finite whatever cell it is read from; operand B has to be finite, and not zero
to divide by it. -/
theorem step_rounds_exactResult {m : Machine} {s : State} {v : ℝ} (hbudget : s.budget ≠ 0)
    (hb : (m.instruction s.slot).family = .fsqrt ∨
      ((m.fetch s).2.floatB (m.instruction s.slot)).isFinite = true)
    (hv : (m.instruction s.slot).family.exactResult ((m.fetch s).2.floatA (m.fetch s).1).value
      ((m.fetch s).2.floatB (m.instruction s.slot)).value = some v) :
    ((m.fetch s).2.floatA (m.fetch s).1).isFinite = true ∧
      ∃ z, Rounds s.mode v z ∧
        m.step s = continueAt (m.settings.nextSlot s.slot)
          ((m.fetch s).2.store (m.instruction s.slot) (.double z.flush)) := by
  obtain ⟨z, hz, hresult⟩ := State.exists_rounds_result hb hv
  rw [fetch_mode] at hz
  refine ⟨(State.int64Valued_floatA _ _).isFinite, z, hz, ?_⟩
  rw [← hresult]
  apply step_of_result hbudget
  all_goals
    intro hf
    rw [hf] at hv
    cases hv

/-- A program that divides a cell by three. -/
def thirds : Machine :=
  ⟨{}, #[{ opcode := 212, placeA := 4, placeB := 6, immediate := 0x40080000 }]⟩

/-- A state that rounds up, with ones in all cells. -/
def ones : State :=
  { zeroState with mode := .up, scratchpad := Vector.replicate scratchpadLength ⟨1⟩ }

/-- What the first cell holds after the step is a third, rounded up. -/
theorem step_rounds_exactResult_thirds :
    ∃ z, Rounds .up (1 / 3) z ∧ thirds.step ones = continueAt (thirds.settings.nextSlot 0)
        ((thirds.fetch ones).2.store (thirds.instruction 0) (.double z.flush)) ∧
      (thirds.step ones).2.scratchpad.get ⟨0, by decide⟩ = ⟨z.flush.bits⟩ ∧
      z.flush = ⟨0x3FD5555555555556⟩ := by
  have hvalue {x : Binary64} {n : ℤ} (h : x.units = n * one) : x.value = n := by
    rw [value, h, Int.cast_mul, Int.cast_natCast, mul_div_cancel_right₀ _ one_cast_pos.ne']
  have hcell : (thirds.fetch ones).1 = ⟨1⟩ := by
    change ones.scratchpad[Window.l2.index _] = _
    exact Vector.getElem_replicate _
  have ha : ((thirds.fetch ones).2.floatA (thirds.fetch ones).1).value = (1 : ℤ) := by
    rw [hcell]
    exact hvalue (by decide +kernel)
  have hb : ((thirds.fetch ones).2.floatB (thirds.instruction ones.slot)).value = (3 : ℤ) :=
    hvalue (by decide +kernel)
  have hfamily : (thirds.instruction ones.slot).family = .fdiv := by decide
  have hexact : (thirds.instruction ones.slot).family.exactResult
      ((thirds.fetch ones).2.floatA (thirds.fetch ones).1).value
      ((thirds.fetch ones).2.floatB (thirds.instruction ones.slot)).value = some (1 / 3) := by
    rw [ha, hb, hfamily, Family.exactResult, if_neg (by norm_num), Int.cast_one, Int.cast_ofNat]
  obtain ⟨-, z, hz, hstep⟩ :=
    step_rounds_exactResult (by decide) (.inr (by decide +kernel)) hexact
  have hstored : (thirds.step ones).2.scratchpad.get ⟨0, by decide⟩ = ⟨z.flush.bits⟩ := by
    rw [hstep]
    exact (Vector.getElem_set_self _).trans rfl
  have hcontent : (thirds.step ones).2.scratchpad.get ⟨0, by decide⟩ = ⟨0x3FD5555555555556⟩ := by
    decide +kernel
  exact ⟨z, hz, hstep, hstored, congrArg Binary64.mk (Cell.mk.inj (hstored.symm.trans hcontent))⟩

end Machine
end RandomMachine
