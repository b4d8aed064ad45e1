import RandomMachine.Proofs.Binary64.Settled
import RandomMachine.Proofs.Machine.Invariant

/-!
# Float registers

No float register ever holds a subnormal double or a signaling NaN, in whatever modes the machine
rounds. The registers begin as integers, and only results are written to them, which no operation
lets be one of these, even from immediates that are.
-/

namespace RandomMachine

open Binary64

namespace State

/-- Whether all float registers hold neither subnormal doubles nor signaling NaNs. -/
def FloatsSettled (s : State) : Prop := ∀ i : Fin registerCount, s.f[i].Settled

/-- The state with another rounding mode, if one is given. -/
def withMode (s : State) (mode : Option RoundingMode) : State :=
  { s with mode := mode.getD s.mode }

/-- A float result is settled, whatever the bits of operand B are. -/
theorem settled_result {s : State} {d : Instruction} {a : Cell} {x : Binary64}
    (h : s.result d a = .double x) : x.Settled := by
  have hscalar (word : UInt64) (type : OperandType) : integerScalar word type ≠ .double x := by
    cases type <;> exact Scalar.noConfusion
  unfold result at h
  split at h
  · exact Scalar.double.inj h ▸ completes_add.settled _ _ _
  · exact Scalar.double.inj h ▸ completes_sub.settled _ _ _
  · exact Scalar.double.inj h ▸ completes_mul.settled _ _ _
  · exact Scalar.double.inj h ▸ completes_div.settled _ _ _
  · exact Scalar.double.inj h ▸ settled_sqrtAbs _ _
  · exact Scalar.double.inj h ▸ settled_ofInt _ (abs_toInt_le _)
  · exact absurd h (hscalar _ _)

variable {s : State}

/-- Writing a value keeps the float registers settled: only a double may be written to them, and it
is settled. -/
theorem FloatsSettled.store (h : s.FloatsSettled) (d : Instruction) {value : Scalar}
    (hvalue : ∀ x, value = .double x → x.Settled) : (s.store d value).FloatsSettled := by
  unfold State.store
  split
  · next number _ =>
    split
    · next x =>
      intro i
      change (s.f.setIfInBounds number.toNat x)[i.val].Settled
      rw [Vector.getElem_setIfInBounds]
      split
      · exact hvalue x rfl
      · exact h i
    · exact h
  · exact h

end State

namespace Machine

variable {m : Machine} {s : State}

/-- Every step keeps the float registers settled. -/
theorem floatsSettled_step (h : s.FloatsSettled) : (m.step s).2.FloatsSettled := by
  have hfetch : (m.fetch s).2.FloatsSettled := by
    unfold State.FloatsSettled
    rwa [fetch_f]
  have hword {t : State} (ht : t.FloatsSettled) (word : UInt64) :
      (t.store (m.instruction s.slot) (.uint64 word)).FloatsSettled :=
    ht.store _ fun x hx => Scalar.noConfusion hx
  generalize hp : m.step s = p
  cases hp ▸ m.transition_step s with
  | halt => exact h
  | overflow => exact hfetch
  | call => exact hfetch
  | ret _ _ _ stack => exact hword (t := { (m.fetch s).2 with stack }) hfetch _
  | pass => exact hword hfetch _
  | compute => exact hfetch.store _ fun x hx => State.settled_result hx

/-- The state after a number of steps, when the rounding mode may be set anew before each of them.
-/
def afterModes (m : Machine) (s : State) (modes : Nat → Option RoundingMode) : Nat → State
  | 0 => s
  | n + 1 => (m.step ((m.afterModes s modes n).withMode (modes n))).2

/-- The states of an ordinary run are those in which no mode is set but by its instructions. -/
theorem afterModes_none (m : Machine) (s : State) (n : Nat) :
    m.afterModes s (fun _ => none) n = m.after s n := by
  induction n with
  | zero => rfl
  | succ n ih =>
    rw [afterModes, ih]
    rfl

/-- Runs keep the float registers settled, whatever modes are set on the way. -/
theorem floatsSettled_afterModes (h : s.FloatsSettled) (modes : Nat → Option RoundingMode)
    (n : Nat) : (m.afterModes s modes n).FloatsSettled := by
  induction n with
  | zero => exact h
  | succ n ih => exact floatsSettled_step ih

/-- The float registers begin as integers. -/
theorem floatsSettled_of_load {settings : Settings} {instructions : Array Instruction}
    {key : Vector UInt8 keyLength} {image : Vector UInt8 imageLength} {scratchpad : Array Cell}
    (h : load settings instructions key image scratchpad = .ok (m, s)) : s.FloatsSettled := by
  obtain ⟨-, -, -, -, -, rfl⟩ := load_eq_ok_iff.mp h
  intro i
  simp only [Fin.getElem_fin, Vector.getElem_ofFn]
  exact settled_ofInt _ (abs_toInt_le _)

/-- In every state that a run of an accepted program reaches, through steps in any rounding modes,
no float register holds a subnormal double or a signaling NaN. Operand B of a float family may be
the one or the other. -/
theorem floatRegisters_settled {settings : Settings} {instructions : Array Instruction}
    {key : Vector UInt8 keyLength} {image : Vector UInt8 imageLength} {scratchpad : Array Cell}
    (h : load settings instructions key image scratchpad = .ok (m, s))
    (modes : Nat → Option RoundingMode) (n : Nat) :
    (∀ i : Fin registerCount, (m.afterModes s modes n).f[i].isSubnormal = false ∧
      (m.afterModes s modes n).f[i].isSignaling = false) ∧
    (∃ d : Instruction, d.family = .fadd ∧ ∀ t : State, (t.floatB d).isSubnormal = true) ∧
    ∃ d : Instruction, d.family = .fadd ∧ ∀ t : State, (t.floatB d).isSignaling = true := by
  refine ⟨fun i => ?_, ?_, ?_⟩
  · have hsettled := floatsSettled_afterModes (m := m) (floatsSettled_of_load h) modes n i
    exact ⟨hsettled.isSubnormal, hsettled.isSignaling⟩
  · have hbits : (⟨floatImmediateBits 1⟩ : Binary64).isSubnormal = true := by decide +kernel
    exact ⟨{ opcode := 160, placeB := 6, immediate := 1 }, by decide, fun _ => hbits⟩
  · have hbits : (⟨floatImmediateBits 0x7FF00001⟩ : Binary64).isSignaling = true := by
      decide +kernel
    exact ⟨{ opcode := 160, placeB := 6, immediate := 0x7FF00001 }, by decide, fun _ => hbits⟩

/-- A program of sums with a signaling NaN, of which one is rounded in each mode. -/
theorem floatRegisters_settled_sums :
    ∃ m s, load { programSize := 4, budget := 4 }
        (Array.replicate 4 { opcode := 160, placeB := 6, immediate := 0x7FF00001 })
        (Vector.replicate keyLength 7) (Vector.replicate imageLength 1)
        (Array.replicate scratchpadLength ⟨5⟩) = .ok (m, s) ∧
      ∀ i : Fin registerCount,
        (m.afterModes s (fun n => some (.ofWord (.ofNat n))) 4).f[i].isSubnormal = false ∧
          (m.afterModes s (fun n => some (.ofWord (.ofNat n))) 4).f[i].isSignaling = false := by
  obtain ⟨m, s, h⟩ := exists_load_eq_ok { programSize := 4, budget := 4 }
    (Array.replicate 4 { opcode := 160, placeB := 6, immediate := 0x7FF00001 })
    (Vector.replicate keyLength 7) (Vector.replicate imageLength 1)
    (Array.replicate scratchpadLength ⟨5⟩) (by decide) (by decide)
    (by rw [Array.size_replicate]; rfl) Array.size_replicate
  exact ⟨m, s, h, (floatRegisters_settled h _ 4).1⟩

end Machine
end RandomMachine
