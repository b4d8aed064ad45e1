import RandomMachine.Proofs.Binary64.Numbers

/-!
# What arithmetic does not return

Operands may be any bits, subnormal doubles and signaling NaNs included. No operation returns one of
these: every NaN it hands on is made quiet, a result that may be subnormal is flushed, and roots and
integers other than zero are too large to be subnormal.
-/

namespace RandomMachine.Binary64

/-- A NaN whose quiet bit is clear. -/
def isSignaling (x : Binary64) : Bool := x.isNaN && x.bits &&& 0x0008000000000000 == 0

/-- Neither subnormal nor a signaling NaN. -/
structure Settled (x : Binary64) : Prop where
  isSubnormal : x.isSubnormal = false
  isSignaling : x.isSignaling = false

section Kinds

variable {x y : Binary64}

/-- A number is settled unless it is subnormal. -/
theorem settled_of_isNaN_eq_false (h : x.isNaN = false) (hx : x.isSubnormal = false) :
    x.Settled :=
  ⟨hx, by rw [isSignaling, h, Bool.false_and]⟩

/-- Zeros are settled. -/
theorem settled_of_isZero (h : x.isZero = true) : x.Settled := by
  have hzero : x.magnitude = 0 := of_decide_eq_true h
  apply settled_of_isNaN_eq_false (isNaN_of_isZero h)
  rw [isSubnormal, hzero]
  rfl

/-- Infinities are settled. -/
theorem settled_of_isInfinite (h : x.isInfinite = true) : x.Settled := by
  have hinfinite : x.magnitude = infinityMagnitude := of_decide_eq_true h
  apply settled_of_isNaN_eq_false (isNaN_of_isInfinite h)
  rw [isSubnormal, hinfinite]
  rfl

/-- A NaN that is made quiet is settled. -/
theorem settled_quiet (h : x.isNaN = true) : x.quiet.Settled := by
  have hnan : infinityMagnitude < x.quiet.magnitude := of_decide_eq_true (isNaN_quiet h)
  have hquiet : x.quiet.bits &&& 0x0008000000000000 = 0x0008000000000000 := by
    apply UInt64.toNat_inj.mp
    rw [quiet, UInt64.toNat_and, UInt64.toNat_or, Nat.and_comm, Nat.and_or_distrib_left,
      Nat.and_self]
    exact Nat.eq_of_testBit_eq fun i => by
      rw [Nat.testBit_or, Nat.testBit_and]
      cases Nat.testBit _ i <;> simp
  have hlarge : binade < infinityMagnitude := by decide
  refine ⟨decide_eq_false (by omega), ?_⟩
  rw [isSignaling, hquiet]
  exact Bool.and_false _

/-- The NaN of invalid operations is quiet. -/
theorem settled_defaultNaN : defaultNaN.Settled := ⟨by decide, by decide⟩

end Kinds

/-! ### Moving and flushing -/

section Adjust

variable {x : Binary64}

/-- A number is settled when it is flushed. -/
theorem settled_flush (h : x.isNaN = false) : x.flush.Settled := by
  unfold flush
  split
  · exact settled_of_isZero (isZero_zero _)
  · next hx => exact settled_of_isNaN_eq_false h (Bool.eq_false_iff.mpr hx)

/-- A completed result is settled. -/
theorem settled_finish (mode : RoundingMode) (h : x.isNaN = false) (residual : Ordering) :
    (mode.finish x residual).Settled := by
  unfold RoundingMode.finish
  split
  · next hinfinite =>
    rw [← flush_overflow hinfinite]
    exact settled_flush (isNaN_adjust mode h _)
  · split
    · next hzero => exact settled_of_isZero hzero
    · exact settled_flush (isNaN_adjust mode h residual)

end Adjust

/-! ### Operations -/

section Operations

variable {x y : Binary64}

/-- Completed results are settled. -/
theorem Completed.settled {result : RoundingMode → Binary64} (h : Completed result)
    (mode : RoundingMode) : (result mode).Settled := by
  cases h with
  | infinite hx => exact settled_of_isInfinite hx
  | zero hx => exact settled_of_isZero hx
  | zeroSum x y =>
    change (mode.zeroSum x y).Settled
    rw [zeroSum_eq]
    exact settled_of_isZero (isZero_zero _)
  | finish hx residual => exact settled_finish mode hx residual

/-- The results of an operation that completes them are settled, whatever its operands are. -/
theorem Completes.settled {operation : RoundingMode → Binary64 → Binary64 → Binary64}
    {invalid : Binary64 → Binary64 → Prop} (h : Completes operation invalid) (mode : RoundingMode)
    (x y : Binary64) : (operation mode x y).Settled := by
  cases hnan : operandNaN x y with
  | some nan =>
    obtain ⟨z, hz, rfl⟩ := exists_quiet_of_operandNaN hnan
    rw [h.ofNaN mode x y _ hnan]
    exact settled_quiet hz
  | none =>
    by_cases hinvalid : invalid x y
    · rw [h.ofInvalid mode x y hnan hinvalid]
      exact settled_defaultNaN
    · exact (h.ofValid x y hnan hinvalid).settled mode

/-- Roots are settled. -/
theorem settled_sqrtAbs (mode : RoundingMode) (x : Binary64) : (mode.sqrtAbs x).Settled := by
  cases h : x.isNaN with
  | true =>
    rw [sqrtAbs_of_isNaN mode h]
    exact settled_quiet ((isNaN_abs x).trans h)
  | false => exact (completed_sqrtAbs h).settled mode

/-- Integers are settled: they are zero or far above the least normal double. -/
theorem Int64Valued.settled (hx : Int64Valued x) : x.Settled := by
  cases hzero : x.isZero with
  | true => exact settled_of_isZero hzero
  | false =>
    have hle := (two_pow_le_one (by norm_num : 52 ≤ 1074)).trans (hx.one_le_abs_units hzero)
    have hquanta : quanta binade ≤ quanta x.magnitude := by
      rw [abs_units] at hle
      rw [quanta_binade]
      exact_mod_cast hle
    have hmagnitude := quanta_strictMono.le_iff_le.mp hquanta
    exact settled_of_isNaN_eq_false (kind_of_isFinite hx.isFinite).1 (decide_eq_false (by omega))

/-- Rounded integers are settled. -/
theorem settled_ofInt (mode : RoundingMode) {n : ℤ} (hn : |n| ≤ 2 ^ 63) :
    (mode.ofInt n).Settled :=
  (int64Valued_ofInt mode hn).settled

end Operations

end RandomMachine.Binary64
