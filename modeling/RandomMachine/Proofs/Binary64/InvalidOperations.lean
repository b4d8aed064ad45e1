import RandomMachine.Proofs.Binary64.Numbers

/-!
# NaNs of the operations

A NaN operand is handed on with its quiet bit set, the first one before the second one. From numbers
a NaN comes out of the invalid operations only, and it is the same for all of them. A residual may
be a NaN on the way, but it only chooses between numbers.
-/

namespace RandomMachine.Binary64

/-- Whether an operation hands NaN operands on with bit 51 set, and otherwise has a NaN for a result
exactly when it is invalid, the default one. -/
structure PropagatesNaN (operation : Binary64 → Binary64 → Binary64)
    (invalid : Binary64 → Binary64 → Prop) : Prop where
  first : ∀ x y, x.isNaN = true → (operation x y).bits = x.bits ||| 0x0008000000000000
  second : ∀ x y, x.isNaN = false → y.isNaN = true →
    (operation x y).bits = y.bits ||| 0x0008000000000000
  isNaN_iff : ∀ x y, x.isNaN = false → y.isNaN = false →
    ((operation x y).isNaN = true ↔ invalid x y)
  default : ∀ x y, x.isNaN = false → y.isNaN = false → invalid x y →
    (operation x y).bits = 0xFFF8000000000000

/-- An operation that completes its results propagates NaNs. -/
theorem Completes.propagatesNaN {operation : RoundingMode → Binary64 → Binary64 → Binary64}
    {invalid : Binary64 → Binary64 → Prop} (h : Completes operation invalid)
    (mode : RoundingMode) : PropagatesNaN (operation mode) invalid where
  first x y hx := by
    rw [h.ofNaN mode x y x.quiet (by rw [operandNaN, if_pos hx])]
    rfl
  second x y hx hy := by
    rw [h.ofNaN mode x y y.quiet (by rw [operandNaN, hx, if_neg Bool.false_ne_true, if_pos hy])]
    rfl
  isNaN_iff x y hx hy := by
    have hnone := operandNaN_eq_none hx hy
    constructor
    · intro hnan
      by_contra hvalid
      rw [(h.ofValid x y hnone hvalid).isNaN mode] at hnan
      cases hnan
    · intro hinvalid
      rw [h.ofInvalid mode x y hnone hinvalid]
      decide
  default x y hx hy hinvalid := by
    rw [h.ofInvalid mode x y (operandNaN_eq_none hx hy) hinvalid]
    rfl

/-! ### Roots and integers -/

section Operations

variable {x : Binary64}

/-- The bits of a double without its sign. -/
theorem bits_abs (x : Binary64) : x.abs.bits = x.bits &&& 0x7FFFFFFFFFFFFFFF := by
  have hmask : (0x7FFFFFFFFFFFFFFF : UInt64).toNat = 2 ^ 63 - 1 := rfl
  have hweight : signWeight = 2 ^ 63 := by decide
  apply UInt64.toNat_inj.mp
  rw [UInt64.toNat_and, hmask, Nat.and_two_pow_sub_one_eq_mod, ← hweight]
  exact UInt64.toNat_ofNat_of_lt' (x.magnitude_lt.trans (by decide))

/-- Only NaNs have no root. -/
theorem isNaN_sqrtAbs (mode : RoundingMode) (x : Binary64) :
    (mode.sqrtAbs x).isNaN = x.isNaN := by
  cases h : x.isNaN with
  | true =>
    rw [sqrtAbs_of_isNaN mode h]
    exact isNaN_quiet ((isNaN_abs x).trans h)
  | false => exact (completed_sqrtAbs h).isNaN mode

/-- The root of a NaN is the NaN, positive and quiet. -/
theorem bits_sqrtAbs (mode : RoundingMode) (h : x.isNaN = true) :
    (mode.sqrtAbs x).bits = x.bits &&& 0x7FFFFFFFFFFFFFFF ||| 0x0008000000000000 := by
  rw [sqrtAbs_of_isNaN mode h, quiet, bits_abs]

/-- Integers are rounded to numbers. -/
theorem isNaN_ofInt (mode : RoundingMode) (n : ℤ) : (mode.ofInt n).isNaN = false :=
  isNaN_adjust mode (isNaN_eq_false_iff.mpr (nearest_ofUnits _).le) _

end Operations

/-! ### All operations -/

/-- In every mode, sums and differences are invalid for infinities of opposite effective sign,
products for a zero and an infinity, and quotients for two zeros or two infinities. A root is a NaN
for a NaN only, which it hands on without its sign, and a rounded integer never is one. -/
theorem nan_results (mode : RoundingMode) :
    PropagatesNaN mode.add InvalidSum ∧ PropagatesNaN mode.sub InvalidDifference ∧
    PropagatesNaN mode.mul InvalidProduct ∧ PropagatesNaN mode.div InvalidQuotient ∧
    (∀ x : Binary64, (mode.sqrtAbs x).isNaN = x.isNaN ∧ (x.isNaN = true →
      (mode.sqrtAbs x).bits = x.bits &&& 0x7FFFFFFFFFFFFFFF ||| 0x0008000000000000)) ∧
    ∀ n : ℤ, (mode.ofInt n).isNaN = false :=
  ⟨completes_add.propagatesNaN mode, completes_sub.propagatesNaN mode,
    completes_mul.propagatesNaN mode, completes_div.propagatesNaN mode,
    fun x => ⟨isNaN_sqrtAbs mode x, bits_sqrtAbs mode⟩, isNaN_ofInt mode⟩

/-- A signaling NaN is subtracted with its sign, the quotient of two zeros is the default NaN, and
the root of a negative NaN is positive. -/
theorem nan_results_signaling :
    (RoundingMode.down.sub ⟨0x3FF0000000000000⟩ ⟨0xFFF0000000000001⟩).bits = 0xFFF8000000000001 ∧
    (RoundingMode.up.div ⟨0⟩ ⟨0x8000000000000000⟩).bits = 0xFFF8000000000000 ∧
    (RoundingMode.nearest.sqrtAbs ⟨0xFFF0000000000001⟩).bits = 0x7FF8000000000001 :=
  ⟨(nan_results .down).2.1.second ⟨0x3FF0000000000000⟩ ⟨0xFFF0000000000001⟩ (by decide) (by decide),
    (nan_results .up).2.2.2.1.default ⟨0⟩ ⟨0x8000000000000000⟩ (by decide) (by decide)
      (.inl ⟨by decide, by decide⟩),
    ((nan_results .nearest).2.2.2.2.1 ⟨0xFFF0000000000001⟩).2 (by decide)⟩

end RandomMachine.Binary64
