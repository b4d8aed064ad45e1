import RandomMachine.Proofs.Binary64.Numbers

/-!
# Opposite operands

Rounding down is the mirror image of rounding up, bit for bit. Flipping the sign of an operand flips
the sign of the nearest result and of its residual, and the mirrored mode then moves the opposite
double to the opposite neighbour. This needs no residual to be right, only that the residuals of
opposite operands are opposite.
-/

namespace RandomMachine.Binary64

section Opposite

variable {mode : RoundingMode} {x y : Binary64}

/-! ### Doubles with the other sign -/

/-- The opposite of a double that is built from its sign and its magnitude. -/
theorem neg_ofMagnitude (negative : Bool) {m : ℕ} (h : m ≤ infinityMagnitude) :
    (ofMagnitude negative m).neg = ofMagnitude (!negative) m := by
  have hlt : m < signWeight := h.trans_lt (by decide)
  rw [neg, isNegative_ofMagnitude negative hlt, magnitude_ofMagnitude negative hlt]

/-- The opposite zero. -/
theorem neg_zero (negative : Bool) : (zero negative).neg = zero (!negative) :=
  neg_ofMagnitude negative (Nat.zero_le _)

/-- Rounding does not leave the magnitudes of numbers. -/
theorem nearestRatio_le (num den : ℕ) : nearestRatio num den ≤ infinityMagnitude :=
  Nat.min_le_left _ _

/-- Opposite numbers have opposite signs. -/
theorem decide_neg_lt_zero {n : ℤ} (h : n ≠ 0) : decide (-n < 0) = !decide (n < 0) := by
  rw [← decide_not, decide_eq_decide]
  omega

/-- The double of the opposite number of quanta. -/
theorem ofUnits_neg {n : ℤ} (h : n ≠ 0) : ofUnits (-n) = (ofUnits n).neg := by
  rw [ofUnits, ofUnits, Int.natAbs_neg, decide_neg_lt_zero h,
    neg_ofMagnitude _ (nearestRatio_le _ _)]

/-- Opposite doubles are flushed to opposite doubles. -/
theorem flush_neg (x : Binary64) : x.neg.flush = x.flush.neg := by
  unfold flush isSubnormal
  rw [magnitude_neg, isNegative_neg]
  split
  · exact (neg_zero x.isNegative).symm
  · rfl

/-- Opposite doubles have opposite signs. -/
theorem sign_neg (x : Binary64) : x.neg.sign = x.sign.swap := by
  unfold sign
  rw [(kind_neg x).1, (kind_neg x).2.2.2, isNegative_neg]
  split
  · rfl
  · cases x.isNegative <;> rfl

/-- The opposite of an infinity is moved to the opposite double. -/
theorem overflow_neg (mode : RoundingMode) (x : Binary64) :
    mode.mirror.overflow x.neg = (mode.overflow x).neg := by
  unfold RoundingMode.overflow
  rw [← adjust_neg, isNegative_neg]
  cases x.isNegative <;> rfl

/-- The opposite of a nearest double with the opposite residual is completed to the opposite double.
The residual of an infinity does not matter. -/
theorem finish_neg (mode : RoundingMode) {residual residual' : Ordering}
    (h : x.isInfinite = false → residual' = residual.swap) :
    mode.mirror.finish x.neg residual' = (mode.finish x residual).neg := by
  unfold RoundingMode.finish
  rw [(kind_neg x).2.1, (kind_neg x).2.2.2]
  split
  · exact overflow_neg mode x
  · next hfinite =>
    split
    · rfl
    · rw [h (Bool.eq_false_iff.mpr hfinite), adjust_neg, flush_neg]

/-! ### Products and quotients -/

/-- The nearest product with an opposite factor. -/
theorem mulNearest_neg (x y : Binary64) : mulNearest x.neg y = (mulNearest x y).neg := by
  rw [mulNearest, mulNearest, neg_ofMagnitude _ (nearestRatio_le _ _), isNegative_neg,
    magnitude_neg, Bool.not_bne]

/-- The nearest quotient of an opposite dividend. -/
theorem divNearest_neg (x y : Binary64) : divNearest x.neg y = (divNearest x y).neg := by
  rw [divNearest, divNearest, neg_ofMagnitude _ (nearestRatio_le _ _), isNegative_neg,
    magnitude_neg, Bool.not_bne]

/-- A fused sum with an opposite factor and an opposite addend has the opposite sign. -/
theorem sign_fusedNearest_neg (x y z : Binary64) :
    (fusedNearest x.neg y z.neg).sign = (fusedNearest x y z).sign.swap := by
  have hexact : x.neg.units * y.units + z.neg.units * one =
      -(x.units * y.units + z.units * one) := by
    rw [units_neg, units_neg]
    ring
  have hzero (negative : Bool) : (zero negative).sign = .eq := by cases negative <;> decide
  unfold fusedNearest
  dsimp only
  rw [hexact]
  generalize x.units * y.units + z.units * one = exact
  by_cases h : exact = 0
  · rw [if_pos h, if_pos (neg_eq_zero.mpr h), hzero, hzero]
    rfl
  · rw [if_neg h, if_neg (neg_ne_zero.mpr h), decide_neg_lt_zero h, Int.natAbs_neg,
      ← neg_ofMagnitude _ (nearestRatio_le _ _), sign_neg]

/-- The residual of a product with an opposite factor. -/
theorem productResidual_neg (x y product : Binary64) :
    productResidual x.neg y product.neg = (productResidual x y product).swap :=
  sign_fusedNearest_neg x y product.neg

/-- The residual of a quotient of an opposite dividend. -/
theorem quotientResidual_neg (x y quotient : Binary64) :
    quotientResidual x.neg y quotient.neg = (quotientResidual x y quotient).swap := by
  unfold quotientResidual
  rw [sign_fusedNearest_neg]
  cases y.isNegative <;> rfl

/-- A product with an opposite factor is rounded in the mirrored mode to the opposite double. -/
theorem mul_neg_left (mode : RoundingMode) (h : (mode.mul x y).isNaN = false) :
    mode.mirror.mul x.neg y = (mode.mul x y).neg := by
  obtain ⟨hnone, hvalid⟩ := completes_mul.valid h
  obtain ⟨hx, hy⟩ := isNaN_of_operandNaN_eq_none hnone
  obtain ⟨hnan, hinfinite, -, hzero⟩ := kind_neg x
  have hvalid' : ¬InvalidProduct x.neg y := by rwa [InvalidProduct, hzero, hinfinite]
  rw [mul_of_valid mode hnone hvalid,
    mul_of_valid mode.mirror (operandNaN_eq_none (hnan.trans hx) hy) hvalid', hinfinite,
    isNegative_neg, Bool.not_bne]
  split
  · exact (neg_ofMagnitude _ le_rfl).symm
  · rw [mulNearest_neg]
    exact finish_neg mode fun _ => productResidual_neg x y _

/-- A quotient of an opposite dividend is rounded in the mirrored mode to the opposite double. -/
theorem div_neg_left (mode : RoundingMode) (h : (mode.div x y).isNaN = false) :
    mode.mirror.div x.neg y = (mode.div x y).neg := by
  obtain ⟨hnone, hvalid⟩ := completes_div.valid h
  obtain ⟨hx, hy⟩ := isNaN_of_operandNaN_eq_none hnone
  obtain ⟨hnan, hinfinite, -, hzero⟩ := kind_neg x
  have hvalid' : ¬InvalidQuotient x.neg y := by rwa [InvalidQuotient, hzero, hinfinite]
  rw [div_of_valid mode hnone hvalid,
    div_of_valid mode.mirror (operandNaN_eq_none (hnan.trans hx) hy) hvalid', hinfinite,
    isNegative_neg, Bool.not_bne]
  split
  · exact (neg_ofMagnitude _ le_rfl).symm
  · split
    · exact (neg_zero _).symm
    · rw [divNearest_neg]
      exact finish_neg mode fun _ => quotientResidual_neg x y _

/-! ### Sums and differences -/

/-- The nearest sum of opposite addends, when it is not a zero. -/
theorem addNearest_neg_neg (hx : x.isFinite = true) (hy : y.isFinite = true)
    (h : (addNearest x y).isZero = false) : addNearest x.neg y.neg = (addNearest x y).neg := by
  have hexact : x.units + y.units ≠ 0 := fun hexact => by
    rw [isZero_iff.mpr ((nearest_addNearest hx hy).eq_zero_iff.mpr hexact)] at h
    cases h
  have hopposite : x.neg.units + y.neg.units = -(x.units + y.units) := by
    rw [units_neg, units_neg, neg_add]
  rw [addNearest_eq_ofUnits hx hy hexact, ← ofUnits_neg hexact, ← hopposite]
  refine addNearest_eq_ofUnits ((kind_neg x).2.2.1.trans hx) ((kind_neg y).2.2.1.trans hy) ?_
  rw [hopposite]
  exact neg_ne_zero.mpr hexact

/-- Opposite addends make the difference overflow as well. -/
theorem DifferenceOverflows.neg (h : DifferenceOverflows x y) :
    DifferenceOverflows x.neg y.neg := by
  obtain ⟨n, hn, h⟩ := h
  refine ⟨n, hn, ?_⟩
  rw [value_neg, value_neg]
  rcases h with ⟨hx, hy⟩ | ⟨hx, hy⟩
  · exact .inr ⟨by rw [hx]; push_cast; ring, by rw [hy]; push_cast; ring⟩
  · exact .inl ⟨by rw [hx]; push_cast; ring, by rw [hy]; push_cast; ring⟩

/-- The residual of a sum of opposite addends: both are signs of errors, or both are lost. -/
theorem sumResidual_neg (hx : x.isFinite = true) (hy : y.isFinite = true)
    (hzero : (addNearest x y).isZero = false) (hsum : (addNearest x y).isFinite = true) :
    sumResidual x.neg y.neg (addNearest x y).neg =
      (sumResidual x y (addNearest x y)).swap := by
  have hx' : x.neg.isFinite = true := (kind_neg x).2.2.1.trans hx
  have hy' : y.neg.isFinite = true := (kind_neg y).2.2.1.trans hy
  have hopposite := addNearest_neg_neg hx hy hzero
  rw [← hopposite]
  by_cases hlost : DifferenceOverflows x y
  · rw [hlost.sumResidual_eq hx hy, hlost.neg.sumResidual_eq hx' hy']
    rfl
  · have hlost' : ¬DifferenceOverflows x.neg y.neg := fun h => by
      have := h.neg
      rw [neg_neg, neg_neg] at this
      exact hlost this
    have hsum' : (addNearest x.neg y.neg).isFinite = true := by
      rw [hopposite]
      exact (kind_neg _).2.2.1.trans hsum
    have herror := compares_sumResidual hx hy hsum ((isFinite_difference_iff hx hy hsum).mpr hlost)
    have herror' := compares_sumResidual hx' hy' hsum'
      ((isFinite_difference_iff hx' hy' hsum').mpr hlost')
    rw [units_neg, units_neg, ← neg_add, hopposite, units_neg] at herror'
    have hanti : StrictAnti (Neg.neg : ℤ → ℤ) := fun _ _ => neg_lt_neg
    have hswap := Ordering.compares_swap.mpr (hanti.compares.mp herror')
    rw [hopposite, ← hswap.inj herror, Ordering.swap_swap]

/-- The zero of a sum of opposite addends, rounded down instead of up. -/
theorem zeroSum_neg_neg (x y : Binary64) :
    RoundingMode.down.zeroSum x.neg y.neg = (RoundingMode.up.zeroSum x y).neg := by
  have hsign : ((!x.isNegative) == !y.isNegative) = (x.isNegative == y.isNegative) := by
    cases x.isNegative <;> cases y.isNegative <;> rfl
  unfold RoundingMode.zeroSum
  rw [(kind_neg x).2.2.2, (kind_neg y).2.2.2, isNegative_neg, isNegative_neg, hsign]
  split
  · rfl
  · exact (neg_zero false).symm

/-- A sum of opposite addends is rounded down to the opposite of what the sum is rounded up to. -/
theorem add_neg_neg (h : (RoundingMode.up.add x y).isNaN = false) :
    RoundingMode.down.add x.neg y.neg = (RoundingMode.up.add x y).neg := by
  obtain ⟨hnone, hvalid⟩ := completes_add.valid h
  obtain ⟨hx, hy⟩ := isNaN_of_operandNaN_eq_none hnone
  obtain ⟨hnanx, hinfx, hfinitex, -⟩ := kind_neg x
  obtain ⟨hnany, hinfy, hfinitey, -⟩ := kind_neg y
  have hvalid' : ¬InvalidSum x.neg y.neg := by
    rwa [InvalidSum, hinfx, hinfy, isNegative_neg, isNegative_neg, Bool.not_inj_iff.ne]
  rw [add_of_valid .up hnone hvalid,
    add_of_valid .down (operandNaN_eq_none (hnanx.trans hx) (hnany.trans hy)) hvalid', hinfx, hinfy]
  split
  · rfl
  · next hinfx =>
    split
    · rfl
    · next hinfy =>
      have hx := isFinite_of_isInfinite_eq_false hx (Bool.eq_false_iff.mpr hinfx)
      have hy := isFinite_of_isInfinite_eq_false hy (Bool.eq_false_iff.mpr hinfy)
      have hzero : (addNearest x.neg y.neg).isZero = (addNearest x y).isZero := by
        rw [Bool.eq_iff_iff, isZero_addNearest_iff hx hy,
          isZero_addNearest_iff (hfinitex.trans hx) (hfinitey.trans hy), value_neg, value_neg,
          ← neg_add, neg_eq_zero]
      rw [hzero]
      split
      · exact zeroSum_neg_neg x y
      · next hne =>
        have hne := Bool.eq_false_iff.mpr hne
        have hnumber := isNaN_eq_false_iff.mpr (nearest_addNearest hx hy).le
        rw [addNearest_neg_neg hx hy hne]
        exact finish_neg .up fun hsum =>
          sumResidual_neg hx hy hne (isFinite_of_isInfinite_eq_false hnumber hsum)

/-- A difference of opposite doubles is rounded down to the opposite of what the difference is
rounded up to. -/
theorem sub_neg_neg (h : (RoundingMode.up.sub x y).isNaN = false) :
    RoundingMode.down.sub x.neg y.neg = (RoundingMode.up.sub x y).neg := by
  obtain ⟨hnone, -⟩ := completes_sub.valid h
  obtain ⟨hx, hy⟩ := isNaN_of_operandNaN_eq_none hnone
  rw [sub_numbers .up hnone] at h ⊢
  rw [sub_numbers .down (operandNaN_eq_none ((kind_neg x).1.trans hx) ((kind_neg y).1.trans hy))]
  exact add_neg_neg h

end Opposite

/-! ### All operations -/

/-- Sums and differences of opposite doubles are rounded down to the opposites of what they are
rounded up to, and products and quotients with an opposite first operand are rounded in the mirrored
mode to the opposites, always bit for bit, with the sign of a zero. -/
theorem opposite_results (x y : Binary64) :
    ((RoundingMode.up.add x y).isNaN = false →
      RoundingMode.down.add x.neg y.neg = (RoundingMode.up.add x y).neg) ∧
    ((RoundingMode.up.sub x y).isNaN = false →
      RoundingMode.down.sub x.neg y.neg = (RoundingMode.up.sub x y).neg) ∧
    ∀ mode : RoundingMode,
      ((mode.mul x y).isNaN = false → mode.mirror.mul x.neg y = (mode.mul x y).neg) ∧
      ((mode.div x y).isNaN = false → mode.mirror.div x.neg y = (mode.div x y).neg) :=
  ⟨add_neg_neg, sub_neg_neg, fun mode => ⟨mul_neg_left mode, div_neg_left mode⟩⟩

/-- One and its opposite cancel to zeros of opposite signs, and a difference, a product and a third
are rounded to opposite doubles. -/
theorem opposite_results_third :
    RoundingMode.down.add (⟨0x3FF0000000000000⟩ : Binary64).neg
      (⟨0xBFF0000000000000⟩ : Binary64).neg = (zero false).neg ∧
    RoundingMode.down.sub (⟨0x3FB999999999999A⟩ : Binary64).neg
      (⟨0x4008000000000000⟩ : Binary64).neg = (⟨0xC007333333333333⟩ : Binary64).neg ∧
    RoundingMode.down.mul (⟨0x3FB999999999999A⟩ : Binary64).neg ⟨0x4008000000000000⟩ =
      (⟨0x3FD3333333333334⟩ : Binary64).neg ∧
    RoundingMode.down.div (⟨0x3FF0000000000000⟩ : Binary64).neg ⟨0x4008000000000000⟩ =
      (⟨0x3FD5555555555556⟩ : Binary64).neg := by
  have hsum : RoundingMode.up.add ⟨0x3FF0000000000000⟩ ⟨0xBFF0000000000000⟩ = zero false := by
    decide +kernel
  have hdifference : RoundingMode.up.sub ⟨0x3FB999999999999A⟩ ⟨0x4008000000000000⟩ =
    ⟨0xC007333333333333⟩ := by decide +kernel
  have hproduct : RoundingMode.up.mul ⟨0x3FB999999999999A⟩ ⟨0x4008000000000000⟩ =
    ⟨0x3FD3333333333334⟩ := by decide +kernel
  have hthird : RoundingMode.up.div ⟨0x3FF0000000000000⟩ ⟨0x4008000000000000⟩ =
    ⟨0x3FD5555555555556⟩ := by decide +kernel
  have hadd := (opposite_results ⟨0x3FF0000000000000⟩ ⟨0xBFF0000000000000⟩).1
  obtain ⟨-, hsub, hboth⟩ := opposite_results ⟨0x3FB999999999999A⟩ ⟨0x4008000000000000⟩
  have hmul := (hboth .up).1
  have hdiv := ((opposite_results ⟨0x3FF0000000000000⟩ ⟨0x4008000000000000⟩).2.2 .up).2
  rw [hsum] at hadd
  rw [hdifference] at hsub
  rw [hproduct] at hmul
  rw [hthird] at hdiv
  exact ⟨hadd (by decide), hsub (by decide), hmul (by decide), hdiv (by decide)⟩

end RandomMachine.Binary64
