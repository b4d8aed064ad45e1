import RandomMachine.Proofs.Binary64.Operations

/-!
# Results without a residual

The exact results of finite doubles and what the operations make of them, in all modes and up to the
largest and down to the least doubles. A result whose residual is lost is the nearest one, and
inputs are given for which the mode asks for its neighbour.
-/

namespace RandomMachine.Binary64

/-- A normal double above a value is not what the value is rounded down to. -/
theorem not_exists_rounds_down {v : ℝ} {x : Binary64} (hnormal : binade ≤ x.order.natAbs)
    (hfinite : x.isFinite = true) (hlt : v < x.value) : ¬∃ z, Rounds .down v z ∧ x = z.flush := by
  rintro ⟨z, hz, rfl⟩
  have hpos : 0 < binade := by decide
  unfold flush at *
  split at hnormal
  · rw [order_zero] at hnormal
    omega
  · next hsubnormal =>
    rw [if_neg hsubnormal] at hfinite hlt
    have hle : z.extendedValue ≤ v := RoundsDown.le hz.direction
    rw [extendedValue_of_isFinite hfinite, EReal.coe_le_coe_iff] at hle
    exact hle.not_gt hlt

/-! ### Sums and differences -/

/-- A sum or difference of finite doubles is the exact one, rounded once in the mode and flushed. It
is rounded to nearest instead when the difference of the rounded sum from its first addend
overflows. A sum of value zero is negative when both addends are negative zeros, and when rounding
down unless both are positive zeros. -/
theorem rounds_add_sub (mode : RoundingMode) {x y : Binary64} (hx : x.isFinite = true)
    (hy : y.isFinite = true) :
    ((∃ z, Rounds (mode.nearestIf (DifferenceOverflows x y)) (x.value + y.value) z ∧
        mode.add x y = z.flush) ∧
      (x.value + y.value = 0 → mode.add x y = zero (decide (x = zero true ∧ y = zero true ∨
        mode = .down ∧ ¬(x = zero false ∧ y = zero false))))) ∧
    (∃ z, Rounds (mode.nearestIf (DifferenceOverflows x y.neg)) (x.value - y.value) z ∧
        mode.sub x y = z.flush) ∧
      (x.value - y.value = 0 → mode.sub x y = zero (decide (x = zero true ∧ y.neg = zero true ∨
        mode = .down ∧ ¬(x = zero false ∧ y.neg = zero false)))) := by
  have hneg : y.neg.isFinite = true := (kind_neg y).2.2.1.trans hy
  have hvalue : x.value - y.value = x.value + y.neg.value := by rw [value_neg, sub_eq_add_neg]
  rw [sub_eq mode hx hy, hvalue]
  exact ⟨⟨exists_rounds_add mode hx hy, add_of_value_eq_zero mode hx hy⟩,
    exists_rounds_add mode hx hneg, add_of_value_eq_zero mode hx hneg⟩

/-- Three half steps below zero and the largest double. -/
theorem differenceOverflows_largest :
    DifferenceOverflows ⟨0xFCA8000000000000⟩ ⟨0x7FEFFFFFFFFFFFFF⟩ := by
  have hhalf : halfStep = (2 ^ 2044 : ℕ) := by rw [halfStep, Nat.cast_pow, Nat.cast_ofNat]
  refine differenceOverflows_iff.mpr ⟨0, by norm_num, .inl ?_⟩
  rw [hhalf]
  decide +kernel

/-- Their sum is the nearest one, also when rounding down, while one and half a step are rounded
up. -/
theorem rounds_add_sub_largest :
    (∃ z, Rounds .nearest
      ((⟨0xFCA8000000000000⟩ : Binary64).value + (⟨0x7FEFFFFFFFFFFFFF⟩ : Binary64).value) z ∧
        RoundingMode.down.add ⟨0xFCA8000000000000⟩ ⟨0x7FEFFFFFFFFFFFFF⟩ = z.flush) ∧
    ∃ z, Rounds .up
      ((⟨0x3FF0000000000000⟩ : Binary64).value + (⟨0x3CA0000000000000⟩ : Binary64).value) z ∧
        RoundingMode.up.add ⟨0x3FF0000000000000⟩ ⟨0x3CA0000000000000⟩ = z.flush := by
  have hlost := (rounds_add_sub .down (x := ⟨0xFCA8000000000000⟩) (y := ⟨0x7FEFFFFFFFFFFFFF⟩)
    (by decide) (by decide)).1.1
  have hkept := (rounds_add_sub .up (x := ⟨0x3FF0000000000000⟩) (y := ⟨0x3CA0000000000000⟩)
    (by decide) (by decide)).1.1
  rw [RoundingMode.nearestIf_of differenceOverflows_largest] at hlost
  rw [RoundingMode.nearestIf_of_not ((isFinite_difference_iff (by decide) (by decide)
    (by decide +kernel)).mp (by decide +kernel))] at hkept
  exact ⟨hlost, hkept⟩

/-- That sum is not rounded down. -/
theorem not_rounds_add_largest : (⟨0xFCA8000000000000⟩ : Binary64).isFinite = true ∧
    (⟨0x7FEFFFFFFFFFFFFF⟩ : Binary64).isFinite = true ∧ ¬∃ z, Rounds .down
      ((⟨0xFCA8000000000000⟩ : Binary64).value + (⟨0x7FEFFFFFFFFFFFFF⟩ : Binary64).value) z ∧
        RoundingMode.down.add ⟨0xFCA8000000000000⟩ ⟨0x7FEFFFFFFFFFFFFF⟩ = z.flush := by
  have hsum : RoundingMode.down.add ⟨0xFCA8000000000000⟩ ⟨0x7FEFFFFFFFFFFFFF⟩ =
    ⟨0x7FEFFFFFFFFFFFFE⟩ := by decide +kernel
  refine ⟨by decide, by decide, ?_⟩
  rw [hsum]
  refine not_exists_rounds_down (by decide) (by decide) ?_
  rw [← mul_lt_mul_iff_left₀ one_cast_pos, add_value_mul_one, value_mul_one, ← units_eq,
    Int.cast_lt]
  decide +kernel

/-! ### Products, quotients and roots -/

/-- A product, quotient or root of finite doubles is the exact one, rounded once in the mode and
flushed. It is rounded to nearest instead when the remainder that the nearest double leaves
vanishes: that double does not overflow, and the remainder is not zero, but half the least double
above zero at most. -/
theorem rounds_mul_div_sqrtAbs (mode : RoundingMode) {x y : Binary64} (hx : x.isFinite = true)
    (hy : y.isFinite = true) :
    (∃ z, Rounds (mode.nearestIf (ProductLost x y)) (x.value * y.value) z ∧
      mode.mul x y = z.flush) ∧
    (y.isZero = false → ∃ z, Rounds (mode.nearestIf (QuotientLost x y)) (x.value / y.value) z ∧
      mode.div x y = z.flush) ∧
    ∃ z, Rounds (mode.nearestIf (RootLost x)) √|x.value| z ∧ mode.sqrtAbs x = z.flush :=
  ⟨exists_rounds_mul mode hx hy, exists_rounds_div mode hx hy, exists_rounds_sqrtAbs mode hx⟩

/-- A little more than the least normal double, and one and a half. -/
theorem productLost_tiny : ProductLost ⟨0x0010000000000001⟩ ⟨0x3FF8000000000000⟩ := by
  rw [productLost_iff]
  decide +kernel

/-- Their product is the nearest one, also when rounding down, while the quotient of one and three
is rounded up. -/
theorem rounds_mul_div_sqrtAbs_tiny :
    (∃ z, Rounds .nearest
      ((⟨0x0010000000000001⟩ : Binary64).value * (⟨0x3FF8000000000000⟩ : Binary64).value) z ∧
        RoundingMode.down.mul ⟨0x0010000000000001⟩ ⟨0x3FF8000000000000⟩ = z.flush) ∧
    ∃ z, Rounds .up
      ((⟨0x3FF0000000000000⟩ : Binary64).value / (⟨0x4008000000000000⟩ : Binary64).value) z ∧
        RoundingMode.up.div ⟨0x3FF0000000000000⟩ ⟨0x4008000000000000⟩ = z.flush := by
  have hlost := (rounds_mul_div_sqrtAbs .down (x := ⟨0x0010000000000001⟩)
    (y := ⟨0x3FF8000000000000⟩) (by decide) (by decide)).1
  have hkept := (rounds_mul_div_sqrtAbs .up (x := ⟨0x3FF0000000000000⟩)
    (y := ⟨0x4008000000000000⟩) (by decide) (by decide)).2.1 (by decide)
  rw [RoundingMode.nearestIf_of productLost_tiny] at hlost
  rw [RoundingMode.nearestIf_of_not (quotientLost_iff.not.mpr (by decide +kernel))] at hkept
  exact ⟨hlost, hkept⟩

/-- Neither that product nor the fifth and the root of tiny doubles are rounded down. -/
theorem not_rounds_mul_div_sqrtAbs_tiny :
    (¬∃ z, Rounds .down
      ((⟨0x0010000000000001⟩ : Binary64).value * (⟨0x3FF8000000000000⟩ : Binary64).value) z ∧
        RoundingMode.down.mul ⟨0x0010000000000001⟩ ⟨0x3FF8000000000000⟩ = z.flush) ∧
    (¬∃ z, Rounds .down ((⟨1⟩ : Binary64).value / (⟨5⟩ : Binary64).value) z ∧
      RoundingMode.down.div ⟨1⟩ ⟨5⟩ = z.flush) ∧
    ¬∃ z, Rounds .down √|(⟨2⟩ : Binary64).value| z ∧ RoundingMode.down.sqrtAbs ⟨2⟩ = z.flush := by
  have hone := one_cast_pos
  have hpos {x : Binary64} (h : 0 < x.units) : 0 < x.value := div_pos (Int.cast_pos.mpr h) hone
  have hmul : RoundingMode.down.mul ⟨0x0010000000000001⟩ ⟨0x3FF8000000000000⟩ =
    ⟨0x0018000000000002⟩ := by decide +kernel
  have hdiv : RoundingMode.down.div ⟨1⟩ ⟨5⟩ = ⟨0x3FC999999999999A⟩ := by decide +kernel
  have hsqrt : RoundingMode.down.sqrtAbs ⟨2⟩ = ⟨0x1E66A09E667F3BCD⟩ := by decide +kernel
  rw [hmul, hdiv, hsqrt]
  refine ⟨not_exists_rounds_down (by decide) (by decide) ?_,
    not_exists_rounds_down (by decide) (by decide) ?_,
    not_exists_rounds_down (by decide) (by decide) ?_⟩
  · rw [← mul_lt_mul_iff_left₀ hone, mul_value_mul_one, value_mul_one, ← units_eq,
      div_lt_iff₀ hone]
    exact_mod_cast (by decide +kernel : (⟨0x0010000000000001⟩ : Binary64).units *
      (⟨0x3FF8000000000000⟩ : Binary64).units < (⟨0x0018000000000002⟩ : Binary64).units * one)
  · rw [div_lt_iff₀ (hpos (by decide +kernel)), value, value, value, div_mul_div_comm,
      div_lt_div_iff₀ hone (mul_pos hone hone)]
    exact_mod_cast (by decide +kernel : (⟨1⟩ : Binary64).units * ((one : ℤ) * one) <
      (⟨0x3FC999999999999A⟩ : Binary64).units * (⟨5⟩ : Binary64).units * one)
  · rw [Real.sqrt_lt' (hpos (by decide +kernel)), abs_of_pos (hpos (by decide +kernel)), value,
      value, div_pow, div_lt_div_iff₀ hone (pow_pos hone 2)]
    exact_mod_cast (by decide +kernel : (⟨2⟩ : Binary64).units * (one : ℤ) ^ 2 <
      (⟨0x1E66A09E667F3BCD⟩ : Binary64).units ^ 2 * one)

end RandomMachine.Binary64
