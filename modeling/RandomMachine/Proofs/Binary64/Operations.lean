import RandomMachine.Proofs.Binary64.SumResidual

/-!
# Rounding of the operations

Every operation on finite doubles rounds its exact result once, in the mode it is given, and then
flushes it. The one exception is a result whose residual is lost: the direction of its error is not
known then, and it is the nearest one in every mode. The residual of a sum is lost when a step of
the two-sum algorithm overflows, that of a product, quotient or root when the remainder vanishes.
-/

namespace RandomMachine.Binary64

/-! ### Zeros and signs -/

/-- A zero is what the value zero is rounded to, in every mode. -/
theorem exists_rounds_zero {mode : RoundingMode} {v : ℝ} {x : Binary64} (hv : v = 0)
    (hx : x.isZero = true) : ∃ z, Rounds mode v z ∧ x = z.flush := by
  subst hv
  have hnearest : Nearest (0 * one) x.order := by
    rw [zero_mul, isZero_iff.mp hx]
    exact nearest_zero
  exact exists_rounds_of_isZero hnearest (fun h => absurd h (lt_irrefl 0))
    (fun h => absurd h (lt_irrefl 0)) hx

/-- A positive multiple of a product of two doubles has the sign that their signs make. -/
theorem sign_of_units_mul {v c : ℝ} {x y : Binary64} {negative : Bool} (hc : 0 < c)
    (hv : v = x.units * y.units * c) (hnegative : negative = (x.isNegative != y.isNegative)) :
    (v < 0 → negative = true) ∧ (0 < v → negative = false) := by
  have hbound := sign_of_mul_pos hc hv (units_mul_units x y)
  rw [← hnegative] at hbound
  cases negative with
  | true => exact ⟨fun _ => rfl, fun hpos => absurd hbound (not_le.mpr hpos)⟩
  | false => exact ⟨fun hneg => absurd hbound (not_le.mpr hneg), fun _ => rfl⟩

/-- The zero of either sign. -/
theorem isZero_zero (negative : Bool) : (zero negative).isZero = true :=
  isZero_iff.mpr (order_zero negative)

/-- A double is the zero of a sign when it is a zero and has the sign. -/
theorem eq_zero_iff {x : Binary64} {negative : Bool} :
    x = zero negative ↔ x.isZero = true ∧ x.isNegative = negative := by
  constructor
  · rintro rfl
    exact ⟨isZero_zero negative, isNegative_ofMagnitude_of_le negative (Nat.zero_le _)⟩
  · rintro ⟨hzero, rfl⟩
    rw [zero, ← of_decide_eq_true hzero, ofMagnitude_magnitude]

/-- The sign of the double of an integer number of quanta. -/
theorem isNegative_ofUnits (n : ℤ) : (ofUnits n).isNegative = decide (n < 0) :=
  isNegative_ofMagnitude_of_le _ (Nat.min_le_left _ _)

/-- A double that is nearest to a value that does not overflow is finite. -/
theorem isFinite_of_nearest {v : ℝ} {x : Binary64} (h : Nearest (v * one) x.order)
    (hv : |v| < overflowThreshold) : x.isFinite = true :=
  (h.roundsToNearest.finite hv).1

section Operations

variable {x y : Binary64}

/-! ### Sums -/

/-- The exact sum of two doubles, in quanta. -/
theorem add_value_mul_one (x y : Binary64) :
    (x.value + y.value) * one = (x.units + y.units : ℤ) := by
  rw [value, value, ← add_div, div_mul_cancel₀ _ one_cast_pos.ne', Int.cast_add]

/-- A sum of two finite doubles, by whether the rounded one is a zero. -/
theorem add_eq (mode : RoundingMode) (hx : x.isFinite = true) (hy : y.isFinite = true) :
    mode.add x y = if (addNearest x y).isZero then mode.zeroSum x y
      else mode.finish (addNearest x y) (sumResidual x y (addNearest x y)) := by
  obtain ⟨hnanx, hinfx⟩ := kind_of_isFinite hx
  obtain ⟨hnany, hinfy⟩ := kind_of_isFinite hy
  simp only [RoundingMode.add, operandNaN, hnanx, hnany, hinfx, hinfy, Bool.false_eq_true, if_false,
    Bool.or_self]

/-- A difference of two finite doubles is the sum with the opposite of the second one. -/
theorem sub_eq (mode : RoundingMode) (hx : x.isFinite = true) (hy : y.isFinite = true) :
    mode.sub x y = mode.add x y.neg := by
  simp only [RoundingMode.sub, operandNaN, (kind_of_isFinite hx).1, (kind_of_isFinite hy).1,
    Bool.false_eq_true, if_false]

/-- A rounded sum is a zero only when the exact one is. -/
theorem isZero_addNearest_iff (hx : x.isFinite = true) (hy : y.isFinite = true) :
    (addNearest x y).isZero = true ↔ x.value + y.value = 0 := by
  rw [isZero_iff, (nearest_addNearest hx hy).eq_zero_iff,
    ← mul_eq_zero_iff_right one_cast_pos.ne', add_value_mul_one, Int.cast_eq_zero]

/-- A sum of finite doubles that is not zero is rounded from its number of quanta. -/
theorem addNearest_eq_ofUnits (hx : x.isFinite = true) (hy : y.isFinite = true)
    (hne : x.units + y.units ≠ 0) : addNearest x y = ofUnits (x.units + y.units) := by
  obtain ⟨hnanx, hinfx⟩ := kind_of_isFinite hx
  obtain ⟨hnany, hinfy⟩ := kind_of_isFinite hy
  simp only [addNearest, operandNaN, hnanx, hnany, hinfx, hinfy, Bool.false_eq_true, if_false,
    if_neg hne]

/-- The sign of a sum that is not zero. -/
theorem isNegative_addNearest (hx : x.isFinite = true) (hy : y.isFinite = true)
    (hne : x.units + y.units ≠ 0) :
    (addNearest x y).isNegative = decide (x.units + y.units < 0) := by
  rw [addNearest_eq_ofUnits hx hy hne, isNegative_ofUnits]

/-- The zero of a sum: that of two addends of one sign, else the one that the mode prefers. -/
theorem zeroSum_eq (mode : RoundingMode) (x y : Binary64) :
    mode.zeroSum x y = zero (decide (x = zero true ∧ y = zero true ∨
      mode = .down ∧ ¬(x = zero false ∧ y = zero false))) := by
  unfold RoundingMode.zeroSum
  split
  · next h =>
    rw [Bool.and_eq_true, Bool.and_eq_true, beq_iff_eq] at h
    have hx := eq_zero_iff.mpr ⟨h.1.1, rfl⟩
    have hy := eq_zero_iff.mpr ⟨h.1.2, h.2.symm⟩
    generalize x.isNegative = negative at hx hy
    subst hx hy
    cases negative <;> cases mode <;> decide
  · next h =>
    have hnot (negative : Bool) : ¬(x = zero negative ∧ y = zero negative) := by
      rintro ⟨rfl, rfl⟩
      exact h (by cases negative <;> decide)
    simp only [hnot, false_or, not_false_eq_true, and_true]
    cases mode <;> rfl

/-- A sum is rounded once, unless the difference of the rounded one from its first addend
overflows. -/
theorem exists_rounds_add (mode : RoundingMode) (hx : x.isFinite = true) (hy : y.isFinite = true) :
    ∃ z, Rounds (mode.nearestIf (DifferenceOverflows x y)) (x.value + y.value) z ∧
      mode.add x y = z.flush := by
  have hone := one_cast_pos
  have hvalue := add_value_mul_one x y
  have hnearest := nearest_addNearest hx hy
  rw [add_eq mode hx hy]
  cases hzero : (addNearest x y).isZero with
  | true =>
    rw [if_pos rfl, zeroSum_eq]
    exact exists_rounds_zero ((isZero_addNearest_iff hx hy).mp hzero) (isZero_zero _)
  | false =>
    have hexact : x.units + y.units ≠ 0 := fun hexact =>
      Bool.eq_false_iff.mp hzero (isZero_iff.mpr (hnearest.eq_zero_iff.mpr hexact))
    have hsign := isNegative_addNearest hx hy hexact
    rw [if_neg Bool.false_ne_true]
    refine exists_rounds_finish (hvalue ▸ hnearest) (fun hv => ?_) (fun hv => ?_)
      (fun hfinite _ hlost => ?_) fun hlost => ?_
    · rw [hsign, decide_eq_true_iff, ← Int.cast_lt_zero (R := ℝ), ← hvalue]
      exact mul_neg_of_neg_of_pos hv hone
    · rw [hsign, decide_eq_false_iff_not, not_lt, ← Int.cast_nonneg_iff (R := ℝ), ← hvalue]
      exact (mul_pos hv hone).le
    · have hdifference := (isFinite_difference_iff hx hy hfinite).mpr hlost
      rw [← compares_mul_one, hvalue, ← units_eq, Int.cast_strictMono.compares]
      exact compares_sumResidual hx hy hfinite hdifference
    · exact ⟨((differenceOverflows_iff_le hx hy).mp hlost).1, hlost.sumResidual_eq hx hy⟩

/-- A sum of value zero. -/
theorem add_of_value_eq_zero (mode : RoundingMode) (hx : x.isFinite = true)
    (hy : y.isFinite = true) (h : x.value + y.value = 0) :
    mode.add x y = zero (decide (x = zero true ∧ y = zero true ∨
      mode = .down ∧ ¬(x = zero false ∧ y = zero false))) := by
  rw [add_eq mode hx hy, (isZero_addNearest_iff hx hy).mpr h, if_pos rfl, zeroSum_eq]

/-! ### Products and quotients -/

/-- Whether the residual of a product is lost: the product does not overflow, but it differs from
its nearest double by too little. -/
def ProductLost (x y : Binary64) : Prop :=
  (mulNearest x y).isFinite = true ∧ Vanishes (x.value * y.value - (mulNearest x y).value)

/-- Whether the residual of a quotient is lost: the quotient does not overflow, but its nearest
double leaves too small a remainder. -/
def QuotientLost (x y : Binary64) : Prop :=
  (divNearest x y).isFinite = true ∧ Vanishes (x.value - (divNearest x y).value * y.value)

/-- Whether the residual of a product is lost, in integers. -/
theorem productLost_iff : ProductLost x y ↔ (mulNearest x y).isFinite = true ∧
    x.units * y.units - (mulNearest x y).units * one ≠ 0 ∧
      2 * |x.units * y.units - (mulNearest x y).units * one| ≤ one := by
  rw [ProductLost, sub_eq_add_neg, ← value_neg, vanishes_fused_iff, units_neg, neg_mul,
    ← sub_eq_add_neg]

/-- Whether the residual of a quotient is lost, in integers. -/
theorem quotientLost_iff : QuotientLost x y ↔ (divNearest x y).isFinite = true ∧
    x.units * one - (divNearest x y).units * y.units ≠ 0 ∧
      2 * |x.units * one - (divNearest x y).units * y.units| ≤ one := by
  rw [QuotientLost, sub_eq_add_neg, ← neg_mul, ← value_neg, add_comm, vanishes_fused_iff, units_neg,
    neg_mul, neg_add_eq_sub]

/-- The exact product of two doubles, in quanta. -/
theorem mul_value_mul_one (x y : Binary64) :
    x.value * y.value * one = (x.units * y.units / one : ℝ) := by
  have hone : (one : ℝ) ≠ 0 := one_cast_pos.ne'
  unfold value
  field_simp

/-- A product is rounded once, unless its residual is lost. -/
theorem exists_rounds_mul (mode : RoundingMode) (hx : x.isFinite = true) (hy : y.isFinite = true) :
    ∃ z, Rounds (mode.nearestIf (ProductLost x y)) (x.value * y.value) z ∧
      mode.mul x y = z.flush := by
  have hone := one_cast_pos
  obtain ⟨hnanx, hinfx⟩ := kind_of_isFinite hx
  obtain ⟨hnany, hinfy⟩ := kind_of_isFinite hy
  have hnearest := nearest_mulNearest x y
  rw [← mul_value_mul_one] at hnearest
  simp only [RoundingMode.mul, operandNaN, hnanx, hnany, hinfx, hinfy, Bool.false_eq_true, if_false,
    Bool.or_self]
  have hsign := sign_of_units_mul (v := x.value * y.value) (by positivity : (0 : ℝ) < 1 / one ^ 2)
    (by unfold value; field_simp)
    (isNegative_ofMagnitude_of_le _ (Nat.min_le_left _ _) : (mulNearest x y).isNegative = _)
  refine exists_rounds_finish hnearest hsign.1 hsign.2 (fun hfinite _ hlost => ?_)
    fun hlost => ⟨hlost.1, productResidual_of_vanishes hlost.2⟩
  exact compares_productResidual fun hvanishes => hlost ⟨hfinite, hvanishes⟩

/-- A quotient is rounded once, unless its residual is lost. -/
theorem exists_rounds_div (mode : RoundingMode) (hx : x.isFinite = true) (hy : y.isFinite = true)
    (hne : y.isZero = false) :
    ∃ z, Rounds (mode.nearestIf (QuotientLost x y)) (x.value / y.value) z ∧
      mode.div x y = z.flush := by
  have hone := one_cast_pos
  have hunits : (y.units : ℝ) ≠ 0 := Int.cast_ne_zero.mpr (units_ne_zero hne)
  obtain ⟨hnanx, hinfx⟩ := kind_of_isFinite hx
  obtain ⟨hnany, hinfy⟩ := kind_of_isFinite hy
  have hvalue : (x.units * one / y.units : ℝ) = x.value / y.value * one := by
    unfold value
    field_simp
  have hnearest := nearest_divNearest x hne
  rw [hvalue] at hnearest
  simp only [RoundingMode.div, operandNaN, hnanx, hnany, hinfx, hinfy, hne, Bool.false_eq_true,
    if_false]
  have hsign := sign_of_units_mul (v := x.value / y.value)
    (by positivity : (0 : ℝ) < 1 / y.units ^ 2) (by unfold value; field_simp)
    (isNegative_ofMagnitude_of_le _ (Nat.min_le_left _ _) : (divNearest x y).isNegative = _)
  refine exists_rounds_finish hnearest hsign.1 hsign.2 (fun hfinite _ hlost => ?_)
    fun hlost => ⟨hlost.1, quotientResidual_of_vanishes hlost.2⟩
  exact compares_quotientResidual hne fun hvanishes => hlost ⟨hfinite, hvanishes⟩

/-! ### Roots -/

/-- Whether the residual of a root is lost: the square of the nearest double leaves too small a
remainder. -/
def RootLost (x : Binary64) : Prop :=
  Vanishes (|x.value| - (sqrtNearest x.abs).value * (sqrtNearest x.abs).value)

/-- Clearing the sign leaves the magnitude. -/
theorem magnitude_abs (x : Binary64) : x.abs.magnitude = x.magnitude :=
  magnitude_ofMagnitude _ x.magnitude_lt

/-- The value of a double without its sign, in quanta. -/
theorem units_abs (x : Binary64) : (x.abs.units : ℝ) = |(x.units : ℝ)| := by
  rw [abs_units, units, magnitude_abs, abs, isNegative_ofMagnitude _ x.magnitude_lt,
    if_neg Bool.false_ne_true, Int.cast_natCast]

/-- The value of a double without its sign. -/
theorem value_abs (x : Binary64) : x.abs.value = |x.value| := by
  rw [value, units_abs, value, abs_div, abs_of_pos one_cast_pos]

/-- The signed magnitude of a double without its sign. -/
theorem order_abs (x : Binary64) : x.abs.order = x.magnitude := by
  rw [order, magnitude_abs, abs, isNegative_ofMagnitude _ x.magnitude_lt,
    if_neg Bool.false_ne_true]

/-- Doubles of smaller magnitude are nearer to zero. -/
theorem abs_value_le_iff : |x.value| ≤ |y.value| ↔ x.magnitude ≤ y.magnitude := by
  rw [← value_abs, ← value_abs, value_le_value_iff, order_abs, order_abs, Nat.cast_le]

/-- The root of a value, in quanta. -/
theorem sqrt_abs_value_mul_one (x : Binary64) :
    √|x.value| * one = √(|(x.units : ℝ)| * one) := by
  have hone := one_cast_pos
  calc √|x.value| * one = √|x.value| * √((one : ℝ) ^ 2) := by rw [Real.sqrt_sq hone.le]
    _ = √(|x.value| * (one : ℝ) ^ 2) := (Real.sqrt_mul (abs_nonneg _) _).symm
    _ = √(|(x.units : ℝ)| * one) := by
      rw [value, abs_div, abs_of_pos hone]
      congr 1
      field_simp

/-- The value of the least normal double, in quanta. -/
theorem quanta_binade : quanta binade = 2 ^ 52 := by decide

/-- A double from the least normal one on is not subnormal. -/
theorem binade_le_of_le (hx : x.isNaN = false)
    (h : ((ofMagnitude false binade).value : EReal) ≤ x.extendedValue) :
    binade ≤ x.order.natAbs := by
  have hlarge : binade ≤ infinityMagnitude := by decide
  rcases extendedValue_cases hx with ⟨horder, -⟩ | ⟨horder, -⟩ | ⟨-, heq⟩
  · omega
  · omega
  · rw [heq, EReal.coe_le_coe_iff, value_le_value_iff, order_ofMagnitude false hlarge,
      if_neg Bool.false_ne_true] at h
    omega

/-- The root of a double other than zero is far above the least normal one. -/
theorem least_normal_le_sqrt (hzero : x.isZero = false) :
    (ofMagnitude false binade).value ≤ √|x.value| := by
  have hone := one_cast_pos
  have hlarge : binade ≤ infinityMagnitude := by decide
  rw [← mul_le_mul_iff_left₀ hone, value_mul_one, order_ofMagnitude false hlarge,
    if_neg Bool.false_ne_true, signedQuanta_natCast, quanta_binade, sqrt_abs_value_mul_one]
  apply Real.le_sqrt_of_sq_le
  have hunits : (1 : ℝ) ≤ |(x.units : ℝ)| := by
    exact_mod_cast Int.one_le_abs (units_ne_zero hzero)
  have hpow : (2 : ℝ) ^ 104 ≤ one := by
    rw [one_eq, Nat.cast_pow, Nat.cast_ofNat]
    exact pow_le_pow_right₀ one_le_two (by norm_num)
  push_cast
  nlinarith

/-- The root of a finite double does not overflow. -/
theorem sqrt_lt_overflowThreshold (hx : x.isFinite = true) : √|x.value| < overflowThreshold := by
  have hge : 1 ≤ overflowThreshold := by
    have hhalf := one_le_halfSpacing
    rw [overflowThreshold_eq]
    linarith
  refine (Real.sqrt_lt' (by linarith)).mpr ((abs_value_lt hx).trans_le ?_)
  rw [sq]
  exact le_mul_of_one_le_left (by linarith) hge

/-- The rounded root is nearest to the root without its sign. -/
theorem nearest_sqrtNearest_abs (hzero : x.isZero = false) :
    Nearest (√|x.value| * one) (sqrtNearest x.abs).order := by
  have hnearest := nearest_sqrtNearest (x := x.abs) (by rwa [isZero, magnitude_abs])
  rwa [units_abs, abs_abs, ← sqrt_abs_value_mul_one] at hnearest

/-- The rounded root is finite. -/
theorem isFinite_sqrtNearest_abs (hx : x.isFinite = true) (hzero : x.isZero = false) :
    (sqrtNearest x.abs).isFinite = true := by
  refine isFinite_of_nearest (nearest_sqrtNearest_abs hzero) ?_
  rw [abs_of_nonneg (Real.sqrt_nonneg _)]
  exact sqrt_lt_overflowThreshold hx

/-- The root of a finite double other than zero is the nearest one, moved as the mode asks unless
the residual is lost. -/
theorem rounds_adjust_sqrtNearest (mode : RoundingMode) (hx : x.isFinite = true)
    (hzero : x.isZero = false) : Rounds (mode.nearestIf (RootLost x)) √|x.value|
      (mode.adjust (sqrtNearest x.abs) (rootResidual x.abs (sqrtNearest x.abs))) := by
  refine rounds_adjust_nearestIf (nearest_sqrtNearest_abs hzero) (isFinite_sqrtNearest_abs hx hzero)
    (fun hv => absurd (Real.sqrt_nonneg _) (not_le.mpr hv))
    (fun _ => isNegative_ofMagnitude_of_le _ (Nat.min_le_left _ _)) (fun hlost => ?_)
    fun hlost => rootResidual_of_vanishes (by rwa [value_abs])
  rw [← value_abs]
  refine compares_rootResidual ?_ (value_sqrtNearest_pos (by rwa [isZero, magnitude_abs]))
    (by rwa [value_abs])
  rw [value_abs]
  exact abs_pos.mpr (value_ne_zero hzero)

/-- The root of a finite double other than zero is not subnormal. -/
theorem flush_adjust_sqrtNearest (mode : RoundingMode) (hx : x.isFinite = true)
    (hzero : x.isZero = false) :
    (mode.adjust (sqrtNearest x.abs) (rootResidual x.abs (sqrtNearest x.abs))).flush =
      mode.adjust (sqrtNearest x.abs) (rootResidual x.abs (sqrtNearest x.abs)) := by
  have hrounds := rounds_adjust_sqrtNearest mode hx hzero
  exact flush_of_le (binade_le_of_le hrounds.isNaN
    (hrounds.le_extendedValue (by decide) (least_normal_le_sqrt hzero)))

/-- A root is rounded once, unless its residual is lost. -/
theorem exists_rounds_sqrtAbs (mode : RoundingMode) (hx : x.isFinite = true) :
    ∃ z, Rounds (mode.nearestIf (RootLost x)) √|x.value| z ∧ mode.sqrtAbs x = z.flush := by
  have hfinite : x.abs.isFinite = true := by rwa [isFinite, magnitude_abs]
  have hzeroAbs : x.abs.isZero = x.isZero := by rw [isZero, isZero, magnitude_abs]
  obtain ⟨hnan, hinfinite⟩ := kind_of_isFinite hfinite
  simp only [RoundingMode.sqrtAbs, hnan, hinfinite, Bool.false_eq_true, if_false, Bool.false_or,
    hzeroAbs]
  cases hzero : x.isZero with
  | true =>
    rw [if_pos rfl]
    refine exists_rounds_zero ?_ (hzeroAbs.trans hzero)
    rw [value, units_eq_zero_iff.mpr hzero, Int.cast_zero, zero_div, abs_zero, Real.sqrt_zero]
  | false =>
    rw [if_neg Bool.false_ne_true]
    exact ⟨_, rounds_adjust_sqrtNearest mode hx hzero,
      (flush_adjust_sqrtNearest mode hx hzero).symm⟩

end Operations

end RandomMachine.Binary64
