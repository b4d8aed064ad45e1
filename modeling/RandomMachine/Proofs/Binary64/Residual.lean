import RandomMachine.Proofs.Binary64.Rounding

/-!
# Signs of rounding errors

Where the residual of a product, a quotient or a root is the sign of what was rounded away. The
residual is the remainder that the rounded result leaves, rounded to a double itself. Its sign is
lost in one situation: a remainder of at most half the least double above zero is rounded to zero.
A remainder that is a whole number of quanta keeps its sign, by the size of the operands or because
one factor is an integer.
-/

namespace RandomMachine.Binary64

/-! ### Signs -/

/-- The sign of a double that is not a NaN is that of its signed magnitude. -/
theorem compares_sign {x : Binary64} (h : x.isNaN = false) : x.sign.Compares x.order 0 := by
  unfold sign
  rw [h, Bool.false_or]
  cases hzero : x.isZero with
  | true =>
    rw [if_pos rfl]
    exact isZero_iff.mp hzero
  | false =>
    have hne : x.order ≠ 0 := mt isZero_iff.mpr (Bool.eq_false_iff.mp hzero)
    rw [if_neg Bool.false_ne_true]
    rcases x.order_eq_or with ⟨hneg, horder⟩ | ⟨hneg, horder⟩
    · rw [hneg, if_pos rfl]
      exact (by omega : x.order < 0)
    · rw [hneg, if_neg Bool.false_ne_true]
      exact (by omega : 0 < x.order)

/-- Two numbers compare as their difference does with zero. -/
theorem compares_sub_zero {R : Type} [AddCommGroup R] [LinearOrder R] [IsOrderedAddMonoid R]
    {a b : R} {o : Ordering} : o.Compares (a - b) 0 ↔ o.Compares a b := by
  cases o with
  | lt => exact sub_neg
  | eq => exact sub_eq_zero
  | gt => exact sub_pos

/-- A positive factor does not change the sign. -/
theorem compares_mul_zero {a c : ℝ} (hc : 0 < c) {o : Ordering} :
    o.Compares (a * c) 0 ↔ o.Compares a 0 := by
  have := (strictMono_mul_right_of_pos hc).compares (a := a) (b := 0) (o := o)
  rwa [zero_mul] at this

namespace Nearest

variable {v : ℝ} {k : ℤ}

/-- A value with a positive nearest double is positive. -/
theorem pos (h : Nearest v k) (hk : 0 < k) : 0 < v := by
  have hlower := (h.lower (by omega)).1
  have hbelow : 0 ≤ signedQuanta (k - 1) := signedQuanta_strictMono.monotone (by omega : 0 ≤ k - 1)
  have hself : 0 < signedQuanta k := signedQuanta_strictMono hk
  have hbelow : (0 : ℝ) ≤ signedQuanta (k - 1) := Int.cast_nonneg hbelow
  have hself : (0 : ℝ) < signedQuanta k := Int.cast_pos.mpr hself
  linarith

/-- A value that is nearest to zero is half a quantum at most. -/
theorem two_mul_abs_le_one (h : Nearest v 0) : 2 * |v| ≤ 1 := by
  have hpos : 0 < infinityMagnitude := by decide
  have hbelow : signedQuanta (0 - 1) = -1 := by decide
  have habove : signedQuanta (0 + 1) = 1 := by decide
  have hlower := (h.lower (by omega)).1
  have hupper := (h.upper (by omega)).1
  rw [hbelow, signedQuanta_zero] at hlower
  rw [habove, signedQuanta_zero] at hupper
  push_cast at hlower hupper
  rcases abs_choice v with hv | hv <;> rw [hv] <;> linarith

/-- A value of more than half a quantum has the sign of a nearest double, and so has zero. -/
theorem compares (h : Nearest v k) (hv : v = 0 ∨ 1 < 2 * |v|) {o : Ordering}
    (ho : o.Compares k 0) : o.Compares v 0 := by
  cases o with
  | lt => exact neg_pos.mp (h.neg.pos (neg_pos.mpr ho))
  | gt => exact h.pos ho
  | eq =>
    obtain rfl : k = 0 := ho
    have := h.two_mul_abs_le_one
    exact hv.resolve_right fun hlt => by linarith

/-- A value of half a quantum at most is rounded to zero: from the tie zero is the even neighbour.
-/
theorem eq_zero_of_two_mul_abs_le (h : Nearest v k) (hv : 2 * |v| ≤ 1) : k = 0 := by
  have hnonpos {v : ℝ} {k : ℤ} (h : Nearest v k) (hv : 2 * |v| ≤ 1) : k ≤ 0 := by
    by_contra hpos
    obtain ⟨hlower, htie⟩ := h.lower (by omega)
    have hone : signedQuanta 1 = 1 := by decide
    have hbelow : signedQuanta 0 ≤ signedQuanta (k - 1) :=
      signedQuanta_strictMono.monotone (by omega)
    rw [signedQuanta_zero] at hbelow
    have hbelow : (0 : ℝ) ≤ signedQuanta (k - 1) := Int.cast_nonneg hbelow
    have hle : (signedQuanta k : ℝ) ≤ 1 := by linarith [le_abs_self v]
    have hk : k ≤ 1 := by
      rw [← signedQuanta_strictMono.le_iff_le, hone]
      exact_mod_cast hle
    obtain rfl : k = 1 := by omega
    rw [hone, sub_self, signedQuanta_zero] at hlower htie
    push_cast at hlower htie
    have heven := htie (by linarith [le_abs_self v])
    exact absurd heven (by decide)
  have hle := hnonpos h hv
  have hge := hnonpos h.neg (by rwa [abs_neg])
  omega

/-- Only zero is nearest to zero. -/
theorem eq_zero (h : Nearest 0 k) : k = 0 :=
  h.eq_zero_of_two_mul_abs_le (by norm_num)

end Nearest

/-! ### Remainders -/

/-- Whether rounding to a double loses a remainder: it is not zero, but too small to be rounded to
anything else. -/
def Vanishes (e : ℝ) : Prop := e ≠ 0 ∧ |e| ≤ underflowThreshold

/-- A remainder in quanta. -/
theorem vanishes_iff {e : ℝ} : Vanishes e ↔ e * one ≠ 0 ∧ 2 * |e * one| ≤ 1 := by
  have hone := one_cast_pos
  have hunit (n : ℕ) : ((1 / 2) ^ (n + 1) : ℝ) * (2 * 2 ^ n) = 1 := by
    rw [← pow_succ', ← mul_pow]
    norm_num
  have hscale : underflowThreshold * (2 * one) = 1 := by
    rw [underflowThreshold, one_eq, Nat.cast_pow, Nat.cast_ofNat]
    exact hunit 1074
  have hle : |e| ≤ underflowThreshold ↔ 2 * (|e| * one) ≤ 1 := by
    rw [← mul_le_mul_iff_left₀ (by positivity : (0 : ℝ) < 2 * one), hscale, mul_left_comm]
  rw [Vanishes, hle, mul_ne_zero_iff_right hone.ne', abs_mul, abs_of_pos hone]

/-- A whole number of quanta does not vanish. -/
theorem not_vanishes_of_int {e : ℝ} {n : ℤ} (h : e * one = n) : ¬Vanishes e := by
  rw [vanishes_iff, h]
  rintro ⟨hne, hle⟩
  have hge : (1 : ℝ) ≤ |(n : ℝ)| := by exact_mod_cast Int.one_le_abs (Int.cast_ne_zero.mp hne)
  linarith

section Fused

variable {x y z : Binary64}

/-- A fused sum in quanta. -/
theorem fused_eq (x y z : Binary64) :
    ((x.units * y.units + z.units * one : ℤ) / one : ℝ) = (x.value * y.value + z.value) * one := by
  have hone : (one : ℝ) ≠ 0 := one_cast_pos.ne'
  unfold value
  push_cast
  field_simp

/-- Whether a fused sum vanishes, in integers. -/
theorem vanishes_fused_iff : Vanishes (x.value * y.value + z.value) ↔
    x.units * y.units + z.units * one ≠ 0 ∧ 2 * |x.units * y.units + z.units * one| ≤ one := by
  have hone := one_cast_pos
  rw [vanishes_iff, ← fused_eq, div_ne_zero_iff, Int.cast_ne_zero, abs_div, abs_of_pos hone,
    mul_div_assoc', div_le_one hone]
  exact and_congr (and_iff_left hone.ne') (by exact_mod_cast Iff.rfl)

/-- A fused sum that does not vanish has the sign of the rounded one. -/
theorem compares_sign_fusedNearest (h : ¬Vanishes (x.value * y.value + z.value)) :
    (fusedNearest x y z).sign.Compares (x.value * y.value + z.value) 0 := by
  have hnearest := nearest_fusedNearest x y z
  rw [fused_eq] at hnearest
  have hsign := compares_sign (isNaN_eq_false_iff.mpr hnearest.le)
  rw [← compares_mul_zero one_cast_pos]
  refine hnearest.compares ?_ hsign
  rwa [vanishes_iff, not_and_or, not_not, not_le] at h

/-- A fused sum that vanishes is rounded to a zero, which has no sign. -/
theorem sign_fusedNearest_of_vanishes (h : Vanishes (x.value * y.value + z.value)) :
    (fusedNearest x y z).sign = .eq := by
  have hnearest := nearest_fusedNearest x y z
  rw [fused_eq] at hnearest
  have hzero := isZero_iff.mpr (hnearest.eq_zero_of_two_mul_abs_le (vanishes_iff.mp h).2)
  rw [sign, hzero, Bool.or_true, if_pos rfl]

end Fused

/-! ### Products -/

section Product

variable {x y product : Binary64}

/-- The residual of a product is the sign of its error, unless the error vanishes. -/
theorem compares_productResidual (h : ¬Vanishes (x.value * y.value - product.value)) :
    (productResidual x y product).Compares (x.value * y.value) product.value := by
  rw [sub_eq_add_neg, ← value_neg] at h
  have hsign := compares_sign_fusedNearest h
  rwa [value_neg, ← sub_eq_add_neg, compares_sub_zero] at hsign

/-- The residual of a product whose error vanishes. -/
theorem productResidual_of_vanishes (h : Vanishes (x.value * y.value - product.value)) :
    productResidual x y product = .eq := by
  rw [sub_eq_add_neg, ← value_neg] at h
  exact sign_fusedNearest_of_vanishes h

end Product

/-! ### Quotients and roots -/

/-- The next magnitude is at most twice as large. -/
theorem quanta_succ_le {m : ℕ} (hm : 0 < m) : quanta (m + 1) ≤ 2 * quanta m := by
  obtain ⟨scale, r, rfl, hlow, hhigh⟩ := exists_scale m
  have hr : 1 ≤ r := by
    rcases hlow with rfl | hlow
    · omega
    · exact (show 0 < binade by decide).trans_le hlow
  rw [quanta_succ hlow hhigh, quanta_scale hlow hhigh.le, ← Nat.mul_assoc]
  exact Nat.mul_le_mul_right _ (by omega)

/-- A value with a finite nearest double other than zero is at most half as large again. -/
theorem Nearest.two_mul_abs_le {v : ℝ} {k : ℤ} (h : Nearest v k) (hzero : k ≠ 0)
    (hk : k.natAbs < infinityMagnitude) : 2 * |v| ≤ 3 * |(signedQuanta k : ℝ)| := by
  wlog hpos : 0 < k generalizing v k
  · have := this h.neg (neg_ne_zero.mpr hzero) (by rwa [Int.natAbs_neg]) (by omega)
    rwa [abs_neg, signedQuanta_neg, Int.cast_neg, abs_neg] at this
  obtain ⟨m, rfl⟩ := Int.eq_ofNat_of_zero_le hpos.le
  have hupper := (h.upper (by omega)).1
  have hstep : (quanta (m + 1) : ℝ) ≤ (2 * quanta m : ℕ) :=
    Nat.cast_le.mpr (quanta_succ_le (by omega))
  rw [← Nat.cast_succ, signedQuanta_natCast, signedQuanta_natCast] at hupper
  push_cast at hupper hstep
  rw [abs_of_pos (h.pos hpos), signedQuanta_natCast, Int.cast_natCast, Nat.abs_cast]
  linarith

/-- The product of two doubles has no part below a quantum when it is not too small. -/
theorem dvd_units_mul_units {x y : Binary64}
    (h : (2 ^ 106 * one : ℝ) ≤ |(x.units : ℝ) * y.units|) : (one : ℤ) ∣ x.units * y.units := by
  have hle : (2 ^ 106 * one : ℤ) ≤ |x.units * y.units| := by exact_mod_cast h
  rw [one_eq, Nat.cast_pow, Nat.cast_ofNat] at hle ⊢
  rw [units_eq, units_eq] at hle ⊢
  exact (representable_signedQuanta _).dvd_mul (representable_signedQuanta _) hle

/-- What a product without a part below a quantum leaves of a double does not vanish. -/
theorem not_vanishes_of_dvd {x y z : Binary64} (h : (one : ℤ) ∣ x.units * y.units) :
    ¬Vanishes (x.value * y.value - z.value) := by
  have hone : (one : ℝ) ≠ 0 := one_cast_pos.ne'
  obtain ⟨c, hc⟩ := h
  refine not_vanishes_of_int (n := c - z.units) ?_
  have hvalue : (x.value * y.value - z.value) * one = (x.units * y.units : ℤ) / one - z.units := by
    unfold value
    push_cast
    field_simp
  rw [hvalue, hc, Int.cast_mul, Int.cast_natCast, mul_div_cancel_left₀ _ hone, Int.cast_sub]

/-- A double other than zero has a value other than zero. -/
theorem value_ne_zero {x : Binary64} (h : x.isZero = false) : x.value ≠ 0 :=
  div_ne_zero (Int.cast_ne_zero.mpr (units_ne_zero h)) one_cast_pos.ne'

section Quotient

variable {x y quotient : Binary64}

/-- The residual of a quotient is the sign of its error, unless its remainder vanishes. A negative
divisor turns the sign of the remainder around. -/
theorem compares_quotientResidual (hy : y.isZero = false)
    (h : ¬Vanishes (x.value - quotient.value * y.value)) :
    (quotientResidual x y quotient).Compares (x.value / y.value) quotient.value := by
  have hone := one_cast_pos
  have hne := value_ne_zero hy
  rw [sub_eq_add_neg, ← neg_mul, ← value_neg, add_comm] at h
  have hsign := compares_sign_fusedNearest h
  rw [value_neg, show -quotient.value * y.value + x.value =
    (x.value / y.value - quotient.value) * y.value by field_simp; ring] at hsign
  unfold quotientResidual
  dsimp only
  rcases y.units_eq_or with ⟨hneg, hvalue⟩ | ⟨hneg, hvalue⟩
  · have hnegative : y.value < 0 := by
      refine lt_of_le_of_ne (div_nonpos_of_nonpos_of_nonneg ?_ hone.le) hne
      rw [hvalue]
      exact Int.cast_nonpos.mpr (by omega)
    rw [← neg_mul_neg, neg_sub, compares_mul_zero (neg_pos.mpr hnegative),
      compares_sub_zero] at hsign
    rw [hneg, if_pos rfl]
    exact Ordering.compares_swap.mpr hsign
  · have hpositive : 0 < y.value := by
      refine lt_of_le_of_ne (div_nonneg ?_ hone.le) hne.symm
      rw [hvalue]
      exact Int.cast_nonneg (by omega)
    rw [compares_mul_zero hpositive, compares_sub_zero] at hsign
    rwa [hneg, if_neg Bool.false_ne_true]

/-- The residual of a quotient whose remainder vanishes. -/
theorem quotientResidual_of_vanishes (h : Vanishes (x.value - quotient.value * y.value)) :
    quotientResidual x y quotient = .eq := by
  rw [sub_eq_add_neg, ← neg_mul, ← value_neg, add_comm] at h
  unfold quotientResidual
  rw [sign_fusedNearest_of_vanishes h]
  split <;> rfl

/-- The remainder of a dividend that is a zero or not too small does not vanish. -/
theorem not_vanishes_remainder (hx : x.isZero = false → 2 ^ 107 ≤ |(x.units : ℝ)|)
    (hy : y.isZero = false) (hfinite : (divNearest x y).isFinite = true) :
    ¬Vanishes (x.value - (divNearest x y).value * y.value) := by
  have hnearest := nearest_divNearest x hy
  have hone := one_cast_pos
  have hunits : (y.units : ℝ) ≠ 0 := Int.cast_ne_zero.mpr (units_ne_zero hy)
  have hrange := isFinite_iff.mp hfinite
  generalize divNearest x y = quotient at *
  cases hzero : quotient.isZero with
  | true =>
    -- The dividend itself is left.
    refine not_vanishes_of_int (n := x.units) ?_
    rw [value, value, value, units_eq_zero_iff.mpr hzero, Int.cast_zero, zero_div, zero_mul,
      sub_zero, div_mul_cancel₀ _ hone.ne']
  | false =>
    have hlarge := hnearest.two_mul_abs_le (mt isZero_iff.mpr (Bool.eq_false_iff.mp hzero)) hrange
    rw [← units_eq] at hlarge
    have hx := hx (Bool.eq_false_iff.mpr fun hx => by
      rw [units_eq_zero_iff.mpr hx, Int.cast_zero, zero_mul, zero_div] at hnearest
      exact Bool.eq_false_iff.mp hzero (isZero_iff.mpr hnearest.eq_zero))
    have hproduct : (2 ^ 106 * one : ℝ) ≤ |(quotient.neg.units : ℝ) * y.units| := by
      rw [abs_div, abs_mul, abs_of_pos hone, mul_div_assoc',
        div_le_iff₀ (abs_pos.mpr hunits)] at hlarge
      rw [units_neg, Int.cast_neg, neg_mul, abs_neg, abs_mul]
      nlinarith
    have hdvd := not_vanishes_of_dvd (z := x.neg) (dvd_units_mul_units hproduct)
    rwa [value_neg, value_neg, sub_neg_eq_add, neg_mul, neg_add_eq_sub] at hdvd

end Quotient

section Root

variable {x root : Binary64}

/-- The residual of a root is the sign of its error, unless its remainder vanishes. -/
theorem compares_rootResidual (hx : 0 < x.value) (hroot : 0 < root.value)
    (h : ¬Vanishes (x.value - root.value * root.value)) :
    (rootResidual x root).Compares √x.value root.value := by
  rw [sub_eq_add_neg, ← neg_mul, ← value_neg, add_comm] at h
  have hsign := compares_sign_fusedNearest h
  have hsquare : √x.value * √x.value = x.value := Real.mul_self_sqrt hx.le
  have hpos := Real.sqrt_pos.mpr hx
  rwa [value_neg, ← hsquare, show -root.value * root.value + √x.value * √x.value =
    (√x.value - root.value) * (√x.value + root.value) by ring,
    compares_mul_zero (by positivity), compares_sub_zero] at hsign

/-- The residual of a root whose remainder vanishes. -/
theorem rootResidual_of_vanishes (h : Vanishes (x.value - root.value * root.value)) :
    rootResidual x root = .eq := by
  rw [sub_eq_add_neg, ← neg_mul, ← value_neg, add_comm] at h
  exact sign_fusedNearest_of_vanishes h

/-- A nearest root is positive: no root of a double is half a quantum or less. -/
theorem order_sqrtNearest_pos (hzero : x.isZero = false) : 0 < (sqrtNearest x).order := by
  have hnearest := nearest_sqrtNearest hzero
  have hle : 1 ≤ √(|(x.units : ℝ)| * one) := by
    have hunits : (1 : ℝ) ≤ |(x.units : ℝ)| := by
      exact_mod_cast Int.one_le_abs (units_ne_zero hzero)
    have hquantum : (1 : ℝ) ≤ one := Nat.one_le_cast.mpr one_pos
    exact Real.one_le_sqrt.mpr (one_le_mul_of_one_le_of_one_le hunits hquantum)
  have hne : (sqrtNearest x).order ≠ 0 := fun hroot => by
    rw [hroot] at hnearest
    have := hnearest.two_mul_abs_le_one
    rw [abs_of_nonneg (Real.sqrt_nonneg _)] at this
    linarith
  by_contra hneg
  have := hnearest.neg.pos (by omega)
  linarith

/-- The value of a nearest root is positive. -/
theorem value_sqrtNearest_pos (hzero : x.isZero = false) : 0 < (sqrtNearest x).value := by
  refine div_pos (Int.cast_pos.mpr ?_) one_cast_pos
  rw [units_eq, ← signedQuanta_zero]
  exact signedQuanta_strictMono (order_sqrtNearest_pos hzero)

/-- The remainder of a radicand that is not too small does not vanish. -/
theorem not_vanishes_rootRemainder (hx : 2 ^ 108 ≤ (x.units : ℝ))
    (hfinite : (sqrtNearest x).isFinite = true) :
    ¬Vanishes (x.value - (sqrtNearest x).value * (sqrtNearest x).value) := by
  have hpos : (0 : ℝ) < x.units := by linarith
  have hone := one_cast_pos
  have hzero : x.isZero = false :=
    Bool.eq_false_iff.mpr (mt units_eq_zero_iff.mpr (Int.cast_pos.mp hpos).ne')
  have hnearest := nearest_sqrtNearest hzero
  have hroot := value_sqrtNearest_pos hzero
  rw [abs_of_pos hpos] at hnearest
  have hunits : (0 : ℝ) < (sqrtNearest x).units := (div_pos_iff_of_pos_right hone).mp hroot
  have hlarge := hnearest.two_mul_abs_le (fun horder => by
    rw [units_eq, horder, signedQuanta_zero, Int.cast_zero] at hunits
    exact lt_irrefl 0 hunits) (isFinite_iff.mp hfinite)
  rw [← units_eq] at hlarge
  generalize sqrtNearest x = root at *
  have hsquare : √(x.units * one : ℝ) ^ 2 = x.units * one := Real.sq_sqrt (by positivity)
  have hv := Real.sqrt_nonneg (x.units * one : ℝ)
  generalize √(x.units * one : ℝ) = v at *
  rw [abs_of_nonneg hv, abs_of_pos hunits] at hlarge
  have hproduct : (2 ^ 106 * one : ℝ) ≤ |(root.neg.units : ℝ) * root.units| := by
    rw [units_neg, Int.cast_neg, neg_mul, abs_neg, abs_of_pos (by positivity)]
    nlinarith
  have hdvd := not_vanishes_of_dvd (z := x.neg) (dvd_units_mul_units hproduct)
  rwa [value_neg, value_neg, sub_neg_eq_add, neg_mul, neg_add_eq_sub] at hdvd

end Root

end RandomMachine.Binary64
