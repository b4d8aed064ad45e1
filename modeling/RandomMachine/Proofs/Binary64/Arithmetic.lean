import RandomMachine.Proofs.Binary64.Operations

/-!
# Correct rounding of arithmetic on integers

Integers of 64 bits are rounded to doubles that are integers again. With such a first operand and
any finite second one, no residual is lost: sums, differences, products, quotients and roots are
rounded once, in any of the modes, and then flushed.
-/

namespace RandomMachine.Binary64

/-! ### Doubles of integers -/

/-- A double that is an integer in the range of 64-bit signed integers, the upper end included. -/
structure Int64Valued (x : Binary64) : Prop where
  isFinite : x.isFinite = true
  dvd : (one : ℤ) ∣ x.units
  abs_value_le : |x.value| ≤ 2 ^ 63

/-- Powers of two up to half a spacing of the largest doubles do not overflow. -/
theorem two_pow_lt_overflowThreshold {n : ℕ} (hn : n ≤ 970) : (2 : ℝ) ^ n < overflowThreshold := by
  have hpow : (2 : ℝ) ^ n ≤ halfSpacing := pow_le_pow_right₀ one_le_two hn
  have hpos := one_le_halfSpacing
  rw [overflowThreshold_eq]
  linarith

/-- Powers of two up to the quanta in one. -/
theorem two_pow_le_one {n : ℕ} (hn : n ≤ 1074) : (2 : ℝ) ^ n ≤ one := by
  rw [one_eq, Nat.cast_pow, Nat.cast_ofNat]
  exact pow_le_pow_right₀ one_le_two hn

/-- Every integer of 53 bits in the range of 64-bit signed integers is the value of a double. -/
theorem exists_value_eq {n : ℤ} (h : Representable n) (hn : |n| ≤ 2 ^ 63) :
    ∃ y : Binary64, y.isFinite = true ∧ y.value = n := by
  have hone := one_cast_pos
  have hscaled : Representable (n * one) := by
    rw [one_eq, Nat.cast_pow, Nat.cast_ofNat]
    exact h.mul_two_pow _
  have hlt : |n * one| < quanta infinityMagnitude := by
    have hpos : (0 : ℤ) < one := Int.natCast_pos.mpr one_pos
    have hpow : (2 : ℤ) ^ 63 < 2 ^ 1024 := pow_lt_pow_right₀ (by norm_num) (by norm_num)
    rw [abs_mul, Nat.abs_cast, quanta_infinityMagnitude_eq, Nat.cast_mul, Nat.cast_pow,
      Nat.cast_ofNat]
    exact mul_lt_mul_of_pos_right (hn.trans_lt hpow) hpos
  obtain ⟨y, hy, hunits⟩ := exists_units_eq hscaled hlt
  refine ⟨y, hy, ?_⟩
  rw [value, hunits, Int.cast_mul, Int.cast_natCast, mul_div_cancel_right₀ _ hone.ne']

section OfInt

variable {mode : RoundingMode} {n : ℤ}

/-- Integers of 64 bits do not exceed the least one in magnitude. -/
theorem abs_toInt_le (n : Int64) : |n.toInt| ≤ 2 ^ 63 :=
  abs_le.mpr ⟨n.le_toInt, n.toInt_lt.le⟩

/-- Integers are rounded to doubles. -/
theorem rounds_ofInt (mode : RoundingMode) (hn : |n| ≤ 2 ^ 63) : Rounds mode n (mode.ofInt n) := by
  have hone : (0 : ℤ) < one := Int.natCast_pos.mpr one_pos
  have hnearest := nearest_ofUnits (n * one)
  have hcast : ((n * one : ℤ) : ℝ) = n * one := by rw [Int.cast_mul, Int.cast_natCast]
  rw [hcast] at hnearest
  have hbound : |(n : ℝ)| < overflowThreshold := by
    have : |(n : ℝ)| ≤ 2 ^ 63 := by exact_mod_cast hn
    exact this.trans_lt (two_pow_lt_overflowThreshold (by decide))
  apply rounds_adjust hnearest (isFinite_of_nearest hnearest hbound)
  · intro hneg
    rw [isNegative_ofUnits]
    exact decide_eq_true (mul_neg_of_neg_of_pos (Int.cast_lt_zero.mp hneg) hone)
  · intro hpos
    rw [isNegative_ofUnits]
    exact decide_eq_false (not_lt.mpr (mul_pos (Int.cast_pos.mp hpos) hone).le)
  · rw [← compares_mul_one, ← hcast, ← units_eq, Int.cast_strictMono.compares, ← cmp_eq_compare]
    exact cmp_compares _ _

/-- A rounded integer is an integer: it is exact up to `2 ^ 53`, and no larger double has a
fraction. -/
theorem dvd_units_of_rounds {x : Binary64} (h : Rounds mode n x) (hx : x.isFinite = true)
    (hn : |n| ≤ 2 ^ 63) : (one : ℤ) ∣ x.units := by
  have hpos := one_cast_pos
  have hunits : (x.units : ℝ) = x.value * one := (div_mul_cancel₀ _ hpos.ne').symm
  have hle {y : Binary64} (hy : y.isFinite = true) (hv : y.value ≤ n) : y.value ≤ x.value := by
    have := h.le_extendedValue hy hv
    rwa [extendedValue_of_isFinite hx, EReal.coe_le_coe_iff] at this
  have hge {y : Binary64} (hy : y.isFinite = true) (hv : n ≤ y.value) : x.value ≤ y.value := by
    have := h.extendedValue_le hy hv
    rwa [extendedValue_of_isFinite hx, EReal.coe_le_coe_iff] at this
  rcases le_or_gt |n| (2 ^ 53) with hsmall | hlarge
  · have hexact : Representable n := .of_dvd (e := 0) (one_dvd n) (by rwa [pow_zero, mul_one])
    obtain ⟨y, hy, hvalue⟩ := exists_value_eq hexact hn
    have heq := h.extendedValue_eq hy hvalue
    rw [extendedValue_of_isFinite hx, EReal.coe_eq_coe_iff] at heq
    rw [heq] at hunits
    exact Dvd.intro_left n (by exact_mod_cast hunits.symm)
  · have hrange : Representable (2 ^ 53) := ⟨1, 53, by norm_num, by norm_num⟩
    have hvalue : 2 ^ 53 ≤ |x.value| := by
      rcases lt_abs.mp hlarge with hlt | hlt
      · obtain ⟨y, hy, hvalue⟩ := exists_value_eq hrange (by norm_num)
        have := hle hy (by rw [hvalue]; exact_mod_cast hlt.le)
        rw [hvalue] at this
        exact le_abs.mpr (.inl (by exact_mod_cast this))
      · obtain ⟨y, hy, hvalue⟩ := exists_value_eq hrange.neg (by norm_num)
        have := hge hy (by rw [hvalue]; exact_mod_cast (by linarith : n ≤ -2 ^ 53))
        rw [hvalue] at this
        push_cast at this
        exact le_abs.mpr (.inr (by linarith))
    have hscale : (2 ^ 52 * one : ℝ) ≤ |(x.units : ℝ)| := by
      rw [hunits, abs_mul, abs_of_pos hpos]
      exact mul_le_mul_of_nonneg_right (by linarith) hpos.le
    have hscale : (2 ^ 52 * one : ℤ) ≤ |x.units| := by exact_mod_cast hscale
    rw [one_eq, Nat.cast_pow, Nat.cast_ofNat] at hscale ⊢
    rw [units_eq] at hscale ⊢
    exact (representable_signedQuanta _).dvd_of_le (.inr hscale)

/-- A rounded integer is an integer in the same range. -/
theorem int64Valued_ofInt (mode : RoundingMode) (hn : |n| ≤ 2 ^ 63) :
    Int64Valued (mode.ofInt n) := by
  have hrounds := rounds_ofInt mode hn
  generalize mode.ofInt n = x at *
  obtain ⟨hlow, hhigh⟩ := abs_le.mp hn
  have hrange : Representable (2 ^ 63) := ⟨1, 63, by norm_num, by norm_num⟩
  obtain ⟨low, hlowFinite, hlowValue⟩ := exists_value_eq hrange.neg (by norm_num)
  obtain ⟨high, hhighFinite, hhighValue⟩ := exists_value_eq hrange (by norm_num)
  have hge := hrounds.le_extendedValue hlowFinite (by rw [hlowValue]; exact_mod_cast hlow)
  have hle := hrounds.extendedValue_le hhighFinite (by rw [hhighValue]; exact_mod_cast hhigh)
  have hfinite : x.isFinite = true := by
    rcases extendedValue_cases hrounds.isNaN with ⟨-, heq⟩ | ⟨-, heq⟩ | ⟨hfinite, -⟩
    · rw [heq, le_bot_iff] at hge
      exact absurd hge (EReal.coe_ne_bot _)
    · rw [heq, top_le_iff] at hle
      exact absurd hle (EReal.coe_ne_top _)
    · exact isFinite_iff.mpr hfinite
  rw [extendedValue_of_isFinite hfinite, EReal.coe_le_coe_iff] at hge hle
  refine ⟨hfinite, dvd_units_of_rounds hrounds hfinite hn, abs_le.mpr ⟨?_, ?_⟩⟩
  · rw [hlowValue] at hge
    exact_mod_cast hge
  · rw [hhighValue] at hle
    exact_mod_cast hle

end OfInt

/-! ### Operations -/

namespace Int64Valued

variable {x y : Binary64}

/-- A double that is an integer is a zero or at least one. -/
theorem one_le_abs_units (hx : Int64Valued x) (hzero : x.isZero = false) :
    (one : ℝ) ≤ |(x.units : ℝ)| := by
  have hle := Int.le_of_dvd (abs_pos.mpr (units_ne_zero hzero)) ((dvd_abs _ _).mpr hx.dvd)
  exact_mod_cast hle

/-- An integer is too small to make the difference of a sum from it overflow. -/
theorem not_differenceOverflows (hx : Int64Valued x) : ¬DifferenceOverflows x y := by
  have hpow : (2 : ℝ) ^ 63 < halfSpacing := pow_lt_pow_right₀ one_lt_two (by norm_num)
  rintro ⟨n, -, h⟩
  have habs : |x.value| = (4 * n + 3) * halfSpacing := by
    have hpos : 0 < halfSpacing := (by positivity : (0 : ℝ) < 2 ^ 63).trans hpow
    rcases h with ⟨hvalue, -⟩ | ⟨hvalue, -⟩ <;> rw [hvalue] <;> push_cast
    · rw [neg_mul, abs_neg, abs_of_nonneg (by positivity)]
    · rw [abs_of_nonneg (by positivity)]
  have hle := hx.abs_value_le
  rw [habs] at hle
  nlinarith [Nat.cast_nonneg (α := ℝ) n]

/-- A sum with an integer is rounded once. -/
theorem exists_rounds_add (mode : RoundingMode) (hx : Int64Valued x) (hy : y.isFinite = true) :
    ∃ z, Rounds mode (x.value + y.value) z ∧ mode.add x y = z.flush := by
  have := Binary64.exists_rounds_add mode hx.isFinite hy
  rwa [RoundingMode.nearestIf_of_not hx.not_differenceOverflows] at this

/-- A difference from an integer is rounded once. -/
theorem exists_rounds_sub (mode : RoundingMode) (hx : Int64Valued x) (hy : y.isFinite = true) :
    ∃ z, Rounds mode (x.value - y.value) z ∧ mode.sub x y = z.flush := by
  have := hx.exists_rounds_add mode ((kind_neg y).2.2.1.trans hy)
  rwa [value_neg, ← sub_eq_add_neg, ← sub_eq mode hx.isFinite hy] at this

/-- A product with an integer is rounded once: it has no part below a quantum. -/
theorem exists_rounds_mul (mode : RoundingMode) (hx : Int64Valued x) (hy : y.isFinite = true) :
    ∃ z, Rounds mode (x.value * y.value) z ∧ mode.mul x y = z.flush := by
  have hlost : ¬ProductLost x y := fun hlost => not_vanishes_of_dvd (hx.dvd.mul_right _) hlost.2
  have := Binary64.exists_rounds_mul mode hx.isFinite hy
  rwa [RoundingMode.nearestIf_of_not hlost] at this

/-- A quotient of an integer is rounded once. -/
theorem exists_rounds_div (mode : RoundingMode) (hx : Int64Valued x) (hy : y.isFinite = true)
    (hne : y.isZero = false) :
    ∃ z, Rounds mode (x.value / y.value) z ∧ mode.div x y = z.flush := by
  have hlost : ¬QuotientLost x y := fun hlost =>
    not_vanishes_remainder (fun hzero => (two_pow_le_one (by norm_num)).trans
      (hx.one_le_abs_units hzero)) hne hlost.1 hlost.2
  have := Binary64.exists_rounds_div mode hx.isFinite hy hne
  rwa [RoundingMode.nearestIf_of_not hlost] at this

/-- The root of an integer without its sign is rounded once. -/
theorem exists_rounds_sqrtAbs (mode : RoundingMode) (hx : Int64Valued x) :
    ∃ z, Rounds mode √|x.value| z ∧ mode.sqrtAbs x = z.flush := by
  have hlost : ¬RootLost x := by
    unfold RootLost
    rw [← value_abs]
    cases hzero : x.isZero with
    | true =>
      have habs : x.abs = zero false := eq_zero_iff.mpr ⟨by rwa [isZero, magnitude_abs],
        isNegative_ofMagnitude _ x.magnitude_lt⟩
      have hroot : sqrtNearest (zero false) = zero false := by decide +kernel
      have hvalue : (zero false).value = 0 := by
        rw [value, units_eq, order_zero, signedQuanta_zero, Int.cast_zero, zero_div]
      rw [habs, hroot, hvalue, mul_zero, sub_zero]
      exact fun h => h.1 rfl
    | false =>
      refine not_vanishes_rootRemainder ?_ (isFinite_sqrtNearest_abs hx.isFinite hzero)
      rw [units_abs]
      exact (two_pow_le_one (by norm_num)).trans (hx.one_le_abs_units hzero)
  have := Binary64.exists_rounds_sqrtAbs mode hx.isFinite
  rwa [RoundingMode.nearestIf_of_not hlost] at this

end Int64Valued

end RandomMachine.Binary64
