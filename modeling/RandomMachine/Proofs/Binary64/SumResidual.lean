import RandomMachine.Proofs.Binary64.Residual

/-!
# Errors of rounded sums

The residual of a sum comes from the two-sum algorithm, which begins with the rounded sum and its
difference from the first addend. When both are finite, no later step overflows, all of them are
exact, and the residual is the sign of the error. The difference overflows in one situation only:
the second addend is the largest double of its sign, and the exact sum lies halfway between two
doubles of the largest scale, of which the farther one from the first addend is even.
-/

namespace RandomMachine.Binary64

/-! ### Steps between doubles -/

/-- Half the distance of the largest doubles, in quanta. -/
def halfStep : ℤ := 2 ^ 2044

/-- Half a step is a positive number of quanta. -/
theorem halfStep_pos : 0 < halfStep := by
  unfold halfStep
  positivity

/-- A step of the largest scale. -/
theorem two_mul_halfStep : 2 * halfStep = 2 ^ 2045 := (pow_succ' 2 2044).symm

/-- Half a step as a real number. -/
theorem halfStep_cast : (halfStep : ℝ) = halfSpacing * one := by
  rw [halfStep, halfSpacing, one_eq, Int.cast_pow, Int.cast_ofNat, Nat.cast_pow, Nat.cast_ofNat,
    ← pow_add]

/-- The value that the infinities stand for, in half steps. -/
theorem quanta_infinityMagnitude_halfStep : (quanta infinityMagnitude : ℤ) = 2 ^ 54 * halfStep := by
  rw [quanta_infinityMagnitude, halfStep, ← pow_add, Nat.cast_pow, Nat.cast_ofNat]

/-- A significand of the largest scale, in half steps. -/
theorem signedQuanta_largest_scale {r : ℕ} (hlow : binade ≤ r) (hhigh : r ≤ 2 * binade) :
    signedQuanta ((2045 * binade + r : ℕ) : ℤ) = 2 * r * halfStep := by
  rw [signedQuanta_natCast, quanta_scale (.inr hlow) hhigh, mul_comm (2 : ℤ), mul_assoc,
    two_mul_halfStep, Nat.cast_mul, Nat.cast_pow, Nat.cast_ofNat]

/-- The overflow threshold, in half steps. -/
theorem overflowThreshold_halfStep :
    overflowThreshold * one = ((2 ^ 54 - 1) * halfStep : ℤ) := by
  push_cast
  rw [halfStep_cast, overflowThreshold_eq]
  ring

/-- The largest double, in half steps. -/
theorem abs_units_le {x : Binary64} (hx : x.isFinite = true) :
    |x.units| ≤ (2 ^ 54 - 2) * halfStep := by
  have hle := abs_value_le hx
  rw [value, abs_div, abs_of_pos one_cast_pos, div_le_iff₀ one_cast_pos, mul_assoc,
    ← halfStep_cast] at hle
  exact_mod_cast hle

/-- A signed magnitude and the next one, as steps of a scale, when they are not negative. -/
theorem exists_scale_signedQuanta {k : ℤ} (hk : 0 ≤ k) (hhigh : k < infinityMagnitude) :
    ∃ scale r : ℕ, k = (scale * binade + r : ℕ) ∧ scale ≤ 2045 ∧ (scale = 0 ∨ binade ≤ r) ∧
      r < 2 * binade ∧ signedQuanta (k + 1) - signedQuanta k = 2 ^ scale := by
  obtain ⟨m, rfl⟩ := Int.eq_ofNat_of_zero_le hk
  obtain ⟨scale, r, rfl, hlow, hbits⟩ := exists_scale m
  refine ⟨scale, r, rfl, ?_, hlow, hbits, ?_⟩
  · have hbinade : binade = 2 ^ 52 := by decide
    have hlimit : infinityMagnitude = 2047 * 2 ^ 52 := by decide
    rw [hbinade] at hhigh hlow hbits
    omega
  · rw [← Nat.cast_succ, signedQuanta_natCast, signedQuanta_natCast, Nat.succ_eq_add_one,
      quanta_succ hlow hbits, quanta_scale hlow hbits.le]
    push_cast
    ring

/-- Neighbouring finite doubles are two half steps apart at most. -/
theorem signedQuanta_succ_sub_le {k : ℤ} (hlow : -(infinityMagnitude : ℤ) ≤ k)
    (hhigh : k < infinityMagnitude) : signedQuanta (k + 1) - signedQuanta k ≤ 2 * halfStep := by
  wlog hk : 0 ≤ k generalizing k
  · have := this (k := -k - 1) (by omega) (by omega) (by omega)
    rw [sub_add_cancel, signedQuanta_neg, show -k - 1 = -(k + 1) by ring, signedQuanta_neg] at this
    linarith
  obtain ⟨scale, r, -, hscale, -, -, hstep⟩ := exists_scale_signedQuanta hk hhigh
  rw [hstep, two_mul_halfStep]
  exact pow_le_pow_right₀ (by norm_num) hscale

/-- Only doubles of the largest scale are so far apart. -/
theorem exists_largest_scale {k : ℤ} (hk : 0 ≤ k) (hhigh : k < infinityMagnitude)
    (hle : 2 * halfStep ≤ signedQuanta (k + 1) - signedQuanta k) :
    ∃ r : ℕ, k = (2045 * binade + r : ℕ) ∧ binade ≤ r ∧ signedQuanta k = 2 * r * halfStep := by
  obtain ⟨scale, r, rfl, hscale, hlow, hbits, hstep⟩ := exists_scale_signedQuanta hk hhigh
  obtain rfl : scale = 2045 := by
    refine le_antisymm hscale ((pow_le_pow_iff_right₀ (by norm_num : (1 : ℤ) < 2)).mp ?_)
    rwa [← two_mul_halfStep, ← hstep]
  have hbinade := hlow.resolve_left (by norm_num)
  exact ⟨r, rfl, hbinade, signedQuanta_largest_scale hbinade hbits.le⟩

namespace Nearest

variable {n k i : ℤ}

/-- A finite nearest double is half a step of the largest doubles away at most. -/
theorem abs_sub_le_halfStep (h : Nearest n k) (hk : k.natAbs < infinityMagnitude) :
    |n - signedQuanta k| ≤ halfStep := by
  have hlower : signedQuanta (k - 1) + signedQuanta k ≤ 2 * n := by
    exact_mod_cast (h.lower (by omega)).1
  have hupper : 2 * n ≤ signedQuanta k + signedQuanta (k + 1) := by
    exact_mod_cast (h.upper (by omega)).1
  have hbelow := signedQuanta_succ_sub_le (k := k - 1) (by omega) (by omega)
  have habove := signedQuanta_succ_sub_le (k := k) (by omega) (by omega)
  rw [sub_add_cancel] at hbelow
  exact abs_le.mpr ⟨by linarith, by linarith⟩

/-- A value that is the one of a double has no other nearest double. -/
theorem eq_of_signedQuanta (h : Nearest (signedQuanta i) k)
    (hi : i.natAbs ≤ infinityMagnitude) : k = i := by
  rcases lt_trichotomy k i with hlt | heq | hgt
  · have hupper := (h.upper (by omega)).1
    have hself : (signedQuanta k : ℝ) < signedQuanta i :=
      Int.cast_lt.mpr (signedQuanta_strictMono hlt)
    have hnext : (signedQuanta (k + 1) : ℝ) ≤ signedQuanta i :=
      Int.cast_le.mpr (signedQuanta_strictMono.monotone hlt)
    linarith
  · exact heq
  · have hlower := (h.lower (by omega)).1
    have hself : (signedQuanta i : ℝ) < signedQuanta k :=
      Int.cast_lt.mpr (signedQuanta_strictMono hgt)
    have hprevious : (signedQuanta i : ℝ) ≤ signedQuanta (k - 1) :=
      Int.cast_le.mpr (signedQuanta_strictMono.monotone (by omega))
    linarith

/-- A value halfway below an even double is rounded up to it. -/
theorem eq_of_middle (h : Nearest n k) (hi : i.natAbs ≤ infinityMagnitude) (heven : Even i)
    (hmiddle : 2 * n = signedQuanta (i - 1) + signedQuanta i) : k = i := by
  rcases lt_trichotomy k i with hlt | heq | hgt
  · obtain ⟨hupper, htie⟩ := h.upper (by omega)
    have hself : signedQuanta k ≤ signedQuanta (i - 1) :=
      signedQuanta_strictMono.monotone (by omega)
    have hnext : signedQuanta (k + 1) ≤ signedQuanta i := signedQuanta_strictMono.monotone hlt
    have hupper : 2 * n ≤ signedQuanta k + signedQuanta (k + 1) := by exact_mod_cast hupper
    have hodd : Even k := htie (by exact_mod_cast (by linarith : 2 * n = _ + _))
    have hprevious : signedQuanta k = signedQuanta (i - 1) := by linarith
    obtain rfl := signedQuanta_strictMono.injective hprevious
    exact absurd heven (Int.not_even_iff_odd.mpr (sub_add_cancel i 1 ▸ hodd.add_one))
  · exact heq
  · have hlower : signedQuanta (k - 1) + signedQuanta k ≤ 2 * n := by
      exact_mod_cast (h.lower (by omega)).1
    have hself : signedQuanta i < signedQuanta k := signedQuanta_strictMono hgt
    have hprevious : signedQuanta (i - 1) < signedQuanta (k - 1) :=
      signedQuanta_strictMono (by omega)
    linarith

/-- Only zero is rounded to zero, among the integers. -/
theorem eq_zero_iff (h : Nearest n k) : k = 0 ↔ n = 0 := by
  constructor
  · rintro rfl
    have hle := h.two_mul_abs_le_one
    by_contra hne
    have hge : (1 : ℝ) ≤ |(n : ℝ)| := by exact_mod_cast Int.one_le_abs hne
    linarith
  · rintro rfl
    rw [Int.cast_zero] at h
    exact h.eq_zero

end Nearest

section Sum

variable {x y : Binary64}

/-! ### Steps of the two-sum algorithm -/

/-- Sums of finite doubles below the overflow threshold are finite, and no others. -/
theorem isFinite_addNearest_iff (hx : x.isFinite = true) (hy : y.isFinite = true) :
    (addNearest x y).isFinite = true ↔ |x.units + y.units| < (2 ^ 54 - 1) * halfStep := by
  have hone := one_cast_pos
  have hnearest := nearest_addNearest hx hy
  have hvalue : ((x.units + y.units : ℤ) : ℝ) = (x.units + y.units : ℤ) / one * one :=
    (div_mul_cancel₀ _ hone.ne').symm
  rw [hvalue] at hnearest
  have hthreshold : |((x.units + y.units : ℤ) / one : ℝ)| < overflowThreshold ↔
      |x.units + y.units| < (2 ^ 54 - 1) * halfStep := by
    rw [← Int.cast_lt (R := ℝ), ← overflowThreshold_halfStep, abs_div, abs_of_pos hone,
      div_lt_iff₀ hone, Int.cast_abs]
  rw [← hthreshold]
  refine ⟨fun hfinite => ?_, fun hlt => (hnearest.roundsToNearest.finite hlt).1⟩
  by_contra hge
  have hinfinite := hnearest.roundsToNearest.infinite (not_lt.mp hge)
  rw [(kind_of_isFinite hfinite).2] at hinfinite
  cases hinfinite

/-- Differences of finite doubles below the overflow threshold are finite, and no others. -/
theorem isFinite_subNearest_iff (hx : x.isFinite = true) (hy : y.isFinite = true) :
    (subNearest x y).isFinite = true ↔ |x.units - y.units| < (2 ^ 54 - 1) * halfStep := by
  rw [sub_eq_add_neg, ← units_neg]
  exact isFinite_addNearest_iff hx ((kind_neg y).2.2.1.trans hy)

/-- A sum of two finite doubles that is a double is exact. -/
theorem addNearest_exact (hx : x.isFinite = true) (hy : y.isFinite = true)
    (h : Representable (x.units + y.units)) (hlt : |x.units + y.units| < 2 ^ 54 * halfStep) :
    (addNearest x y).isFinite = true ∧ (addNearest x y).units = x.units + y.units := by
  obtain ⟨i, hi⟩ := exists_signedQuanta h
  have hnearest := nearest_addNearest hx hy
  rw [← quanta_infinityMagnitude_halfStep] at hlt
  rw [hi] at hnearest hlt ⊢
  rw [abs_signedQuanta, Nat.cast_lt, quanta_strictMono.lt_iff_lt] at hlt
  rw [isFinite_iff, units_eq, hnearest.eq_of_signedQuanta hlt.le]
  exact ⟨hlt, rfl⟩

/-- A difference of two finite doubles that is a double is exact. -/
theorem subNearest_exact (hx : x.isFinite = true) (hy : y.isFinite = true)
    (h : Representable (x.units - y.units)) (hlt : |x.units - y.units| < 2 ^ 54 * halfStep) :
    (subNearest x y).isFinite = true ∧ (subNearest x y).units = x.units - y.units := by
  rw [sub_eq_add_neg, ← units_neg] at h hlt ⊢
  exact addNearest_exact hx ((kind_neg y).2.2.1.trans hy) h hlt

/-- The residual of a finite sum is the sign of its error when the sum's difference from the first
addend does not overflow. -/
theorem compares_sumResidual (hx : x.isFinite = true) (hy : y.isFinite = true)
    (hsum : (addNearest x y).isFinite = true)
    (hfromY : (subNearest (addNearest x y) x).isFinite = true) :
    (sumResidual x y (addNearest x y)).Compares (x.units + y.units) (addNearest x y).units := by
  have hnearest := nearest_addNearest hx hy
  have hnearest' := nearest_addNearest hsum ((kind_neg x).2.2.1.trans hx)
  change Nearest _ (subNearest _ x).order at hnearest'
  rw [units_neg, ← sub_eq_add_neg] at hnearest'
  have hs := hnearest.roundsTo (isFinite_iff.mp hsum)
  have ht := hnearest'.roundsTo (isFinite_iff.mp hfromY)
  have herror := hnearest.abs_sub_le_halfStep (isFinite_iff.mp hsum)
  have herror' := hnearest'.abs_sub_le_halfStep (isFinite_iff.mp hfromY)
  rw [← units_eq] at hs ht herror herror'
  have ha : Representable x.units := x.units_eq ▸ representable_signedQuanta _
  have hb : Representable y.units := y.units_eq ▸ representable_signedQuanta _
  have hle := abs_units_le hx
  have hstep := halfStep_pos
  unfold sumResidual
  dsimp only
  generalize addNearest x y = sum at *
  generalize subNearest sum x = fromY at *
  obtain ⟨hfromX, hrestX, hrestY, hresidual⟩ := twoSum_exact ha hb hs ht
  -- Two errors of half a step are all that a later step can add to the first addend.
  obtain ⟨hfiniteX, hunitsX⟩ := subNearest_exact hsum hfromY hfromX (by grind)
  obtain ⟨hfiniteX', hunitsX'⟩ := subNearest_exact hx hfiniteX (by rwa [hunitsX])
    (by rw [hunitsX]; grind)
  obtain ⟨hfiniteY', hunitsY'⟩ := subNearest_exact hy hfromY hrestY (by grind)
  have hunits : (subNearest x (subNearest sum fromY)).units + (subNearest y fromY).units =
      x.units + y.units - sum.units := by
    rw [hunitsX', hunitsX, hunitsY']
    ring
  obtain ⟨hfinite, heq⟩ := addNearest_exact hfiniteX' hfiniteY' (by rwa [hunits])
    (by rw [hunits]; grind)
  have hsign := signedQuanta_strictMono.compares.mpr (compares_sign (kind_of_isFinite hfinite).1)
  rw [← units_eq, heq, hunits, signedQuanta_zero] at hsign
  exact compares_sub_zero.mp hsign

/-! ### Where the difference overflows -/

/-- Whether the difference of a rounded sum from its first addend overflows: the second addend is
the largest double of its sign, and the first one takes the sum halfway between two doubles. -/
def DifferenceOverflows (x y : Binary64) : Prop :=
  ∃ n : ℕ, n < 2 ^ 51 - 1 ∧
    (x.value = (-(4 * n + 3) : ℤ) * halfSpacing ∧ y.value = (2 ^ 54 - 2 : ℤ) * halfSpacing ∨
      x.value = (4 * n + 3 : ℤ) * halfSpacing ∧ y.value = (-(2 ^ 54 - 2) : ℤ) * halfSpacing)

/-- A value in half steps. -/
theorem value_eq_iff {c : ℤ} : x.value = c * halfSpacing ↔ x.units = c * halfStep := by
  rw [value, div_eq_iff one_cast_pos.ne', mul_assoc, ← halfStep_cast]
  exact_mod_cast Iff.rfl

/-- The situation in which the difference overflows, in half steps. -/
theorem differenceOverflows_iff : DifferenceOverflows x y ↔
    ∃ n : ℕ, n < 2 ^ 51 - 1 ∧
      (x.units = -(4 * n + 3) * halfStep ∧ y.units = (2 ^ 54 - 2) * halfStep ∨
        x.units = (4 * n + 3) * halfStep ∧ y.units = -(2 ^ 54 - 2) * halfStep) := by
  simp only [DifferenceOverflows, value_eq_iff]

/-- A difference that overflows above belongs to a sum of the largest double that is rounded up from
a tie on the largest scale. -/
theorem exists_of_le_sub {a b k : ℤ} (h : Nearest (a + b : ℤ) k)
    (hk : k.natAbs < infinityMagnitude) (ha : |a| ≤ (2 ^ 54 - 2) * halfStep)
    (hb : |b| ≤ (2 ^ 54 - 2) * halfStep) (hle : (2 ^ 54 - 1) * halfStep ≤ signedQuanta k - a) :
    ∃ n : ℕ, n < 2 ^ 51 - 1 ∧ a = -(4 * n + 3) * halfStep ∧ b = (2 ^ 54 - 2) * halfStep := by
  have hpos := halfStep_pos
  have herror := h.abs_sub_le_halfStep hk
  rw [abs_le] at ha hb herror
  -- All bounds are met: the second addend is the largest, and so is the error.
  have hy : b = (2 ^ 54 - 2) * halfStep := by linarith
  have hs : signedQuanta k = a + (2 ^ 54 - 1) * halfStep := by linarith
  have hkpos : 0 < k := by
    rw [← signedQuanta_strictMono.lt_iff_lt, signedQuanta_zero]
    linarith
  obtain ⟨hlower, htie⟩ := h.lower (by omega)
  have hlower : signedQuanta (k - 1) + signedQuanta k ≤ 2 * (a + b) := by exact_mod_cast hlower
  have hstep := signedQuanta_succ_sub_le (k := k - 1) (by omega) (by omega)
  rw [sub_add_cancel] at hstep
  have heven : Even k := htie (by exact_mod_cast (by linarith : _ + _ = 2 * (a + b)))
  obtain ⟨r, hr, hlow, hprevious⟩ := exists_largest_scale (k := k - 1) (by omega) (by omega)
    (by rw [sub_add_cancel]; linarith)
  have hbinade : binade = 2 ^ 52 := by decide
  have hlimit : infinityMagnitude = 2047 * 2 ^ 52 := by decide
  obtain ⟨i, rfl⟩ := heven
  obtain ⟨j, rfl⟩ : ∃ j, r = 2 * j + 1 := ⟨r / 2, by omega⟩
  refine ⟨2 ^ 52 - 2 - j, by omega, ?_, hy⟩
  have hn : ((2 ^ 52 - 2 - j : ℕ) : ℤ) = 2 ^ 52 - 2 - j := by omega
  rw [hn]
  push_cast at hprevious
  linarith

/-- From such a tie the sum is rounded up, and the difference from the first addend overflows. -/
theorem sub_eq_of_tie {n : ℕ} {k : ℤ} (hn : n < 2 ^ 51 - 1)
    (h : Nearest (-(4 * n + 3) * halfStep + (2 ^ 54 - 2) * halfStep : ℤ) k) :
    k.natAbs < infinityMagnitude ∧
      signedQuanta k - -(4 * n + 3) * halfStep = (2 ^ 54 - 1) * halfStep := by
  have hbinade : binade = 2 ^ 52 := by decide
  have hlimit : infinityMagnitude = 2047 * 2 ^ 52 := by decide
  obtain ⟨r, hr⟩ : ∃ r, r + (2 * n + 2) = 2 ^ 53 := ⟨2 ^ 53 - (2 * n + 2), by omega⟩
  have hself := signedQuanta_largest_scale (r := r) (by omega) (by omega)
  have hprevious := signedQuanta_largest_scale (r := r - 1) (by omega) (by omega)
  have hpred : ((2045 * binade + (r - 1) : ℕ) : ℤ) = (2045 * binade + r : ℕ) - 1 := by omega
  have hcast : ((r - 1 : ℕ) : ℤ) = r - 1 := by omega
  have hr' : (r : ℤ) = 2 ^ 53 - (2 * n + 2) := by omega
  rw [hpred, hcast] at hprevious
  have heven : Even ((2045 * binade + r : ℕ) : ℤ) := ⟨2045 * 2 ^ 51 + (2 ^ 52 - (n + 1)), by omega⟩
  obtain rfl := h.eq_of_middle (by omega) heven (by rw [hself, hprevious, hr']; ring)
  refine ⟨by omega, ?_⟩
  rw [hself, hr']
  ring

/-- In this situation, and in no other one, the sum is finite and its difference from the first
addend overflows. -/
theorem differenceOverflows_iff_le (hx : x.isFinite = true) (hy : y.isFinite = true) :
    DifferenceOverflows x y ↔ (addNearest x y).isFinite = true ∧
      (2 ^ 54 - 1) * halfStep ≤ |(addNearest x y).units - x.units| := by
  have hnearest := nearest_addNearest hx hy
  have hmirror := hnearest.neg
  rw [← Int.cast_neg, neg_add] at hmirror
  rw [differenceOverflows_iff, isFinite_iff, units_eq (addNearest x y)]
  generalize (addNearest x y).order = k at *
  constructor
  · rintro ⟨n, hn, ⟨ha, hb⟩ | ⟨ha, hb⟩⟩
    · rw [ha, hb] at hnearest
      obtain ⟨hfinite, heq⟩ := sub_eq_of_tie hn hnearest
      rw [ha, heq]
      exact ⟨hfinite, le_abs_self _⟩
    · rw [ha, hb, ← neg_mul, ← neg_mul, InvolutiveNeg.neg_neg] at hmirror
      obtain ⟨hfinite, heq⟩ := sub_eq_of_tie hn hmirror
      rw [Int.natAbs_neg] at hfinite
      rw [signedQuanta_neg] at heq
      exact ⟨hfinite, le_abs.mpr (.inr (by linarith))⟩
  · rintro ⟨hfinite, hle⟩
    have ha := abs_units_le hx
    have hb := abs_units_le hy
    rcases le_abs.mp hle with hle | hle
    · obtain ⟨n, hn, ha, hb⟩ := exists_of_le_sub hnearest hfinite ha hb hle
      exact ⟨n, hn, .inl ⟨ha, hb⟩⟩
    · rw [← abs_neg] at ha hb
      rw [← Int.natAbs_neg] at hfinite
      obtain ⟨n, hn, ha, hb⟩ := exists_of_le_sub hmirror hfinite ha hb
        (by rw [signedQuanta_neg]; linarith)
      exact ⟨n, hn, .inr ⟨by linarith, by linarith⟩⟩

/-- The difference of a finite sum from its first addend is finite in all other situations. -/
theorem isFinite_difference_iff (hx : x.isFinite = true) (hy : y.isFinite = true)
    (hsum : (addNearest x y).isFinite = true) :
    (subNearest (addNearest x y) x).isFinite = true ↔ ¬DifferenceOverflows x y := by
  rw [isFinite_subNearest_iff hsum hx, differenceOverflows_iff_le hx hy, hsum, ← not_le]
  exact not_congr ⟨fun hle => ⟨rfl, hle⟩, And.right⟩

/-- The sum of a finite double and an infinity. -/
theorem addNearest_of_isInfinite (hx : x.isFinite = true) (hy : y.isInfinite = true) :
    addNearest x y = y := by
  obtain ⟨hnan, hinfinite⟩ := kind_of_isFinite hx
  have hnan' : y.isNaN = false := isNaN_eq_false_iff.mpr (isInfinite_iff.mp hy).le
  simp only [addNearest, operandNaN, hnan, hnan', hinfinite, hy, Bool.false_eq_true, if_false,
    if_true]

/-- The sum of an infinity and its opposite. -/
theorem addNearest_neg (hx : x.isInfinite = true) : addNearest x x.neg = defaultNaN := by
  have hnan : x.isNaN = false := isNaN_eq_false_iff.mpr (isInfinite_iff.mp hx).le
  have hkind := kind_neg x
  have hsign : (x.isNegative != x.neg.isNegative) = true := by
    rw [isNegative_neg]
    cases x.isNegative <;> rfl
  simp only [addNearest, operandNaN, hkind.1, hkind.2.1, hnan, hx, hsign, Bool.false_eq_true,
    if_false, if_true, Bool.and_self]

/-- The residual is lost when the difference overflows: the later steps take its infinity from both
addends, and the opposite infinities have no sum. -/
theorem DifferenceOverflows.sumResidual_eq (h : DifferenceOverflows x y) (hx : x.isFinite = true)
    (hy : y.isFinite = true) : sumResidual x y (addNearest x y) = .eq := by
  have hsum := ((differenceOverflows_iff_le hx hy).mp h).1
  have hfromY : (subNearest (addNearest x y) x).isInfinite = true := by
    have hle := (nearest_addNearest hsum ((kind_neg x).2.2.1.trans hx)).le
    have hfinite := mt (isFinite_difference_iff hx hy hsum).mp (not_not_intro h)
    rw [isFinite_iff] at hfinite
    exact isInfinite_iff.mpr (le_antisymm hle (not_lt.mp hfinite))
  unfold sumResidual
  dsimp only
  generalize subNearest (addNearest x y) x = fromY at *
  have hneg : fromY.neg.isInfinite = true := (kind_neg fromY).2.1.trans hfromY
  rw [subNearest, subNearest, subNearest, addNearest_of_isInfinite hsum hneg, neg_neg,
    addNearest_of_isInfinite hx hfromY, addNearest_of_isInfinite hy hneg, addNearest_neg hfromY]
  decide

end Sum

end RandomMachine.Binary64
