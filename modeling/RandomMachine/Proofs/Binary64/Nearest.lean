import RandomMachine.Proofs.Binary64.Magnitude
import Mathlib.Analysis.Real.Sqrt
import Mathlib.Tactic.FieldSimp

/-!
# Correctness of rounding to nearest

The magnitudes that ratios and roots are rounded to are nearest to them, with ties to the even
magnitude, and results beyond the middle of the largest double and the next power of two become
infinite. The root needs no rule for ties: no double has a root halfway between two magnitudes.
-/

namespace RandomMachine.Binary64

/-! ### Nearest magnitudes -/

/-- Whether a magnitude, of any size, is nearest to a value in quanta: the value lies between the
middles of the magnitude and its neighbours, and on one of them only if the magnitude is even. -/
structure NearestMagnitude (v : ℝ) (m : ℕ) : Prop where
  lower : ∀ k, m = k + 1 →
    (quanta k + quanta m : ℝ) ≤ 2 * v ∧ ((quanta k + quanta m : ℝ) = 2 * v → m % 2 = 0)
  upper : 2 * v ≤ (quanta m + quanta (m + 1) : ℝ) ∧
    (2 * v = (quanta m + quanta (m + 1) : ℝ) → m % 2 = 0)

/-- Whether a signed magnitude is nearest to a value in quanta, when all magnitudes beyond the
largest double are infinite. -/
structure Nearest (v : ℝ) (k : ℤ) : Prop where
  le : k.natAbs ≤ infinityMagnitude
  lower : -(infinityMagnitude : ℤ) < k →
    (signedQuanta (k - 1) + signedQuanta k : ℝ) ≤ 2 * v ∧
      ((signedQuanta (k - 1) + signedQuanta k : ℝ) = 2 * v → Even k)
  upper : k < infinityMagnitude →
    2 * v ≤ (signedQuanta k + signedQuanta (k + 1) : ℝ) ∧
      (2 * v = (signedQuanta k + signedQuanta (k + 1) : ℝ) → Even k)

/-- A value that is rounded on a scale to a significand is rounded to their magnitude. -/
theorem nearestMagnitude_scale {v : ℝ} {scale r : ℕ} (hlow : scale = 0 ∨ binade ≤ r)
    (hhigh : r ≤ 2 * binade) (hge : scale = 0 ∨ (binade * 2 ^ scale : ℝ) ≤ v)
    (hlt : v < 2 * binade * 2 ^ scale)
    (hlower : ((2 * r - 1) * 2 ^ scale : ℝ) ≤ 2 * v ∧
      (((2 * r - 1) * 2 ^ scale : ℝ) = 2 * v → r % 2 = 0))
    (hupper : 2 * v ≤ ((2 * r + 1) * 2 ^ scale : ℝ) ∧
      (2 * v = ((2 * r + 1) * 2 ^ scale : ℝ) → r % 2 = 0)) :
    NearestMagnitude v (scale * binade + r) := by
  have hparity : (scale * binade + r) % 2 = r % 2 := by
    rw [show scale * binade = 2 * (scale * 2 ^ 51) by rw [binade_eq]; ring]
    omega
  have hvalue : (quanta (scale * binade + r) : ℝ) = r * 2 ^ scale := by
    rw [quanta_scale hlow hhigh]
    push_cast
    ring
  refine ⟨fun k hk => ?_, ?_⟩
  · rw [hparity, hvalue]
    by_cases hfirst : r = 0 ∨ (scale ≠ 0 ∧ r = binade)
    · -- The magnitude below has a smaller scale, and the value is not below this one.
      rcases hfirst with rfl | ⟨hscale, rfl⟩
      · rcases hlow with rfl | hlow
        · simp at hk
        · exact absurd hlow (by decide)
      · have hbelow : (quanta k : ℝ) < binade * 2 ^ scale := by
          rw [← hvalue, hk, Nat.cast_lt]
          exact quanta_strictMono (Nat.lt_succ_self k)
        have := hge.resolve_left hscale
        constructor
        · linarith
        · intro h
          linarith
    · have hk' : k = scale * binade + (r - 1) := by omega
      have hbelow : (quanta k : ℝ) = (r - 1) * 2 ^ scale := by
        rw [hk', quanta_scale (by omega) (by omega)]
        push_cast [Nat.cast_sub (by omega : 1 ≤ r)]
        ring
      rw [hbelow, show ((r - 1) * 2 ^ scale + r * 2 ^ scale : ℝ) = (2 * r - 1) * 2 ^ scale by ring]
      exact hlower
  · rw [hparity, hvalue]
    rcases hhigh.lt_or_eq with hr | rfl
    · rw [quanta_succ hlow hr]
      push_cast
      rw [show (r * 2 ^ scale + (r + 1) * 2 ^ scale : ℝ) = (2 * r + 1) * 2 ^ scale by ring]
      exact hupper
    · -- The value is below this magnitude.
      have habove : ((2 * binade : ℕ) * 2 ^ scale : ℝ) <
          quanta (scale * binade + 2 * binade + 1) := by
        rw [← hvalue, Nat.cast_lt]
        exact quanta_strictMono (Nat.lt_succ_self _)
      push_cast at habove ⊢
      constructor
      · linarith
      · intro h
        linarith

/-- A magnitude beyond the infinities is replaced by theirs. -/
theorem NearestMagnitude.nearest {v : ℝ} {m : ℕ} (h : NearestMagnitude v m) (hv : 0 ≤ v) :
    Nearest v (min infinityMagnitude m : ℕ) := by
  rcases le_or_gt m infinityMagnitude with hle | hlt
  · have heven (heven : m % 2 = 0) : Even (m : ℤ) :=
      (Int.even_coe_nat m).mpr (Nat.even_iff.mpr heven)
    rw [Nat.min_eq_right hle]
    refine ⟨hle, fun _ => ?_, fun _ => ?_⟩
    · cases m with
      | zero =>
        have hbelow : signedQuanta ((0 : ℕ) - 1) = -1 := by decide
        rw [hbelow, signedQuanta_natCast, quanta_zero]
        push_cast
        exact ⟨by linarith, fun heq => by linarith⟩
      | succ k =>
        obtain ⟨hlower, htie⟩ := h.lower k rfl
        rw [show ((k + 1 : ℕ) : ℤ) - 1 = k by push_cast; ring, signedQuanta_natCast,
          signedQuanta_natCast]
        exact ⟨hlower, fun heq => heven (htie heq)⟩
    · rw [← Nat.cast_succ, signedQuanta_natCast, signedQuanta_natCast]
      exact ⟨h.upper.1, fun heq => heven (h.upper.2 heq)⟩
  · rw [Nat.min_eq_left hlt.le]
    refine ⟨le_rfl, fun _ => ?_, fun hinfinite => absurd hinfinite (lt_irrefl _)⟩
    -- The middle below the infinities is not above any middle beyond them.
    obtain ⟨k, rfl⟩ := Nat.exists_eq_add_of_lt hlt
    have hlower := (h.lower (infinityMagnitude + k) rfl).1
    have hpos : 0 < infinityMagnitude := by decide
    have hbelow : (quanta (infinityMagnitude - 1) : ℝ) < quanta (infinityMagnitude + k) :=
      Nat.cast_lt.mpr (quanta_strictMono (by omega))
    have hinfinity : (quanta infinityMagnitude : ℝ) < quanta (infinityMagnitude + k + 1) :=
      Nat.cast_lt.mpr (quanta_strictMono (by omega))
    rw [show (infinityMagnitude : ℤ) - 1 = (infinityMagnitude - 1 : ℕ) by decide,
      signedQuanta_natCast, signedQuanta_natCast]
    push_cast
    exact ⟨by linarith, fun heq => by linarith⟩

namespace Nearest

variable {v : ℝ} {k : ℤ}

/-- Rounding to nearest commutes with the sign. -/
theorem neg (h : Nearest v k) : Nearest (-v) (-k) := by
  refine ⟨by rw [Int.natAbs_neg]; exact h.le, fun hlt => ?_, fun hlt => ?_⟩
  · obtain ⟨hupper, htie⟩ := h.upper (by linarith)
    rw [show -k - 1 = -(k + 1) by ring, signedQuanta_neg, signedQuanta_neg]
    push_cast
    exact ⟨by linarith, fun heq => (htie (by linarith)).neg⟩
  · obtain ⟨hlower, htie⟩ := h.lower (by linarith)
    rw [show -k + 1 = -(k - 1) by ring, signedQuanta_neg, signedQuanta_neg]
    push_cast
    exact ⟨by linarith, fun heq => (htie (by linarith)).neg⟩

/-- No smaller signed magnitude is closer than a finite nearest one, and one is as close only if
the nearest one is even. -/
theorem abs_sub_le_of_lt (h : Nearest v k) (hk : k.natAbs < infinityMagnitude) {i : ℤ}
    (hik : i < k) : |v - signedQuanta k| ≤ |v - signedQuanta i| ∧
      (|v - signedQuanta k| = |v - signedQuanta i| → Even k) := by
  obtain ⟨hlower, hlowerTie⟩ := h.lower (by omega)
  obtain ⟨hupper, -⟩ := h.upper (by omega)
  have hle : (signedQuanta i : ℝ) ≤ signedQuanta (k - 1) :=
    Int.cast_le.mpr (signedQuanta_strictMono.monotone (by omega))
  have hlt : (signedQuanta i : ℝ) < signedQuanta k :=
    Int.cast_lt.mpr (signedQuanta_strictMono hik)
  rw [abs_of_nonneg (by linarith : (0 : ℝ) ≤ v - signedQuanta i)]
  refine ⟨abs_le.mpr ⟨by linarith, by linarith⟩, fun heq => hlowerTie ?_⟩
  rcases abs_choice (v - signedQuanta k) with habs | habs
  · rw [habs] at heq
    linarith
  · rw [habs] at heq
    linarith

/-- No signed magnitude of any size is closer than a finite nearest one, and another one is as
close only if the nearest one is even. -/
theorem abs_sub_le (h : Nearest v k) (hk : k.natAbs < infinityMagnitude) (i : ℤ) :
    |v - signedQuanta k| ≤ |v - signedQuanta i| ∧
      (i ≠ k → |v - signedQuanta k| = |v - signedQuanta i| → Even k) := by
  rcases lt_trichotomy i k with hik | rfl | hki
  · have := h.abs_sub_le_of_lt hk hik
    exact ⟨this.1, fun _ => this.2⟩
  · exact ⟨le_rfl, fun hne => absurd rfl hne⟩
  · have hmirror (j : ℤ) : |-v - signedQuanta (-j)| = |v - signedQuanta j| := by
      rw [signedQuanta_neg, Int.cast_neg, sub_neg_eq_add, neg_add_eq_sub, abs_sub_comm]
    have := h.neg.abs_sub_le_of_lt (by rwa [Int.natAbs_neg]) (neg_lt_neg hki)
    rw [hmirror, hmirror, even_neg] at this
    exact ⟨this.1, fun _ => this.2⟩

/-- A finite nearest magnitude of an integer is what rounding to 53 bits gives. -/
theorem roundsTo {n : ℤ} (h : Nearest n k) (hk : k.natAbs < infinityMagnitude) :
    RoundsTo n (signedQuanta k) := by
  refine ⟨representable_signedQuanta k, fun f hf => ?_⟩
  obtain ⟨i, rfl⟩ := exists_signedQuanta hf
  have := (h.abs_sub_le hk i).1
  exact_mod_cast this

end Nearest

/-! ### Ratios -/

/-- A quotient of two naturals is rounded to a nearest integer, and from a tie to the even one. -/
theorem roundHalfEven_spec (num : ℕ) {den : ℕ} (hden : 0 < den) :
    (2 * roundHalfEven num den * den ≤ 2 * num + den ∧
      (2 * roundHalfEven num den * den = 2 * num + den → roundHalfEven num den % 2 = 0)) ∧
    (2 * num ≤ 2 * roundHalfEven num den * den + den ∧
      (2 * num = 2 * roundHalfEven num den * den + den → roundHalfEven num den % 2 = 0)) := by
  have hdiv := Nat.div_add_mod num den
  have hmod := Nat.mod_lt num hden
  have hmul (q : ℕ) : 2 * q * den = 2 * (den * q) := by ring
  have hnext (q : ℕ) : den * (q + 1) = den * q + den := by ring
  unfold roundHalfEven
  dsimp only
  generalize num / den = q at *
  generalize num % den = rest at *
  split
  · rw [hmul]
    omega
  · split
    · rw [hmul, hnext]
      omega
    · rcases Nat.mod_two_eq_zero_or_one q with hq | hq
      · rw [hq, Nat.add_zero, hmul]
        omega
      · rw [hq, hmul, hnext]
        omega

/-- The magnitude of a ratio is nearest to it. -/
theorem nearest_nearestRatio (num : ℕ) {den : ℕ} (hden : 0 < den) :
    Nearest (num / den : ℝ) (nearestRatio num den : ℕ) := by
  unfold nearestRatio
  dsimp only
  set scale := (num / den).log2 - 52 with hscale
  rw [Nat.shiftLeft_eq]
  have hpos : 0 < den * 2 ^ scale := by positivity
  -- On its scale the ratio has 53 bits in front of the point, and fewer on the lowest scale only.
  have hlt : num < 2 ^ 53 * (den * 2 ^ scale) := by
    have hlog := Nat.lt_log2_self (n := num / den)
    have hpow : 2 ^ ((num / den).log2 + 1) ≤ 2 ^ (53 + scale) :=
      Nat.pow_le_pow_right (by decide) (by omega)
    have := (Nat.div_lt_iff_lt_mul hden).mp (hlog.trans_le hpow)
    calc num < 2 ^ (53 + scale) * den := this
      _ = 2 ^ 53 * (den * 2 ^ scale) := by ring
  have hge : scale = 0 ∨ binade * (den * 2 ^ scale) ≤ num := by
    by_cases hzero : scale = 0
    · exact .inl hzero
    · right
      have hlog := Nat.log2_self_le (n := num / den) (by
        rintro heq
        rw [heq] at hscale
        exact hzero (by rw [hscale]; decide))
      have := (Nat.le_div_iff_mul_le hden).mp hlog
      rw [show (num / den).log2 = 52 + scale by omega] at this
      rw [binade_eq]
      calc 2 ^ 52 * (den * 2 ^ scale) = 2 ^ (52 + scale) * den := by ring
        _ ≤ num := this
  obtain ⟨⟨hlower, hlowerTie⟩, hupper, hupperTie⟩ := roundHalfEven_spec num hpos
  generalize roundHalfEven num (den * 2 ^ scale) = r at *
  have hlow : scale = 0 ∨ binade ≤ r := by
    refine hge.imp_right fun hge => ?_
    by_contra hr
    have := Nat.mul_le_mul_right (den * 2 ^ scale) (not_le.mp hr)
    nlinarith
  have hhigh : r ≤ 2 * binade := by
    by_contra hr
    have := Nat.mul_le_mul_right (den * 2 ^ scale) (not_le.mp hr)
    rw [binade_eq] at this
    nlinarith
  have hden' : (0 : ℝ) < den := Nat.cast_pos.mpr hden
  have hscaled (c : ℝ) : c * 2 ^ scale ≤ 2 * (num / den : ℝ) ↔ c * (den * 2 ^ scale) ≤ 2 * num := by
    rw [← mul_div_assoc, le_div_iff₀ hden', mul_assoc, mul_comm (2 ^ scale : ℝ)]
  have hscaled' (c : ℝ) :
      2 * (num / den : ℝ) ≤ c * 2 ^ scale ↔ 2 * num ≤ c * (den * 2 ^ scale) := by
    rw [← mul_div_assoc, div_le_iff₀ hden', mul_assoc, mul_comm (2 ^ scale : ℝ)]
  have hcast {a b : ℕ} (h : a ≤ b) : (a : ℝ) ≤ b := Nat.cast_le.mpr h
  apply NearestMagnitude.nearest _ (by positivity)
  apply nearestMagnitude_scale hlow hhigh
  · refine hge.imp_right fun hge => ?_
    have := hcast hge
    push_cast at this
    have := (hscaled (2 * binade)).mpr (by linarith)
    linarith
  · rw [div_lt_iff₀ hden', binade_eq]
    have : (num : ℝ) < (2 ^ 53 * (den * 2 ^ scale) : ℕ) := Nat.cast_lt.mpr hlt
    push_cast at this ⊢
    linarith
  · have := hcast hlower
    push_cast at this
    refine ⟨(hscaled _).mpr (by linarith), fun heq => hlowerTie ?_⟩
    have htie := le_antisymm ((hscaled _).mp heq.le) ((hscaled' _).mp heq.ge)
    have : (2 * r * (den * 2 ^ scale) : ℝ) = 2 * num + den * 2 ^ scale := by linarith
    exact_mod_cast this
  · have := hcast hupper
    push_cast at this
    refine ⟨(hscaled' _).mpr (by linarith), fun heq => hupperTie ?_⟩
    have htie := le_antisymm ((hscaled' _).mp heq.le) ((hscaled _).mp heq.ge)
    have : (2 * num : ℝ) = 2 * r * (den * 2 ^ scale) + den * 2 ^ scale := by linarith
    exact_mod_cast this

/-! ### Roots -/

/-- Setting the bits of a root from some bit down keeps it at most the root, and gets it as close
as the bits that are left to set. -/
theorem floorSqrtFrom_spec (n : ℕ) {bit root : ℕ} (hle : root * root ≤ n)
    (hlt : n < (root + 2 ^ bit) * (root + 2 ^ bit)) : floorSqrtFrom n bit root = n.sqrt := by
  induction bit generalizing root with
  | zero => exact Nat.eq_sqrt.mpr ⟨hle, hlt⟩
  | succ bit ih =>
    rw [floorSqrtFrom, Nat.one_shiftLeft]
    rw [pow_succ, mul_two, ← add_assoc] at hlt
    split
    · next h => exact ih h hlt
    · next h => exact ih hle (not_le.mp h)

/-- The largest natural whose square is at most `n`. -/
theorem floorSqrt_eq (n : ℕ) : floorSqrt n = n.sqrt := by
  apply floorSqrtFrom_spec n (Nat.zero_le n)
  have hlog := Nat.lt_log2_self (n := n)
  rw [Nat.zero_add, ← pow_add]
  exact hlog.trans_le (Nat.pow_le_pow_right (by decide) (by omega))

/-- The magnitude of a root is nearest to it, if the root does not lie halfway between two
magnitudes. -/
theorem nearest_nearestRoot {n : ℕ} (hn : 2 ^ 104 ≤ n)
    (htie : ∀ scale r, 2 ^ 52 ≤ r → ((2 * r + 1) * 2 ^ scale) ^ 2 ≠ 4 * n) :
    Nearest √(n : ℝ) (nearestRoot n : ℕ) := by
  unfold nearestRoot
  dsimp only
  have hlog : 104 ≤ n.log2 := (Nat.le_log2 (by omega)).mpr hn
  set scale := n.log2 / 2 - 52 with hscale
  rw [floorSqrt_eq, Nat.shiftRight_eq_div_pow, Nat.shiftLeft_eq]
  set root := (n / 2 ^ (2 * scale)).sqrt with hroot
  have hsquare (a : ℕ) : a * a * 2 ^ (2 * scale) = (a * 2 ^ scale) ^ 2 := by ring
  have hpos : 0 < 2 ^ (2 * scale) := by positivity
  -- On its scale the root has 53 bits in front of the point.
  have hlow : 2 ^ 52 ≤ root := by
    rw [hroot, Nat.le_sqrt, Nat.le_div_iff_mul_le hpos, ← pow_add, ← pow_add]
    exact (Nat.pow_le_pow_right (by decide) (by omega)).trans (Nat.log2_self_le (by omega))
  have hhigh : root < 2 ^ 53 := by
    rw [hroot, Nat.sqrt_lt, Nat.div_lt_iff_lt_mul hpos, ← pow_add, ← pow_add]
    exact Nat.lt_log2_self.trans_le (Nat.pow_le_pow_right (by decide) (by omega))
  have hfloor : (root * 2 ^ scale) ^ 2 ≤ n := by
    rw [← hsquare]
    exact (Nat.le_div_iff_mul_le hpos).mp (Nat.sqrt_le _)
  have hceil : n < ((root + 1) * 2 ^ scale) ^ 2 := by
    rw [← hsquare]
    exact (Nat.div_lt_iff_lt_mul hpos).mp (Nat.lt_succ_sqrt _)
  have hmiddle : ((2 * root + 1) * 2 ^ scale) ^ 2 ≠ 4 * n := htie scale root hlow
  generalize root = a at *
  have hv : √(n : ℝ) ^ 2 = n := Real.sq_sqrt (Nat.cast_nonneg n)
  have hv0 : 0 ≤ √(n : ℝ) := Real.sqrt_nonneg _
  generalize √(n : ℝ) = v at *
  have hunit : (0 : ℝ) < 2 ^ scale := by positivity
  have hcompare (b : ℕ) : (b : ℝ) ≤ v ↔ b ^ 2 ≤ n := by
    rw [← sq_le_sq₀ (Nat.cast_nonneg b) hv0, hv]
    exact_mod_cast Iff.rfl
  have hbelow : (a * 2 ^ scale : ℝ) ≤ v := by
    have := (hcompare _).mpr hfloor
    push_cast at this
    exact this
  have habove : v < (a + 1) * 2 ^ scale := by
    have := not_le.mp (mt (hcompare _).mp (not_le.mpr hceil))
    push_cast at this
    exact this
  have hlead : (2 ^ 52 : ℝ) ≤ a := by exact_mod_cast hlow
  have htop : (a + 1 : ℝ) ≤ 2 ^ 53 := by exact_mod_cast hhigh
  have hunit : (0 : ℝ) < 2 ^ scale := by positivity
  have hdouble : (2 * v) ^ 2 = (4 * n : ℕ) := by
    rw [mul_pow, hv]
    push_cast
    ring
  have hge : (binade * 2 ^ scale : ℝ) ≤ v := by
    rw [binade_eq]
    push_cast
    nlinarith
  have hlt : v < 2 * binade * 2 ^ scale := by
    rw [binade_eq]
    push_cast
    nlinarith
  have hlead : binade ≤ a := by rwa [binade_eq]
  have htop : a + 1 ≤ 2 * binade := by
    rw [binade_eq]
    omega
  apply NearestMagnitude.nearest _ hv0
  rw [← sq]
  split
  · -- The root lies in the upper half of its step.
    next h =>
    have hhalf : ((2 * a + 1) * 2 ^ scale : ℝ) < 2 * v := by
      rw [← sq_lt_sq₀ (by positivity) (by linarith), hdouble]
      exact_mod_cast h
    apply nearestMagnitude_scale (.inr (Nat.le_succ_of_le hlead)) htop (.inr hge) hlt
    · push_cast
      exact ⟨by linarith, fun heq => by linarith⟩
    · push_cast
      exact ⟨by linarith, fun heq => by linarith⟩
  · next h =>
    have hhalf : 2 * v < ((2 * a + 1) * 2 ^ scale : ℝ) := by
      rw [← sq_lt_sq₀ (by linarith) (by positivity), hdouble]
      exact_mod_cast lt_of_le_of_ne (not_lt.mp h) hmiddle.symm
    apply nearestMagnitude_scale (.inr hlead) (Nat.le_of_succ_le htop) (.inr hge) hlt
    · exact ⟨by linarith, fun heq => by linarith⟩
    · exact ⟨by linarith, fun heq => by linarith⟩

/-! ### Operations on doubles -/

/-- Quanta in the number one. -/
theorem one_eq : one = 2 ^ 1074 := by
  -- The exponent stays a variable, so that no power is evaluated.
  have hshift (n : ℕ) : 1 <<< n = 2 ^ n := Nat.one_shiftLeft n
  exact hshift _

/-- There are quanta in the number one. -/
theorem one_pos : 0 < one := by
  have hpow (n : ℕ) : 0 < 2 ^ n := Nat.two_pow_pos n
  rw [one_eq]
  exact hpow _

/-- There are quanta in the number one, as a real number. -/
theorem one_cast_pos : (0 : ℝ) < one := Nat.cast_pos.mpr one_pos

/-- The value that the infinities stand for is a whole number. -/
theorem quanta_infinityMagnitude_eq : quanta infinityMagnitude = 2 ^ 1024 * one := by
  rw [quanta_infinityMagnitude, one_eq, ← pow_add]

/-- The value of a double by its sign. -/
theorem units_eq_or (x : Binary64) :
    x.isNegative = true ∧ x.units = -quanta x.magnitude ∨
      x.isNegative = false ∧ x.units = quanta x.magnitude := by
  unfold units
  cases x.isNegative with
  | true => exact .inl ⟨rfl, rfl⟩
  | false => exact .inr ⟨rfl, rfl⟩

/-- A double with the sign of a value and the nearest magnitude is nearest to the value. -/
theorem Nearest.ofMagnitude {v : ℝ} {m : ℕ} (negative : Bool) (h : Nearest |v| m)
    (hsign : if negative then v ≤ 0 else 0 ≤ v) : Nearest v (ofMagnitude negative m).order := by
  have hle : m ≤ infinityMagnitude := by
    have := h.le
    rwa [Int.natAbs_natCast] at this
  rw [order_ofMagnitude negative hle]
  cases negative with
  | true =>
    rw [if_pos rfl] at hsign ⊢
    rw [abs_of_nonpos hsign] at h
    have := h.neg
    rwa [InvolutiveNeg.neg_neg] at this
  | false =>
    rw [if_neg Bool.false_ne_true] at hsign ⊢
    rwa [abs_of_nonneg hsign] at h

/-- The double of an integer number of quanta is nearest to it. -/
theorem nearest_ofUnits (n : ℤ) : Nearest n (ofUnits n).order := by
  have h := nearest_nearestRatio n.natAbs Nat.one_pos
  rw [Nat.cast_one, div_one, Nat.cast_natAbs, Int.cast_abs] at h
  apply h.ofMagnitude
  split
  · next hneg => exact_mod_cast (of_decide_eq_true hneg).le
  · next hneg => exact_mod_cast not_lt.mp (of_decide_eq_false (Bool.eq_false_iff.mpr hneg))

/-- Zero is nearest to zero. -/
theorem nearest_zero : Nearest 0 0 := by
  have hbelow : signedQuanta (0 - 1) = -1 := by decide
  have habove : signedQuanta (0 + 1) = 1 := by decide
  refine ⟨Nat.zero_le _, fun _ => ?_, fun _ => ?_⟩
  · rw [signedQuanta_zero, hbelow]
    norm_num
  · rw [signedQuanta_zero, habove]
    norm_num

/-- The value of a magnitude is the absolute value of the double. -/
theorem abs_units (x : Binary64) : |(x.units : ℝ)| = quanta x.magnitude := by
  rcases x.units_eq_or with ⟨-, hx⟩ | ⟨-, hx⟩
  · rw [hx, Int.cast_neg, abs_neg, Int.cast_natCast, Nat.abs_cast]
  · rw [hx, Int.cast_natCast, Nat.abs_cast]

/-- The signs of two factors give the sign of their product. -/
theorem units_mul_units (x y : Binary64) :
    if x.isNegative != y.isNegative then (x.units * y.units : ℝ) ≤ 0
    else (0 : ℝ) ≤ x.units * y.units := by
  have hxy : (0 : ℝ) ≤ quanta x.magnitude * quanta y.magnitude := by positivity
  rcases x.units_eq_or with ⟨hnx, hux⟩ | ⟨hnx, hux⟩ <;>
    rcases y.units_eq_or with ⟨hny, huy⟩ | ⟨hny, huy⟩ <;>
      rw [hnx, hny, hux, huy] <;> push_cast <;> simp [hxy]

/-- A value has a sign when a positive multiple of it has. -/
theorem sign_of_mul_pos {v w c : ℝ} {negative : Bool} (hc : 0 < c) (hv : v = w * c)
    (hw : if negative then w ≤ 0 else 0 ≤ w) : if negative then v ≤ 0 else 0 ≤ v := by
  rw [hv]
  split
  · next h =>
    rw [if_pos h] at hw
    exact mul_nonpos_of_nonpos_of_nonneg hw hc.le
  · next h =>
    rw [if_neg h] at hw
    exact mul_nonneg hw hc.le

/-- The rounded product is nearest to the product. -/
theorem nearest_mulNearest (x y : Binary64) :
    Nearest (x.units * y.units / one) (mulNearest x y).order := by
  have hone := one_cast_pos
  have h := nearest_nearestRatio (quanta x.magnitude * quanta y.magnitude) one_pos
  push_cast at h
  rw [← abs_units, ← abs_units, ← abs_mul, ← abs_of_pos hone, ← abs_div] at h
  exact h.ofMagnitude _
    (sign_of_mul_pos (inv_pos.mpr hone) (div_eq_mul_inv _ _) (units_mul_units x y))

/-- Only zeros have the value zero. -/
theorem units_eq_zero_iff {x : Binary64} : x.units = 0 ↔ x.isZero = true := by
  have hinj := signedQuanta_strictMono.injective.eq_iff (a := x.order) (b := 0)
  rwa [signedQuanta_zero, ← units_eq, ← isZero_iff] at hinj

/-- A double that is not a zero has a value that is not zero. -/
theorem units_ne_zero {x : Binary64} (h : x.isZero = false) : x.units ≠ 0 :=
  mt units_eq_zero_iff.mp (Bool.eq_false_iff.mp h)

/-- The value of a magnitude that is not zero. -/
theorem quanta_magnitude_pos {x : Binary64} (h : x.isZero = false) : 0 < quanta x.magnitude := by
  have hne := units_ne_zero h
  rcases x.units_eq_or with ⟨-, hx⟩ | ⟨-, hx⟩ <;> omega

/-- The rounded quotient is nearest to the quotient. -/
theorem nearest_divNearest (x : Binary64) {y : Binary64} (hy : y.isZero = false) :
    Nearest (x.units * one / y.units) (divNearest x y).order := by
  have hone := one_cast_pos
  have hunits : (y.units : ℝ) ≠ 0 := Int.cast_ne_zero.mpr (units_ne_zero hy)
  have h := nearest_nearestRatio (quanta x.magnitude * one) (quanta_magnitude_pos hy)
  push_cast at h
  rw [← abs_units, ← abs_units, ← abs_of_pos hone, ← abs_mul, ← abs_div] at h
  refine h.ofMagnitude _ (sign_of_mul_pos (by positivity : 0 < (one : ℝ) / y.units ^ 2) ?_
    (units_mul_units x y))
  field_simp

/-- The rounded sum of a product and a third double is nearest to it. -/
theorem nearest_fusedNearest (x y z : Binary64) :
    Nearest ((x.units * y.units + z.units * one : ℤ) / one) (fusedNearest x y z).order := by
  have hone := one_cast_pos
  unfold fusedNearest
  dsimp only
  generalize x.units * y.units + z.units * one = exact
  split
  · next hzero =>
    rw [hzero, Int.cast_zero, zero_div, order_zero]
    exact nearest_zero
  · have h := nearest_nearestRatio exact.natAbs one_pos
    rw [Nat.cast_natAbs, Int.cast_abs, ← abs_of_pos hone, ← abs_div] at h
    refine h.ofMagnitude _ (sign_of_mul_pos (inv_pos.mpr hone) (div_eq_mul_inv _ _) ?_)
    split
    · next hneg => exact_mod_cast (of_decide_eq_true hneg).le
    · next hneg => exact_mod_cast not_lt.mp (of_decide_eq_false (Bool.eq_false_iff.mpr hneg))

/-- The rounded sum of two finite doubles is nearest to the sum. -/
theorem nearest_addNearest {x y : Binary64} (hx : x.isFinite = true) (hy : y.isFinite = true) :
    Nearest (x.units + y.units : ℤ) (addNearest x y).order := by
  obtain ⟨hnanx, hinfx⟩ := kind_of_isFinite hx
  obtain ⟨hnany, hinfy⟩ := kind_of_isFinite hy
  simp only [addNearest, operandNaN, hnanx, hnany, hinfx, hinfy, Bool.false_eq_true, if_false]
  split
  · next hzero =>
    rw [hzero, Int.cast_zero, order_zero]
    exact nearest_zero
  · exact nearest_ofUnits _

/-- No root of a double lies halfway between two magnitudes: its square would need too many bits. -/
theorem sq_ne_quanta_mul_one {m : ℕ} (hm : 0 < quanta m) (scale : ℕ) {r : ℕ} (hr : 2 ^ 52 ≤ r) :
    ((2 * r + 1) * 2 ^ scale) ^ 2 ≠ 4 * (quanta m * one) := by
  obtain ⟨e, f, rfl, hlow, hhigh⟩ := exists_scale m
  rw [quanta_scale hlow hhigh.le] at hm ⊢
  rw [one_eq]
  generalize 1074 = exponent
  intro heq
  have hodd : Nat.Coprime (2 * r + 1) 2 := by simp
  have hdvd : (2 * r + 1) ^ 2 ∣ f := by
    apply (Nat.Coprime.pow 2 (e + exponent + 2) hodd).dvd_of_dvd_mul_right
    refine ⟨(2 ^ scale) ^ 2, ?_⟩
    rw [← mul_pow, heq]
    ring
  have hle := Nat.le_of_dvd (Nat.pos_of_mul_pos_right hm) hdvd
  rw [binade_eq] at hhigh
  nlinarith

/-- The rounded root is nearest to the root. -/
theorem nearest_sqrtNearest {x : Binary64} (hzero : x.isZero = false) :
    Nearest √(|(x.units : ℝ)| * one) (sqrtNearest x).order := by
  have hpos := quanta_magnitude_pos hzero
  have hlarge : 2 ^ 104 ≤ quanta x.magnitude * one := by
    rw [one_eq]
    have hpow {n : ℕ} (hn : 104 ≤ n) : 2 ^ 104 ≤ quanta x.magnitude * 2 ^ n :=
      (Nat.pow_le_pow_right (by decide) hn).trans (Nat.le_mul_of_pos_left _ hpos)
    exact hpow (by decide)
  have h := nearest_nearestRoot hlarge (sq_ne_quanta_mul_one hpos)
  rw [abs_units]
  push_cast at h
  rw [← abs_of_nonneg (Real.sqrt_nonneg _)] at h
  exact h.ofMagnitude false (Real.sqrt_nonneg _)

end RandomMachine.Binary64
