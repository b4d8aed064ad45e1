import Mathlib.Algebra.Order.Ring.Abs
import Mathlib.Tactic.Linarith
import Mathlib.Tactic.Positivity
import Mathlib.Tactic.Ring

/-!
# Error-free sums

Numbers of 53 significant bits and what rounding to the nearest of them keeps. The error of a
rounded sum is such a number again, and rounded arithmetic finds it: with the sum `s` of `a` and
`b` and the difference of `s` and `a` rounded to nearest, every further step of the two-sum
algorithm is exact. Exponents have no upper limit here, and no lower one is needed for integers.
-/

namespace RandomMachine.Binary64

/-! ### Numbers of 53 bits -/

/-- Whether an integer has 53 significant bits. -/
def Representable (n : ℤ) : Prop := ∃ (f : ℤ) (e : ℕ), |f| < 2 ^ 53 ∧ n = f * 2 ^ e

/-- Whether no number of 53 bits is closer to an integer than another one. -/
structure RoundsTo (n r : ℤ) : Prop where
  representable : Representable r
  le : ∀ f, Representable f → |n - r| ≤ |n - f|

namespace Representable

variable {a b n : ℤ}

/-- Zero has no significant bits. -/
theorem zero : Representable 0 := ⟨0, 0, by norm_num, by norm_num⟩

/-- The opposite number has as many bits. -/
theorem neg (h : Representable n) : Representable (-n) := by
  obtain ⟨f, e, hf, rfl⟩ := h
  exact ⟨-f, e, by rwa [abs_neg], by ring⟩

/-- Twice a number has as many bits. -/
theorem two_mul (h : Representable n) : Representable (2 * n) := by
  obtain ⟨f, e, hf, rfl⟩ := h
  exact ⟨f, e + 1, hf, by ring⟩

/-- The product of a number with a power of two has as many bits. -/
theorem mul_two_pow (h : Representable n) (k : ℕ) : Representable (n * 2 ^ k) := by
  obtain ⟨f, e, hf, rfl⟩ := h
  exact ⟨f, e + k, hf, by ring⟩

/-- The absolute value of a number has as many bits. -/
theorem abs (h : Representable n) : Representable |n| := by
  rcases abs_choice n with hn | hn
  · rwa [hn]
  · rw [hn]
    exact h.neg

/-- A multiple of a power of two that is not too large has few bits. -/
theorem of_dvd {e : ℕ} (hdvd : 2 ^ e ∣ n) (hle : |n| ≤ 2 ^ 53 * 2 ^ e) : Representable n := by
  obtain ⟨g, rfl⟩ := hdvd
  have hpos : (0 : ℤ) < 2 ^ e := by positivity
  rw [abs_mul, abs_of_pos hpos, mul_comm] at hle
  have hg : |g| ≤ 2 ^ 53 := le_of_mul_le_mul_right hle hpos
  rcases hg.lt_or_eq with hlt | heq
  · exact ⟨g, e, hlt, mul_comm _ _⟩
  · -- The one number of 54 bits that is too large for the scale belongs to the next one.
    rcases (abs_eq (by norm_num)).mp heq with rfl | rfl
    · exact ⟨2 ^ 52, e + 1, by norm_num, by ring⟩
    · exact ⟨-2 ^ 52, e + 1, by norm_num, by ring⟩

/-- The leading bit can be the highest one, unless the scale is the lowest. -/
theorem exists_normal (h : Representable n) :
    ∃ (f : ℤ) (e : ℕ), |f| < 2 ^ 53 ∧ n = f * 2 ^ e ∧ (e = 0 ∨ 2 ^ 52 ≤ |f|) := by
  obtain ⟨f, e, hf, rfl⟩ := h
  induction e generalizing f with
  | zero => exact ⟨f, 0, hf, rfl, .inl rfl⟩
  | succ e ih =>
    by_cases hlead : 2 ^ 52 ≤ |f|
    · exact ⟨f, e + 1, hf, rfl, .inr hlead⟩
    · have htwo : |2 * f| < 2 ^ 53 := by
        rw [abs_mul, abs_two]
        linarith
      obtain ⟨g, k, hg, heq, hnormal⟩ := ih (2 * f) htwo
      exact ⟨g, k, hg, by rw [← heq]; ring, hnormal⟩

/-- A number at least as large as one with 53 bits of a scale is a multiple of the scale. -/
theorem dvd_of_le {e : ℕ} (h : Representable a) (hle : e = 0 ∨ 2 ^ 52 * 2 ^ e ≤ |a|) :
    2 ^ e ∣ a := by
  obtain ⟨g, k, hg, rfl⟩ := h
  rcases le_or_gt e k with hek | hke
  · exact (pow_dvd_pow 2 hek).mul_left g
  · rcases hle with rfl | hle
    · exact absurd hke (Nat.not_lt_zero k)
    · -- A smaller scale leaves too few bits for the number.
      have hpos : (0 : ℤ) < 2 ^ k := by positivity
      have hpow : (2 : ℤ) ^ (k + 1) ≤ 2 ^ e := pow_le_pow_right₀ (by norm_num) hke
      rw [abs_mul, abs_of_pos hpos] at hle
      rw [pow_succ] at hpow
      nlinarith

/-- The smaller of two numbers has a scale that divides the larger one. -/
theorem exists_common (ha : Representable a) (hb : Representable b) (hle : |b| ≤ |a|) :
    ∃ (f : ℤ) (e : ℕ), |f| < 2 ^ 53 ∧ b = f * 2 ^ e ∧ 2 ^ e ∣ a := by
  obtain ⟨f, e, hf, rfl, hnormal⟩ := hb.exists_normal
  refine ⟨f, e, hf, rfl, ha.dvd_of_le (hnormal.imp_right fun hlead => ?_)⟩
  have hpos : (0 : ℤ) < 2 ^ e := by positivity
  calc 2 ^ 52 * 2 ^ e ≤ |f| * 2 ^ e := mul_le_mul_of_nonneg_right hlead hpos.le
    _ = |f * 2 ^ e| := by rw [abs_mul, abs_of_pos hpos]
    _ ≤ |a| := hle

/-- A product of two numbers has twice as many bits, so a large one is a multiple of a power of
two. -/
theorem dvd_mul (ha : Representable a) (hb : Representable b) {e : ℕ}
    (hle : 2 ^ 106 * 2 ^ e ≤ |a * b|) : 2 ^ e ∣ a * b := by
  obtain ⟨f, i, hf, rfl⟩ := ha
  obtain ⟨g, j, hg, rfl⟩ := hb
  have hproduct : f * 2 ^ i * (g * 2 ^ j) = f * g * 2 ^ (i + j) := by ring
  rw [hproduct] at hle ⊢
  rcases le_or_gt e (i + j) with he | he
  · exact (pow_dvd_pow 2 he).mul_left _
  · have hpos : (0 : ℤ) < 2 ^ (i + j) := by positivity
    have hpow : (2 : ℤ) ^ (i + j) ≤ 2 ^ e := pow_le_pow_right₀ (by norm_num) he.le
    have hbits : |f * g| < 2 ^ 106 := by
      rw [abs_mul]
      calc |f| * |g| < 2 ^ 53 * 2 ^ 53 :=
            mul_lt_mul'' hf hg (abs_nonneg f) (abs_nonneg g)
        _ = 2 ^ 106 := by norm_num
    rw [abs_mul, abs_of_pos hpos] at hle
    nlinarith

end Representable

/-! ### Rounding to nearest -/

namespace RoundsTo

variable {a b n r s : ℤ}

/-- What has 53 bits is not rounded. -/
theorem eq_self (h : RoundsTo n r) (hn : Representable n) : r = n := by
  have := h.le n hn
  rw [sub_self, abs_zero] at this
  linarith [abs_nonpos_iff.mp this]

/-- Rounding does not leave the range of a number of 53 bits. -/
theorem abs_le_abs (h : RoundsTo n r) (ha : Representable a) (hle : |n| ≤ |a|) : |r| ≤ |a| := by
  by_contra hlt
  rw [not_le] at hlt
  rcases le_total 0 n with hn | hn
  · have hnear := h.le |a| ha.abs
    have hr := abs_sub_abs_le_abs_sub r n
    rw [abs_of_nonneg hn] at hle hr
    rw [abs_sub_comm n r, abs_sub_comm n |a|, abs_of_nonneg (sub_nonneg.mpr hle)] at hnear
    linarith
  · have hnear := h.le (-|a|) ha.abs.neg
    have hr := abs_sub_abs_le_abs_sub r n
    rw [abs_of_nonpos hn] at hle hr
    rw [abs_sub_comm n r, sub_neg_eq_add, abs_of_nonneg (by linarith : 0 ≤ n + |a|)] at hnear
    linarith

/-- Nor does it reach the range below such a number. -/
theorem abs_ge_abs (h : RoundsTo n r) (ha : Representable a) (hle : |a| ≤ |n|) : |a| ≤ |r| := by
  by_contra hlt
  rw [not_le] at hlt
  have hr := abs_sub_abs_le_abs_sub n r
  rcases le_total 0 n with hn | hn
  · have hnear := h.le |a| ha.abs
    rw [abs_of_nonneg hn] at hle hr
    rw [abs_of_nonneg (sub_nonneg.mpr hle)] at hnear
    linarith
  · have hnear := h.le (-|a|) ha.abs.neg
    rw [abs_of_nonpos hn] at hle hr
    rw [sub_neg_eq_add, abs_of_nonpos (by linarith : n + |a| ≤ 0)] at hnear
    linarith

/-- A multiple of a power of two is rounded to one. -/
theorem dvd (h : RoundsTo n r) {e : ℕ} (hdvd : 2 ^ e ∣ n) : 2 ^ e ∣ r := by
  rcases le_or_gt |n| (2 ^ 53 * 2 ^ e) with hle | hlt
  · rwa [h.eq_self (.of_dvd hdvd hle)]
  · have hscale : Representable (2 ^ 53 * 2 ^ e) := ⟨1, 53 + e, by norm_num, by ring⟩
    have hpos : (0 : ℤ) < 2 ^ 53 * 2 ^ e := by positivity
    have hge := h.abs_ge_abs hscale (by rw [abs_of_pos hpos]; exact hlt.le)
    rw [abs_of_pos hpos] at hge
    have hhalf : (2 : ℤ) ^ 52 * 2 ^ e ≤ 2 ^ 53 * 2 ^ e :=
      mul_le_mul_of_nonneg_right (by norm_num) (by positivity)
    exact h.representable.dvd_of_le (.inr (hhalf.trans hge))

/-- The rounding error of a sum has 53 bits. -/
theorem representable_error (ha : Representable a) (hb : Representable b)
    (h : RoundsTo (a + b) s) : Representable (a + b - s) := by
  wlog hle : |b| ≤ |a| generalizing a b
  · rw [add_comm a b] at h ⊢
    exact this hb ha h (not_le.mp hle).le
  obtain ⟨f, e, hf, rfl, hdvd⟩ := ha.exists_common hb hle
  have hpos : (0 : ℤ) < 2 ^ e := by positivity
  have hsum : 2 ^ e ∣ a + f * 2 ^ e := hdvd.add (Dvd.intro_left f rfl)
  apply Representable.of_dvd (hsum.sub (h.dvd hsum))
  have hnear := h.le a ha
  rw [add_sub_cancel_left, abs_mul, abs_of_pos hpos] at hnear
  exact hnear.trans (mul_le_mul_of_nonneg_right hf.le hpos.le)

/-- What a rounded sum differs by from its larger addend has 53 bits. -/
theorem representable_sub (ha : Representable a) (hb : Representable b)
    (h : RoundsTo (a + b) s) (hle : |b| ≤ |a|) : Representable (s - a) := by
  obtain ⟨g, k, hg, hs, hnormal⟩ := h.representable.exists_normal
  obtain ⟨f, e, hf, hbf, hdvd⟩ := ha.exists_common hb hle
  have hpos : (0 : ℤ) < 2 ^ k := by positivity
  -- The neighbours of the sum on its own scale bound the error by half a step.
  have hnear : 2 * |a + b - s| ≤ 2 ^ k := by
    have hstep (i : ℤ) (hi : |i| ≤ 1) : Representable (s + i * 2 ^ k) := by
      rw [hs, ← add_mul]
      apply Representable.of_dvd (Dvd.intro_left _ rfl)
      rw [abs_mul, abs_of_pos hpos]
      have := abs_add_le g i
      exact mul_le_mul_of_nonneg_right (by linarith) hpos.le
    have habove := h.le _ (hstep 1 (by norm_num))
    have hbelow := h.le _ (hstep (-1) (by norm_num))
    rw [show a + b - (s + 1 * 2 ^ k) = a + b - s - 2 ^ k by ring] at habove
    rw [show a + b - (s + -1 * 2 ^ k) = a + b - s + 2 ^ k by ring] at hbelow
    grind
  rcases le_or_gt k e with hke | hek
  · -- On a scale of both addends the sum is exact.
    have hscale : (2 : ℤ) ^ k ∣ b := by
      rw [hbf]
      exact (pow_dvd_pow 2 hke).mul_left f
    have hzero : a + b - s = 0 := by
      apply Int.eq_zero_of_abs_lt_dvd
        ((((pow_dvd_pow 2 hke).trans hdvd).add hscale).sub (hs ▸ Dvd.intro_left g rfl))
      linarith
    rwa [show s - a = b by linarith]
  · obtain ⟨j, rfl⟩ := Nat.exists_eq_add_of_lt hek
    set i := e + j
    have hhalf : (0 : ℤ) < 2 ^ i := by positivity
    have hlead : 2 ^ 52 ≤ |g| := hnormal.resolve_left (Nat.succ_ne_zero i)
    have htwice : |s| ≤ |2 * a| := by
      apply h.abs_le_abs ha.two_mul
      rw [abs_mul, abs_two]
      have := abs_add_le a b
      linarith
    have hscale : 2 ^ i ∣ a := by
      apply ha.dvd_of_le (.inr _)
      rw [hs, abs_mul, abs_mul, abs_two, abs_of_pos hpos, pow_succ] at htwice
      nlinarith
    apply Representable.of_dvd ((hs ▸ (pow_dvd_pow 2 (Nat.le_succ i)).mul_left g).sub hscale)
    have hb' : |b| ≤ (2 ^ 53 - 1) * 2 ^ i := by
      rw [hbf, abs_mul, abs_of_pos (by positivity : (0 : ℤ) < 2 ^ e)]
      exact mul_le_mul (by linarith) (pow_le_pow_right₀ (by norm_num) (Nat.le_add_right e j))
        (by positivity) (by norm_num)
    have htri := abs_sub_abs_le_abs_sub (s - a) b
    rw [pow_succ] at hnear
    rw [abs_sub_comm (s - a) b, show b - (s - a) = a + b - s by ring] at htri
    linarith

end RoundsTo

/-! ### The two-sum algorithm -/

/-- When the sum and what it has taken from `b` are rounded to nearest, what it has taken from `a`,
what both addends have kept, and the error of the sum have 53 bits. -/
theorem twoSum_exact {a b s t : ℤ} (ha : Representable a) (hb : Representable b)
    (hs : RoundsTo (a + b) s) (ht : RoundsTo (s - a) t) :
    Representable (s - t) ∧ Representable (a - (s - t)) ∧ Representable (b - t) ∧
      Representable (a + b - s) := by
  have herror := hs.representable_error ha hb
  by_cases hexact : Representable (s - a)
  · -- The sum takes all of `a`, so all of the error is kept by `b`.
    obtain rfl := ht.eq_self hexact
    rw [sub_sub_cancel, sub_self, show b - (s - a) = a + b - s by ring]
    exact ⟨ha, .zero, herror, herror⟩
  have hlt : |a| < |b| := by
    by_contra hle
    exact hexact (hs.representable_sub ha hb (not_lt.mp hle))
  have hsa : |a| ≤ |s| := by
    by_contra hsa
    -- A sum that cancels so much is exact.
    have hcancel : |a + b| < |a| := by
      by_contra hle
      exact hsa (hs.abs_ge_abs ha (not_lt.mp hle))
    obtain ⟨f, e, hf, haf, hdvd⟩ := hb.exists_common ha hlt.le
    have hpos : (0 : ℤ) < 2 ^ e := by positivity
    have hsum : Representable (a + b) := by
      apply Representable.of_dvd ((haf ▸ Dvd.intro_left f rfl).add hdvd)
      apply hcancel.le.trans
      rw [haf, abs_mul, abs_of_pos hpos]
      exact mul_le_mul_of_nonneg_right hf.le hpos.le
    rw [hs.eq_self hsum, add_sub_cancel_left] at hexact
    exact hexact hb
  refine ⟨?_, ?_, ?_, herror⟩
  · have := RoundsTo.representable_sub hs.representable ha.neg (by rwa [← sub_eq_add_neg])
      (by rwa [abs_neg])
    rw [← neg_sub]
    exact this.neg
  · have := RoundsTo.representable_error hs.representable ha.neg (by rwa [← sub_eq_add_neg])
    rw [show a - (s - t) = -(s + -a - t) by ring]
    exact this.neg
  · have hsmall : |-(a + b - s)| ≤ |b| := by
      have := hs.le b hb
      rw [add_sub_cancel_right] at this
      rw [abs_neg]
      exact this.trans hlt.le
    have := RoundsTo.representable_sub hb herror.neg
      (by rwa [show b + -(a + b - s) = s - a by ring]) hsmall
    rw [← neg_sub]
    exact this.neg

end RandomMachine.Binary64
