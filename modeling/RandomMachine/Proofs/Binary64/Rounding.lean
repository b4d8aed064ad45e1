import RandomMachine.Proofs.Binary64.Nearest
import Mathlib.Data.EReal.Operations
import Mathlib.Order.Compare

/-!
# Rounding in four modes

What the rounding modes mean: the double that a real number is rounded to, among all doubles, the
infinities included. A result that is nearest to a real number, together with the sign of its error,
is moved to the double that the mode asks for.
-/

namespace RandomMachine

/-- The mode that rounds the opposite number to the opposite double. -/
def RoundingMode.mirror : RoundingMode → RoundingMode
  | .down => .up
  | .up => .down
  | mode => mode

/-- A mode, replaced by rounding to nearest where the direction of a result is not known. -/
noncomputable def RoundingMode.nearestIf (mode : RoundingMode) (lost : Prop) : RoundingMode :=
  open Classical in if lost then .nearest else mode

/-- The mode stays where the direction is known. -/
theorem RoundingMode.nearestIf_of_not {mode : RoundingMode} {lost : Prop} (h : ¬lost) :
    mode.nearestIf lost = mode := if_neg h

/-- Where the direction is not known, results are rounded to nearest. -/
theorem RoundingMode.nearestIf_of {mode : RoundingMode} {lost : Prop} (h : lost) :
    mode.nearestIf lost = .nearest := if_pos h

namespace Binary64

/-! ### Meaning of the modes -/

/-- Value of a finite double. -/
noncomputable def value (x : Binary64) : ℝ := x.units / one

/-- Value of a double that is not a NaN. -/
noncomputable def extendedValue (x : Binary64) : EReal :=
  if x.isInfinite then if x.isNegative then ⊥ else ⊤ else x.value

/-- The middle between the largest double and the next power of two, from which on values overflow
when they are rounded to nearest. -/
def overflowThreshold : ℝ := 2 ^ 1024 - 2 ^ 970

/-- Half the distance of the largest doubles. -/
def halfSpacing : ℝ := 2 ^ 970

/-- Half the least double above zero, up to which values vanish when they are rounded to nearest. -/
noncomputable def underflowThreshold : ℝ := (1 / 2) ^ 1075

/-- Rounding to nearest: a finite double that is closest to the value, and from a tie an even one;
an infinity for a value that overflows. -/
structure RoundsToNearest (v : ℝ) (x : Binary64) : Prop where
  finite : |v| < overflowThreshold → x.isFinite = true ∧
    ∀ y : Binary64, y.isFinite = true → |v - x.value| ≤ |v - y.value| ∧
      (y.value ≠ x.value → |v - x.value| = |v - y.value| → Even x.magnitude)
  infinite : overflowThreshold ≤ |v| → x.isInfinite = true

/-- Rounding down: the greatest double that is not above the value. -/
structure RoundsDown (v : ℝ) (x : Binary64) : Prop where
  le : x.extendedValue ≤ v
  greatest : ∀ y : Binary64, y.isNaN = false → y.extendedValue ≤ v →
    y.extendedValue ≤ x.extendedValue

/-- Rounding up: the least double that is not below the value. -/
structure RoundsUp (v : ℝ) (x : Binary64) : Prop where
  le : v ≤ x.extendedValue
  least : ∀ y : Binary64, y.isNaN = false → v ≤ y.extendedValue →
    x.extendedValue ≤ y.extendedValue

/-- The double that a mode rounds a value to. It is a number and has the sign of the value. -/
structure Rounds (mode : RoundingMode) (v : ℝ) (x : Binary64) : Prop where
  isNaN : x.isNaN = false
  negative : v < 0 → x.isNegative = true
  positive : 0 < v → x.isNegative = false
  direction : match mode with
    | .nearest => RoundsToNearest v x
    | .down => RoundsDown v x
    | .up => RoundsUp v x
    | .towardZero => (0 ≤ v → RoundsDown v x) ∧ (v ≤ 0 → RoundsUp v x)

/-! ### Mirror images -/

/-- The value of the opposite double. -/
theorem value_neg (x : Binary64) : x.neg.value = -x.value := by
  rw [value, value, units_neg, Int.cast_neg, neg_div]

/-- Neither kind of double is left by a change of sign. -/
theorem kind_neg (x : Binary64) : x.neg.isNaN = x.isNaN ∧ x.neg.isInfinite = x.isInfinite ∧
    x.neg.isFinite = x.isFinite ∧ x.neg.isZero = x.isZero := by
  simp only [isNaN, isInfinite, isFinite, isZero, magnitude_neg, and_self]

/-- The extended value of the opposite double. -/
theorem extendedValue_neg (x : Binary64) : x.neg.extendedValue = -x.extendedValue := by
  unfold extendedValue
  rw [(kind_neg x).2.1, isNegative_neg, value_neg]
  cases x.isInfinite with
  | false => exact EReal.coe_neg x.value
  | true =>
    cases x.isNegative with
    | false => exact EReal.neg_top.symm
    | true => exact EReal.neg_bot.symm

/-- Rounding up is the mirror image of rounding down. -/
theorem RoundsDown.neg {v : ℝ} {x : Binary64} (h : RoundsDown v x) : RoundsUp (-v) x.neg := by
  refine ⟨?_, fun y hy hle => ?_⟩
  · rw [extendedValue_neg, EReal.coe_neg, EReal.neg_le_neg_iff]
    exact h.le
  · have := h.greatest y.neg ((kind_neg y).1.trans hy) (by
      rw [extendedValue_neg, EReal.neg_le, ← EReal.coe_neg]
      exact hle)
    rw [extendedValue_neg] at this ⊢
    exact EReal.neg_le.mp this

/-- Rounding down is the mirror image of rounding up. -/
theorem RoundsUp.neg {v : ℝ} {x : Binary64} (h : RoundsUp v x) : RoundsDown (-v) x.neg := by
  refine ⟨?_, fun y hy hle => ?_⟩
  · rw [extendedValue_neg, EReal.coe_neg, EReal.neg_le_neg_iff]
    exact h.le
  · have := h.least y.neg ((kind_neg y).1.trans hy) (by
      rw [extendedValue_neg, EReal.le_neg, ← EReal.coe_neg]
      exact hle)
    rw [extendedValue_neg] at this ⊢
    exact EReal.le_neg.mp this

/-- Rounding to nearest is its own mirror image. -/
theorem RoundsToNearest.neg {v : ℝ} {x : Binary64} (h : RoundsToNearest v x) :
    RoundsToNearest (-v) x.neg := by
  have hmirror (a b : ℝ) : |-a - b| = |a - -b| := by
    rw [sub_neg_eq_add, ← neg_add', abs_neg]
  refine ⟨fun hlt => ?_, fun hle => ?_⟩
  · rw [abs_neg] at hlt
    obtain ⟨hfinite, hclosest⟩ := h.finite hlt
    refine ⟨(kind_neg x).2.2.1.trans hfinite, fun y hy => ?_⟩
    have := hclosest y.neg ((kind_neg y).2.2.1.trans hy)
    rw [value_neg] at this
    rw [value_neg, magnitude_neg, hmirror, hmirror, InvolutiveNeg.neg_neg]
    exact ⟨this.1, fun hne => this.2 fun heq => hne (by rw [← heq, InvolutiveNeg.neg_neg])⟩
  · rw [abs_neg] at hle
    exact (kind_neg x).2.1.trans (h.infinite hle)

/-- Rounding the opposite value in the mirrored mode gives the opposite double. -/
theorem Rounds.neg {mode : RoundingMode} {v : ℝ} {x : Binary64} (h : Rounds mode v x) :
    Rounds mode.mirror (-v) x.neg := by
  refine ⟨(kind_neg x).1.trans h.isNaN, fun hv => ?_, fun hv => ?_, ?_⟩
  · rw [isNegative_neg, h.positive (neg_lt_zero.mp hv), Bool.not_false]
  · rw [isNegative_neg, h.negative (neg_pos.mp hv), Bool.not_true]
  · have hdirection := h.direction
    cases mode with
    | nearest => exact RoundsToNearest.neg hdirection
    | down => exact RoundsDown.neg hdirection
    | up => exact RoundsUp.neg hdirection
    | towardZero =>
      exact ⟨fun hv => (hdirection.2 (neg_nonneg.mp hv)).neg,
        fun hv => (hdirection.1 (neg_nonpos.mp hv)).neg⟩

/-! ### Doubles by their order -/

/-- The value of a double in quanta. -/
theorem value_mul_one (x : Binary64) : x.value * one = signedQuanta x.order := by
  rw [value, div_mul_cancel₀ _ one_cast_pos.ne', units_eq]

/-- The values of finite doubles are ordered as their signed magnitudes are. -/
theorem value_le_value_iff {x y : Binary64} : x.value ≤ y.value ↔ x.order ≤ y.order := by
  have hone := one_cast_pos
  rw [← mul_le_mul_iff_left₀ hone, value_mul_one, value_mul_one, Int.cast_le,
    signedQuanta_strictMono.le_iff_le]

/-- A double that is not a NaN is an infinity or finite. -/
theorem extendedValue_cases {x : Binary64} (h : x.isNaN = false) :
    x.order = -infinityMagnitude ∧ x.extendedValue = ⊥ ∨
    x.order = infinityMagnitude ∧ x.extendedValue = ⊤ ∨
    x.order.natAbs < infinityMagnitude ∧ x.extendedValue = x.value := by
  have hle := isNaN_eq_false_iff.mp h
  have hmagnitude := x.natAbs_order
  unfold extendedValue
  cases hinfinite : x.isInfinite with
  | false =>
    have hne := mt isInfinite_iff.mpr (Bool.eq_false_iff.mp hinfinite)
    exact .inr (.inr ⟨by omega, rfl⟩)
  | true =>
    have heq := isInfinite_iff.mp hinfinite
    rcases x.order_eq_or with ⟨hneg, horder⟩ | ⟨hneg, horder⟩
    · exact .inl ⟨by omega, by rw [hneg]; rfl⟩
    · exact .inr (.inl ⟨by omega, by rw [hneg]; rfl⟩)

/-- Doubles are ordered as their signed magnitudes are. -/
theorem extendedValue_le_of_order_le {x y : Binary64} (hx : x.isNaN = false)
    (hy : y.isNaN = false) (h : x.order ≤ y.order) : x.extendedValue ≤ y.extendedValue := by
  have hpos : 0 < infinityMagnitude := by decide
  rcases extendedValue_cases hx with ⟨-, hx⟩ | ⟨hxo, hx⟩ | ⟨hxo, hx⟩
  · rw [hx]
    exact bot_le
  · rcases extendedValue_cases hy with ⟨hyo, -⟩ | ⟨-, hy⟩ | ⟨hyo, -⟩
    · omega
    · rw [hy]
      exact le_top
    · omega
  · rcases extendedValue_cases hy with ⟨hyo, -⟩ | ⟨-, hy⟩ | ⟨hyo, hy⟩
    · omega
    · rw [hy]
      exact le_top
    · rw [hx, hy, EReal.coe_le_coe_iff]
      exact value_le_value_iff.mpr h

/-- Doubles are ordered exactly as their signed magnitudes are. -/
theorem extendedValue_le_iff {x y : Binary64} (hx : x.isNaN = false) (hy : y.isNaN = false) :
    x.extendedValue ≤ y.extendedValue ↔ x.order ≤ y.order := by
  refine ⟨fun h => ?_, extendedValue_le_of_order_le hx hy⟩
  have hlex := isNaN_eq_false_iff.mp hx
  have hley := isNaN_eq_false_iff.mp hy
  rcases extendedValue_cases hx with ⟨hxo, hx⟩ | ⟨hxo, hx⟩ | ⟨hxo, hx⟩
  · omega
  · rw [hx, top_le_iff] at h
    rcases extendedValue_cases hy with ⟨-, hy⟩ | ⟨hyo, -⟩ | ⟨-, hy⟩
    · exact absurd (hy.symm.trans h) bot_ne_top
    · omega
    · exact absurd (hy.symm.trans h) (EReal.coe_ne_top _)
  · rcases extendedValue_cases hy with ⟨-, hy⟩ | ⟨hyo, -⟩ | ⟨-, hy⟩
    · rw [hx, hy, le_bot_iff] at h
      exact absurd h (EReal.coe_ne_bot _)
    · omega
    · rw [hx, hy, EReal.coe_le_coe_iff] at h
      exact value_le_value_iff.mp h

/-- One double is below another exactly when its signed magnitude is. -/
theorem extendedValue_lt_iff {x y : Binary64} (hx : x.isNaN = false) (hy : y.isNaN = false) :
    x.extendedValue < y.extendedValue ↔ x.order < y.order := by
  rw [← not_le, ← not_le, extendedValue_le_iff hy hx]

/-- Doubles with one signed magnitude have one value: at most the signs of zeros differ. -/
theorem extendedValue_eq_of_order_eq {x y : Binary64} (hx : x.isNaN = false)
    (hy : y.isNaN = false) (h : x.order = y.order) : x.extendedValue = y.extendedValue :=
  le_antisymm (extendedValue_le_of_order_le hx hy h.le) (extendedValue_le_of_order_le hy hx h.ge)

/-- A double is the greatest one that is not above a value when it is not above it and the next
double is. -/
theorem roundsDown_of_order {v : ℝ} {x : Binary64} (hx : x.isNaN = false)
    (hle : x.order = -infinityMagnitude ∨ (signedQuanta x.order : ℝ) ≤ v * one)
    (hlt : x.order < infinityMagnitude)
    (hnext : x.order + 1 = infinityMagnitude ∨ v * one < (signedQuanta (x.order + 1) : ℝ)) :
    RoundsDown v x := by
  have hone := one_cast_pos
  refine ⟨?_, fun y hy hy' => extendedValue_le_of_order_le hy hx ?_⟩
  · rcases extendedValue_cases hx with ⟨-, heq⟩ | ⟨heq, -⟩ | ⟨hfinite, heq⟩
    · rw [heq]
      exact bot_le
    · exact absurd heq hlt.ne
    · rw [heq, EReal.coe_le_coe_iff, ← mul_le_mul_iff_left₀ hone, value_mul_one]
      exact hle.resolve_left (by omega)
  · rcases extendedValue_cases hy with ⟨heq, -⟩ | ⟨-, heq⟩ | ⟨hfinite, heq⟩
    · have := isNaN_eq_false_iff.mp hx
      omega
    · rw [heq, top_le_iff] at hy'
      exact absurd hy' (EReal.coe_ne_top v)
    · rw [heq, EReal.coe_le_coe_iff, ← mul_le_mul_iff_left₀ hone, value_mul_one] at hy'
      by_contra hgt
      have habove := hnext.resolve_left (by omega)
      have hmono : signedQuanta (x.order + 1) ≤ signedQuanta y.order :=
        signedQuanta_strictMono.monotone (by omega)
      have : (signedQuanta (x.order + 1) : ℝ) ≤ signedQuanta y.order := Int.cast_le.mpr hmono
      linarith

/-! ### Rounding to nearest -/

/-- The middle of the largest double and the next power of two, in quanta. -/
theorem two_mul_overflowThreshold :
    2 * (overflowThreshold * one) =
      signedQuanta (infinityMagnitude - 1) + signedQuanta infinityMagnitude := by
  have hlargest : quanta (infinityMagnitude - 1) = (2 * binade - 1) * 2 ^ 2045 := by
    rw [show infinityMagnitude - 1 = 2045 * binade + (2 * binade - 1) by decide,
      quanta_scale (.inr (by decide)) (by decide)]
  have hhigh : (2 : ℝ) ^ 1024 * 2 ^ 1074 = 2 ^ 53 * 2 ^ 2045 := by rw [← pow_add, ← pow_add]
  have hlow : (2 : ℝ) * (2 ^ 970 * 2 ^ 1074) = 2 ^ 2045 := by rw [← pow_add, ← pow_succ']
  have hinfinity : (2 : ℝ) ^ 2098 = 2 ^ 53 * 2 ^ 2045 := by rw [← pow_add]
  have hcast (n : ℕ) : ((2 ^ n : ℕ) : ℝ) = 2 ^ n := by rw [Nat.cast_pow, Nat.cast_ofNat]
  have hbinade : ((2 * binade - 1 : ℕ) : ℝ) = 2 ^ 53 - 1 := by
    rw [show 2 * binade - 1 = 2 ^ 53 - 1 by decide]
    norm_num
  rw [show (infinityMagnitude : ℤ) - 1 = (infinityMagnitude - 1 : ℕ) by decide,
    signedQuanta_natCast, signedQuanta_natCast, hlargest, quanta_infinityMagnitude, one_eq,
    Int.cast_natCast, Int.cast_natCast, Nat.cast_mul, hcast, hcast, hcast, hbinade, hinfinity,
    overflowThreshold, sub_mul, mul_sub, hhigh, hlow]
  generalize (2 : ℝ) ^ 2045 = unit
  ring

namespace Nearest

variable {v : ℝ} {k : ℤ}

/-- A value with a nearest double that is not positive infinity does not overflow above. -/
theorem lt_overflowThreshold (h : Nearest v k) (hk : k < infinityMagnitude) :
    v < overflowThreshold * one := by
  obtain ⟨hupper, htie⟩ := h.upper hk
  have hthreshold := two_mul_overflowThreshold
  rcases (Int.le_sub_one_of_lt hk).lt_or_eq with hlt | rfl
  · have hmono : signedQuanta k < signedQuanta (infinityMagnitude - 1) :=
      signedQuanta_strictMono hlt
    have hmono' : signedQuanta (k + 1) < signedQuanta infinityMagnitude :=
      signedQuanta_strictMono (by omega)
    have := Int.cast_lt (R := ℝ).mpr hmono
    have := Int.cast_lt (R := ℝ).mpr hmono'
    linarith
  · rw [sub_add_cancel] at hupper htie
    -- The largest double is odd, so a tie goes to the infinity.
    refine lt_of_le_of_ne (by linarith) fun heq => ?_
    have heven := htie (by linarith)
    exact absurd heven (by decide)

/-- A value whose nearest double is positive infinity overflows. -/
theorem overflowThreshold_le (h : Nearest v infinityMagnitude) : overflowThreshold * one ≤ v := by
  have hlower := (h.lower (by decide)).1
  have hthreshold := two_mul_overflowThreshold
  linarith

/-- A nearest double is what rounding to nearest gives. -/
theorem roundsToNearest {x : Binary64} (h : Nearest (v * one) x.order) : RoundsToNearest v x := by
  have hone := one_cast_pos
  have hneg := h.neg
  rw [← neg_mul] at hneg
  have hle := h.le
  refine ⟨fun hlt => ?_, fun hge => ?_⟩
  · have hlow : x.order ≠ -infinityMagnitude := fun heq => by
      rw [heq, Int.neg_neg] at hneg
      have := le_of_mul_le_mul_right hneg.overflowThreshold_le hone
      linarith [neg_le_abs v]
    have hhigh : x.order ≠ infinityMagnitude := fun heq => by
      rw [heq] at h
      have := le_of_mul_le_mul_right h.overflowThreshold_le hone
      linarith [le_abs_self v]
    have hfinite : x.order.natAbs < infinityMagnitude := by omega
    have hscale (y : Binary64) : |v - y.value| * one = |v * one - signedQuanta y.order| := by
      rw [← value_mul_one, ← sub_mul, abs_mul, abs_of_pos hone]
    refine ⟨isFinite_iff.mpr hfinite, fun y _ => ?_⟩
    obtain ⟨hclose, htie⟩ := h.abs_sub_le hfinite y.order
    rw [← hscale, ← hscale] at hclose htie
    refine ⟨le_of_mul_le_mul_right hclose hone, fun hne heq => ?_⟩
    rw [← x.natAbs_order, Int.natAbs_even]
    refine htie (fun horder => hne ?_) (by rw [heq])
    exact le_antisymm (value_le_value_iff.mpr horder.le) (value_le_value_iff.mpr horder.ge)
  · rw [isInfinite_iff]
    by_contra hne
    have hhigh := h.lt_overflowThreshold (by omega)
    have hlow := hneg.lt_overflowThreshold (by omega)
    have hhigh := lt_of_mul_lt_mul_right hhigh hone.le
    have hlow := lt_of_mul_lt_mul_right hlow hone.le
    rcases abs_choice v with habs | habs <;> linarith

end Nearest

/-! ### Rounding between doubles -/

/-- The extended value of a finite double. -/
theorem extendedValue_of_isFinite {x : Binary64} (h : x.isFinite = true) :
    x.extendedValue = x.value := by
  rw [extendedValue, (kind_of_isFinite h).2, if_neg Bool.false_ne_true]

/-- Half the distance of the largest doubles is at least one. -/
theorem one_le_halfSpacing : 1 ≤ halfSpacing := one_le_pow₀ one_le_two

/-- The overflow threshold by the distance of the largest doubles. -/
theorem overflowThreshold_eq : overflowThreshold = (2 ^ 54 - 1) * halfSpacing := by
  have hlimit : (2 : ℝ) ^ 1024 = 2 ^ 54 * halfSpacing := by rw [halfSpacing, ← pow_add]
  rw [overflowThreshold, hlimit, ← halfSpacing]
  ring

/-- The largest double is half a step of its scale below the overflow threshold. -/
theorem abs_value_le {x : Binary64} (h : x.isFinite = true) :
    |x.value| ≤ (2 ^ 54 - 2) * halfSpacing := by
  have hpos : 0 < infinityMagnitude := by decide
  have hmagnitude : quanta x.order.natAbs ≤ quanta (infinityMagnitude - 1) :=
    quanta_strictMono.monotone (Nat.le_sub_one_of_lt (isFinite_iff.mp h))
  have hle : |x.value| * one ≤ (signedQuanta (infinityMagnitude - 1) : ℝ) := by
    rw [← Nat.abs_cast one, ← abs_mul, value_mul_one, ← Int.cast_abs, abs_signedQuanta,
      Int.cast_le, ← Nat.cast_pred hpos, signedQuanta_natCast, Nat.cast_le]
    exact hmagnitude
  have hinfinity : (signedQuanta infinityMagnitude : ℝ) = 2 ^ 54 * halfSpacing * one := by
    rw [signedQuanta_natCast, quanta_infinityMagnitude_eq, Int.cast_natCast, Nat.cast_mul,
      Nat.cast_pow, Nat.cast_ofNat, halfSpacing, ← pow_add]
  have hthreshold := two_mul_overflowThreshold
  rw [hinfinity, overflowThreshold_eq] at hthreshold
  refine le_of_mul_le_mul_right (hle.trans_eq ?_) one_cast_pos
  linarith

/-- No finite double overflows. -/
theorem abs_value_lt {x : Binary64} (h : x.isFinite = true) : |x.value| < overflowThreshold := by
  have hle := abs_value_le h
  have hpos := one_le_halfSpacing
  rw [overflowThreshold_eq]
  linarith

/-- Rounding does not reach below a double that is not above the value. -/
theorem Rounds.le_extendedValue {mode : RoundingMode} {v : ℝ} {x y : Binary64}
    (h : Rounds mode v x) (hy : y.isFinite = true) (hle : y.value ≤ v) :
    (y.value : EReal) ≤ x.extendedValue := by
  have hdown (hx : RoundsDown v x) : (y.value : EReal) ≤ x.extendedValue := by
    rw [← extendedValue_of_isFinite hy]
    refine hx.greatest y (kind_of_isFinite hy).1 ?_
    rw [extendedValue_of_isFinite hy]
    exact EReal.coe_le_coe_iff.mpr hle
  have hup (hx : RoundsUp v x) : (y.value : EReal) ≤ x.extendedValue :=
    (EReal.coe_le_coe_iff.mpr hle).trans hx.le
  have hdirection := h.direction
  cases mode with
  | down => exact hdown hdirection
  | up => exact hup hdirection
  | towardZero =>
    rcases le_total 0 v with hv | hv
    · exact hdown (hdirection.1 hv)
    · exact hup (hdirection.2 hv)
  | nearest =>
    have hdirection : RoundsToNearest v x := hdirection
    rcases lt_or_ge |v| overflowThreshold with hlt | hge
    · obtain ⟨hfinite, hclosest⟩ := hdirection.finite hlt
      rw [extendedValue_of_isFinite hfinite, EReal.coe_le_coe_iff]
      by_contra hbelow
      have := (hclosest y hy).1
      rw [abs_of_nonneg (by linarith), abs_of_nonneg (by linarith)] at this
      linarith
    · have hv : 0 < v := by
        by_contra hv
        have hlow := (abs_lt.mp (abs_value_lt hy)).1
        rw [abs_of_nonpos (not_lt.mp hv)] at hge
        linarith
      rw [extendedValue, hdirection.infinite hge, h.positive hv, if_pos rfl,
        if_neg Bool.false_ne_true]
      exact le_top

/-- Rounding does not reach above a double that is not below the value. -/
theorem Rounds.extendedValue_le {mode : RoundingMode} {v : ℝ} {x y : Binary64}
    (h : Rounds mode v x) (hy : y.isFinite = true) (hle : v ≤ y.value) :
    x.extendedValue ≤ y.value := by
  have := h.neg.le_extendedValue ((kind_neg y).2.2.1.trans hy)
    (by rw [value_neg]; exact neg_le_neg hle)
  rwa [value_neg, extendedValue_neg, EReal.coe_neg, EReal.neg_le_neg_iff] at this

/-- A value that is a finite double is rounded to it in every mode, up to the sign of a zero. -/
theorem Rounds.extendedValue_eq {mode : RoundingMode} {v : ℝ} {x y : Binary64}
    (h : Rounds mode v x) (hy : y.isFinite = true) (hv : y.value = v) : x.extendedValue = v :=
  hv ▸ (h.extendedValue_le hy hv.ge).antisymm (h.le_extendedValue hy hv.le)

/-- Of two doubles that are nearest to a value, neither is above the other: both would be even, and
the double next to the lower one would be closer. -/
theorem RoundsToNearest.le_value {v : ℝ} {x y : Binary64} (hx : RoundsToNearest v x)
    (hy : RoundsToNearest v y) (hv : |v| < overflowThreshold) : y.value ≤ x.value := by
  by_contra hlt
  rw [not_le] at hlt
  obtain ⟨hfinite, hclosest⟩ := hx.finite hv
  obtain ⟨hfinite', hclosest'⟩ := hy.finite hv
  have heq := le_antisymm (hclosest y hfinite').1 (hclosest' x hfinite).1
  have heven := (hclosest y hfinite').2 hlt.ne' heq
  have heven' := (hclosest' x hfinite).2 hlt.ne heq.symm
  rw [← natAbs_order, Int.natAbs_even] at heven heven'
  have horder : x.order < y.order := lt_of_not_ge fun hge => hlt.not_ge (value_le_value_iff.mpr hge)
  have hrange := isFinite_iff.mp hfinite
  have hrange' := isFinite_iff.mp hfinite'
  obtain ⟨hnext, -⟩ := order_nextUp (x := x) (by omega) (by omega)
  have hgap : x.nextUp.order < y.order := by
    rw [hnext]
    refine lt_of_le_of_ne horder fun h => ?_
    rw [← h] at heven'
    exact Int.not_even_iff_odd.mpr heven.add_one heven'
  have hbelow : x.value < x.nextUp.value := lt_of_not_ge fun hge => by
    have := value_le_value_iff.mp hge
    omega
  have habove : x.nextUp.value < y.value := lt_of_not_ge fun hge => by
    have := value_le_value_iff.mp hge
    omega
  have hcloser := (hclosest x.nextUp (isFinite_iff.mpr (by omega))).1
  grind

/-- A mode rounds a value to one double only, up to the sign of a zero. -/
theorem Rounds.extendedValue_unique {mode : RoundingMode} {v : ℝ} {x y : Binary64}
    (hx : Rounds mode v x) (hy : Rounds mode v y) : x.extendedValue = y.extendedValue := by
  have hdown (h : RoundsDown v x) (h' : RoundsDown v y) : x.extendedValue = y.extendedValue :=
    (h'.greatest x hx.isNaN h.le).antisymm (h.greatest y hy.isNaN h'.le)
  have hup (h : RoundsUp v x) (h' : RoundsUp v y) : x.extendedValue = y.extendedValue :=
    (h.least y hy.isNaN h'.le).antisymm (h'.least x hx.isNaN h.le)
  have hdirection := hx.direction
  have hdirection' := hy.direction
  cases mode with
  | down => exact hdown hdirection hdirection'
  | up => exact hup hdirection hdirection'
  | towardZero =>
    rcases le_total 0 v with hv | hv
    · exact hdown (hdirection.1 hv) (hdirection'.1 hv)
    · exact hup (hdirection.2 hv) (hdirection'.2 hv)
  | nearest =>
    have hdirection : RoundsToNearest v x := hdirection
    have hdirection' : RoundsToNearest v y := hdirection'
    rcases lt_or_ge |v| overflowThreshold with hlt | hge
    · rw [extendedValue_of_isFinite (hdirection.finite hlt).1,
        extendedValue_of_isFinite (hdirection'.finite hlt).1,
        (hdirection'.le_value hdirection hlt).antisymm (hdirection.le_value hdirection' hlt)]
    · have hne : v ≠ 0 := by
        rintro rfl
        have := abs_value_lt (x := zero false) (by decide)
        linarith [abs_nonneg (zero false).value, abs_zero (α := ℝ)]
      have hsign : x.isNegative = y.isNegative := by
        rcases lt_or_gt_of_ne hne with hv | hv
        · rw [hx.negative hv, hy.negative hv]
        · rw [hx.positive hv, hy.positive hv]
      rw [extendedValue, extendedValue, hdirection.infinite hge, hdirection'.infinite hge, hsign,
        if_pos rfl, if_pos rfl]

/-! ### Moving a nearest double -/

/-- Moving the opposite double in the mirrored mode gives the opposite double. -/
theorem adjust_neg (mode : RoundingMode) (x : Binary64) (residual : Ordering) :
    mode.mirror.adjust x.neg residual.swap = (mode.adjust x residual).neg := by
  have hdown : x.neg.nextDown = x.nextUp.neg := by rw [nextDown, neg_neg]
  have hup : x.neg.nextUp = x.nextDown.neg := by rw [nextDown, neg_neg]
  cases mode with
  | nearest => rfl
  | down =>
    cases residual with
    | lt => exact hup
    | eq => rfl
    | gt => rfl
  | up =>
    cases residual with
    | lt => rfl
    | eq => rfl
    | gt => exact hdown
  | towardZero =>
    cases residual with
    | eq => rfl
    | lt =>
      change (if x.neg.isNegative && !x.neg.isZero then x.neg.nextUp else x.neg) =
        (if x.isNegative || x.isZero then x else x.nextDown).neg
      rw [isNegative_neg, (kind_neg x).2.2.2, hup]
      cases x.isNegative <;> cases x.isZero <;> rfl
    | gt =>
      change (if x.neg.isNegative || x.neg.isZero then x.neg else x.neg.nextDown) =
        (if x.isNegative && !x.isZero then x.nextUp else x).neg
      rw [isNegative_neg, (kind_neg x).2.2.2, hdown]
      cases x.isNegative <;> cases x.isZero <;> rfl

section Adjust

variable {mode : RoundingMode} {v : ℝ} {x : Binary64}

/-- A value that is a double is rounded to it. -/
theorem rounds_of_eq (hx : x.isFinite = true) (hnegative : v < 0 → x.isNegative = true)
    (hpositive : 0 < v → x.isNegative = false) (hnearest : RoundsToNearest v x)
    (heq : v * one = signedQuanta x.order) : Rounds mode v x := by
  have hdown {v : ℝ} {x : Binary64} (hx : x.isFinite = true)
      (heq : v * one = signedQuanta x.order) : RoundsDown v x := by
    have hfinite := isFinite_iff.mp hx
    have hmono : signedQuanta x.order < signedQuanta (x.order + 1) :=
      signedQuanta_strictMono (lt_add_one _)
    have hnext : v * one < signedQuanta (x.order + 1) := by
      rw [heq]
      exact_mod_cast hmono
    exact roundsDown_of_order (isNaN_eq_false_iff.mpr hfinite.le) (.inr heq.ge) (by omega)
      (.inr hnext)
  have hup : RoundsUp v x := by
    have := (hdown ((kind_neg x).2.2.1.trans hx)
      (by rw [neg_mul, heq, order_neg, signedQuanta_neg, Int.cast_neg] : -v * one = _)).neg
    rwa [InvolutiveNeg.neg_neg, neg_neg] at this
  refine ⟨isNaN_eq_false_iff.mpr (isFinite_iff.mp hx).le, hnegative, hpositive, ?_⟩
  cases mode with
  | nearest => exact hnearest
  | down => exact hdown hx heq
  | up => exact hup
  | towardZero => exact ⟨fun _ => hdown hx heq, fun _ => hup⟩

/-- A nearest double that is above the value, or the infinity that it is rounded to, is moved down
where the mode asks for it. -/
theorem rounds_adjust_lt (h : Nearest (v * one) x.order) (hnegative : v < 0 → x.isNegative = true)
    (hpositive : 0 < v → x.isNegative = false) (hlow : -(infinityMagnitude : ℤ) < x.order)
    (habove : x.order = infinityMagnitude ∨ v * one < signedQuanta x.order) :
    Rounds mode v (mode.adjust x .lt) := by
  have hone := one_cast_pos
  have hle := h.le
  have hx : x.isNaN = false := isNaN_eq_false_iff.mpr hle
  have hbelow : (signedQuanta (x.order - 1) : ℝ) < v * one := by
    have hmiddle := (h.lower hlow).1
    have hmono : signedQuanta (x.order - 1) < signedQuanta x.order :=
      signedQuanta_strictMono (sub_one_lt _)
    have : (signedQuanta (x.order - 1) : ℝ) < signedQuanta x.order := Int.cast_lt.mpr hmono
    linarith
  obtain ⟨horder, hsign⟩ := order_nextDown hlow (by omega)
  have hnan : x.nextDown.isNaN = false := isNaN_eq_false_iff.mpr (by omega)
  have hdown : RoundsDown v x.nextDown := by
    refine roundsDown_of_order hnan (.inr ?_) (by omega) ?_
    · rw [horder]
      exact hbelow.le
    · rw [horder, sub_add_cancel]
      exact habove
  have hup : RoundsUp v x := by
    have hmirror : RoundsDown (-v) x.neg := by
      refine roundsDown_of_order ((kind_neg x).1.trans hx) ?_ (by rw [order_neg]; omega) (.inr ?_)
      · rw [order_neg, signedQuanta_neg, Int.cast_neg, neg_mul, neg_le_neg_iff]
        exact habove.imp (congrArg Neg.neg) le_of_lt
      · rw [order_neg, show -x.order + 1 = -(x.order - 1) by ring, signedQuanta_neg, Int.cast_neg,
          neg_mul, neg_lt_neg_iff]
        exact hbelow
    have := hmirror.neg
    rwa [InvolutiveNeg.neg_neg, neg_neg] at this
  rcases le_or_gt x.order 0 with hnonpos | hpos
  · -- Zero, or a negative double: the value is negative, and towards zero is up.
    have hv : v < 0 := by
      have hunits : signedQuanta x.order ≤ 0 :=
        signedQuanta_zero ▸ signedQuanta_strictMono.monotone hnonpos
      refine neg_of_mul_neg_left ((habove.resolve_left ?_).trans_le (Int.cast_nonpos.mpr hunits))
        hone.le
      have : 0 < infinityMagnitude := by decide
      omega
    have hnext : x.nextDown.isNegative = true := isNegative_of_order_neg (by omega)
    cases mode with
    | nearest => exact ⟨hx, hnegative, hpositive, h.roundsToNearest⟩
    | up => exact ⟨hx, hnegative, hpositive, hup⟩
    | down => exact ⟨hnan, fun _ => hnext, fun hv' => absurd hv (not_lt.mpr hv'.le), hdown⟩
    | towardZero =>
      change Rounds .towardZero v (if x.isNegative || x.isZero then x else x.nextDown)
      rw [hnegative hv, Bool.true_or, if_pos rfl]
      exact ⟨hx, hnegative, hpositive, fun hv' => absurd hv (not_lt.mpr hv'), fun _ => hup⟩
  · have hv : 0 < v := by
      have hunits : 0 ≤ signedQuanta (x.order - 1) :=
        signedQuanta_zero ▸ signedQuanta_strictMono.monotone (by omega)
      exact pos_of_mul_pos_left ((Int.cast_nonneg hunits).trans_lt hbelow) hone.le
    have hzero : x.isZero = false := Bool.eq_false_iff.mpr (mt isZero_iff.mp hpos.ne')
    have hnext : x.nextDown.isNegative = false := (hsign hzero).trans (hpositive hv)
    cases mode with
    | nearest => exact ⟨hx, hnegative, hpositive, h.roundsToNearest⟩
    | up => exact ⟨hx, hnegative, hpositive, hup⟩
    | down => exact ⟨hnan, fun hv' => absurd hv (not_lt.mpr hv'.le), fun _ => hnext, hdown⟩
    | towardZero =>
      change Rounds .towardZero v (if x.isNegative || x.isZero then x else x.nextDown)
      rw [hpositive hv, hzero, Bool.or_false, if_neg Bool.false_ne_true]
      exact ⟨hnan, fun hv' => absurd hv (not_lt.mpr hv'.le), fun _ => hnext, fun _ => hdown,
        fun hv' => absurd hv (not_lt.mpr hv')⟩

/-- A nearest double that is below the value, or the infinity that it is rounded to, is moved up
where the mode asks for it. -/
theorem rounds_adjust_gt (h : Nearest (v * one) x.order) (hnegative : v < 0 → x.isNegative = true)
    (hpositive : 0 < v → x.isNegative = false) (hhigh : x.order < infinityMagnitude)
    (hbelow : x.order = -infinityMagnitude ∨ signedQuanta x.order < v * one) :
    Rounds mode v (mode.adjust x .gt) := by
  have hmirror : mode.mirror.mirror = mode := by cases mode <;> rfl
  have hlt : Rounds mode.mirror (-v) (mode.mirror.adjust x.neg .lt) := by
    apply rounds_adjust_lt
    · rw [neg_mul, order_neg]
      exact h.neg
    · intro hv
      rw [isNegative_neg, hpositive (neg_lt_zero.mp hv), Bool.not_false]
    · intro hv
      rw [isNegative_neg, hnegative (neg_pos.mp hv), Bool.not_true]
    · rw [order_neg]
      omega
    · rw [order_neg, signedQuanta_neg, Int.cast_neg, neg_mul, neg_lt_neg_iff]
      exact hbelow.imp_left fun heq => by rw [heq, Int.neg_neg]
  have := hlt.neg
  rwa [hmirror, InvolutiveNeg.neg_neg, show Ordering.lt = Ordering.gt.swap from rfl, adjust_neg,
    neg_neg] at this

/-- A value and a double compare as they do in quanta. -/
theorem compares_mul_one {o : Ordering} :
    o.Compares (v * one) (signedQuanta x.order) ↔ o.Compares v x.value := by
  rw [← value_mul_one]
  exact (strictMono_mul_right_of_pos one_cast_pos).compares

/-- No mode moves a double without a residual. -/
theorem adjust_eq (mode : RoundingMode) (x : Binary64) : mode.adjust x .eq = x := by
  cases mode <;> rfl

/-- A finite nearest double is moved to the double that the mode asks for when the residual is the
sign of its error. -/
theorem rounds_adjust (h : Nearest (v * one) x.order) (hx : x.isFinite = true)
    (hnegative : v < 0 → x.isNegative = true) (hpositive : 0 < v → x.isNegative = false)
    {residual : Ordering} (hresidual : residual.Compares v x.value) :
    Rounds mode v (mode.adjust x residual) := by
  have hfinite := isFinite_iff.mp hx
  rw [← compares_mul_one] at hresidual
  cases residual with
  | lt => exact rounds_adjust_lt h hnegative hpositive (by omega) (.inr hresidual)
  | gt => exact rounds_adjust_gt h hnegative hpositive (by omega) (.inr hresidual)
  | eq =>
    rw [adjust_eq]
    exact rounds_of_eq hx hnegative hpositive h.roundsToNearest hresidual

/-- A nearest double stays when its residual is lost. -/
theorem rounds_adjust_nearestIf {lost : Prop} (h : Nearest (v * one) x.order)
    (hx : x.isFinite = true) (hnegative : v < 0 → x.isNegative = true)
    (hpositive : 0 < v → x.isNegative = false) {residual : Ordering}
    (hresidual : ¬lost → residual.Compares v x.value) (hlost : lost → residual = .eq) :
    Rounds (mode.nearestIf lost) v (mode.adjust x residual) := by
  by_cases hcase : lost
  · rw [RoundingMode.nearestIf_of hcase, hlost hcase, adjust_eq]
    exact ⟨isNaN_eq_false_iff.mpr h.le, hnegative, hpositive, h.roundsToNearest⟩
  · rw [RoundingMode.nearestIf_of_not hcase]
    exact rounds_adjust h hx hnegative hpositive (hresidual hcase)

/-- An infinity that a value is rounded to is moved to the double that the mode asks for. -/
theorem rounds_overflow (h : Nearest (v * one) x.order) (hx : x.isInfinite = true)
    (hnegative : v < 0 → x.isNegative = true) (hpositive : 0 < v → x.isNegative = false) :
    Rounds mode v (mode.overflow x) := by
  have hinfinite := isInfinite_iff.mp hx
  have hpos : 0 < infinityMagnitude := by decide
  unfold RoundingMode.overflow
  rcases x.order_eq_or with ⟨hneg, horder⟩ | ⟨hneg, horder⟩
  · rw [hneg, if_pos rfl]
    exact rounds_adjust_gt h hnegative hpositive (by omega) (.inl (by omega))
  · rw [hneg, if_neg Bool.false_ne_true]
    exact rounds_adjust_lt h hnegative hpositive (by omega) (.inl (by omega))

/-- A double is moved by one step at most. -/
theorem natAbs_order_adjust_sub (hx : x.isNaN = false) {residual : Ordering}
    (hlow : residual = .lt → -(infinityMagnitude : ℤ) < x.order)
    (hhigh : residual = .gt → x.order < infinityMagnitude) :
    ((mode.adjust x residual).order - x.order).natAbs ≤ 1 := by
  have hle := isNaN_eq_false_iff.mp hx
  have hstay : (x.order - x.order).natAbs ≤ 1 := by omega
  have hdown (h : residual = .lt) : (x.nextDown.order - x.order).natAbs ≤ 1 := by
    have := (order_nextDown (hlow h) (by omega)).1
    omega
  have hup (h : residual = .gt) : (x.nextUp.order - x.order).natAbs ≤ 1 := by
    have := (order_nextUp (by omega) (hhigh h)).1
    omega
  unfold RoundingMode.adjust
  split
  · exact hdown rfl
  · exact hup rfl
  · split
    · exact hstay
    · exact hdown rfl
  · split
    · exact hup rfl
    · exact hstay
  · exact hstay

/-- A double below the least normal one in magnitude is replaced by the zero of its sign. -/
theorem flush_of_lt (h : x.order.natAbs < binade) : x.flush = zero x.isNegative := by
  rw [natAbs_order] at h
  unfold flush isSubnormal
  rcases Nat.eq_zero_or_pos x.magnitude with hzero | hpos
  · have heq := x.ofMagnitude_magnitude
    rw [hzero] at heq ⊢
    exact heq.symm
  · rw [decide_eq_true ⟨hpos, h⟩, if_pos rfl]

/-- A double from the least normal one on in magnitude is kept. -/
theorem flush_of_le (h : binade ≤ x.order.natAbs) : x.flush = x := by
  rw [natAbs_order] at h
  rw [flush, isSubnormal, decide_eq_false (by omega), if_neg Bool.false_ne_true]

/-- The residual of an infinity points towards zero. -/
theorem order_of_overflow {residual : Ordering} (hx : x.isInfinite = true)
    (hresidual : residual = if x.isNegative then .gt else .lt) :
    (residual = .lt → -(infinityMagnitude : ℤ) < x.order) ∧
      (residual = .gt → x.order < infinityMagnitude) := by
  have hinfinite := isInfinite_iff.mp hx
  have hpos : 0 < infinityMagnitude := by decide
  subst hresidual
  rcases x.order_eq_or with ⟨hsign, horder⟩ | ⟨hsign, horder⟩
  · rw [hsign, if_pos rfl]
    exact ⟨Ordering.noConfusion, fun _ => by omega⟩
  · rw [hsign, if_neg Bool.false_ne_true]
    exact ⟨fun _ => by omega, Ordering.noConfusion⟩

/-- What an infinity is moved to is not subnormal. -/
theorem flush_overflow (hx : x.isInfinite = true) :
    (mode.overflow x).flush = mode.overflow x := by
  have hinfinite := isInfinite_iff.mp hx
  have hlarge : binade + 1 < infinityMagnitude := by decide
  obtain ⟨hlow, hhigh⟩ := order_of_overflow hx rfl
  have hstep : ((mode.overflow x).order - x.order).natAbs ≤ 1 :=
    natAbs_order_adjust_sub (isNaN_eq_false_iff.mpr hinfinite.le) hlow hhigh
  exact flush_of_le (by omega)

/-- A value that is nearest to zero is rounded to a zero or to a subnormal double of its sign. -/
theorem exists_rounds_of_isZero (h : Nearest (v * one) x.order)
    (hnegative : v < 0 → x.isNegative = true) (hpositive : 0 < v → x.isNegative = false)
    (hzero : x.isZero = true) : ∃ z, Rounds mode v z ∧ x = z.flush := by
  have horder := isZero_iff.mp hzero
  have hsmall : 1 < binade := by decide
  have hlarge : binade < infinityMagnitude := by decide
  set z := mode.adjust x (cmp v x.value) with hz
  have hrounds : Rounds mode v z :=
    rounds_adjust h (isFinite_iff.mpr (by omega)) hnegative hpositive (cmp_compares _ _)
  have hstep : (z.order - x.order).natAbs ≤ 1 :=
    natAbs_order_adjust_sub (isNaN_eq_false_iff.mpr h.le) (fun _ => by omega) fun _ => by omega
  have hsign : z.isNegative = x.isNegative := by
    rcases lt_trichotomy v 0 with hv | rfl | hv
    · rw [hrounds.negative hv, hnegative hv]
    · have hexact : cmp 0 x.value = .eq := by
        rw [cmp_eq_eq_iff, value, units_eq, horder, signedQuanta_zero, Int.cast_zero, zero_div]
      rw [hz, hexact]
      cases mode <;> rfl
    · rw [hrounds.positive hv, hpositive hv]
  have hx := x.ofMagnitude_magnitude
  rw [of_decide_eq_true hzero] at hx
  exact ⟨z, hrounds, by rw [flush_of_lt (by omega), hsign, zero, hx]⟩

/-- A nearest double with the sign of its error is completed to the double that the mode asks for,
with a zero in the place of a subnormal one. Without that sign it is completed as it is. -/
theorem exists_rounds_finish {lost : Prop} (h : Nearest (v * one) x.order)
    (hnegative : v < 0 → x.isNegative = true) (hpositive : 0 < v → x.isNegative = false)
    {residual : Ordering} (hresidual : x.isFinite = true → x.isZero = false → ¬lost →
      residual.Compares v x.value)
    (hlost : lost → x.isFinite = true ∧ residual = .eq) :
    ∃ z, Rounds (mode.nearestIf lost) v z ∧ mode.finish x residual = z.flush := by
  unfold RoundingMode.finish
  cases hinfinite : x.isInfinite with
  | true =>
    have hnot : ¬lost := fun hcase => by
      rw [(kind_of_isFinite (hlost hcase).1).2] at hinfinite
      cases hinfinite
    rw [if_pos rfl, RoundingMode.nearestIf_of_not hnot]
    exact ⟨_, rounds_overflow h hinfinite hnegative hpositive, (flush_overflow hinfinite).symm⟩
  | false =>
    have hfinite : x.isFinite = true := isFinite_iff.mpr
      (lt_of_le_of_ne h.le (mt isInfinite_iff.mpr (Bool.eq_false_iff.mp hinfinite)))
    rw [if_neg Bool.false_ne_true]
    cases hzero : x.isZero with
    | true =>
      rw [if_pos rfl]
      exact exists_rounds_of_isZero h hnegative hpositive hzero
    | false =>
      rw [if_neg Bool.false_ne_true]
      exact ⟨_, rounds_adjust_nearestIf h hfinite hnegative hpositive (hresidual hfinite hzero)
        fun hcase => (hlost hcase).2, rfl⟩

end Adjust
end Binary64
end RandomMachine
