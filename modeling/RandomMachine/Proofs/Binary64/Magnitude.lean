import RandomMachine.Binary64.Directed
import RandomMachine.Proofs.Binary64.ErrorFree
import Mathlib.Data.Int.ConditionallyCompleteOrder
import Mathlib.Order.Monotone.Basic

/-!
# Magnitudes and their values

The magnitudes, taken as far as there are naturals, are exactly the numbers of 53 bits in their
order. A magnitude is a scale and a significand of at most 53 bits, and the next magnitude is one
unit of the scale away. With their signs, magnitudes are integers that order the doubles.
-/

namespace RandomMachine.Binary64

/-! ### Magnitudes -/

/-- The leading bit of a significand. -/
theorem binade_eq : binade = 2 ^ 52 := by decide

/-- The value of a scale and a significand, which has its leading bit unless the scale is the
lowest. A significand that is one too large meets the next scale. -/
theorem quanta_scale {scale r : ℕ} (hlow : scale = 0 ∨ binade ≤ r) (hhigh : r ≤ 2 * binade) :
    quanta (scale * binade + r) = r * 2 ^ scale := by
  have hb : 0 < binade := by decide
  have hlead {scale r : ℕ} (hlow : binade ≤ r) (hhigh : r < 2 * binade) :
      quanta (scale * binade + r) = r * 2 ^ scale := by
    have hexponent : (scale * binade + r) / binade = scale + 1 := by
      have hone : r / binade = 1 := Nat.div_eq_of_lt_le (by omega) (by omega)
      rw [Nat.mul_comm, Nat.mul_add_div hb, hone]
    have hfraction : (scale * binade + r) % binade = r - binade := by
      rw [Nat.mul_comm, Nat.mul_add_mod, Nat.mod_eq_sub_mod hlow, Nat.mod_eq_of_lt (by omega)]
    rw [quanta, hexponent, hfraction, if_neg (Nat.succ_ne_zero scale), Nat.shiftLeft_eq,
      Nat.add_sub_cancel, Nat.add_sub_cancel' hlow]
  rcases hhigh.lt_or_eq with hlt | rfl
  · by_cases hr : binade ≤ r
    · exact hlead hr hlt
    · obtain rfl := hlow.resolve_right hr
      rw [Nat.zero_mul, Nat.zero_add, quanta, Nat.div_eq_of_lt (by omega), if_pos rfl,
        Nat.mod_eq_of_lt (by omega), pow_zero, Nat.mul_one]
  · rw [show scale * binade + 2 * binade = (scale + 1) * binade + binade by ring,
      hlead le_rfl (by omega)]
    ring

/-- Every magnitude is a scale and a significand. -/
theorem exists_scale (m : ℕ) :
    ∃ scale r, m = scale * binade + r ∧ (scale = 0 ∨ binade ≤ r) ∧ r < 2 * binade := by
  have hb : 0 < binade := by decide
  by_cases hm : m < binade
  · exact ⟨0, m, by ring, .inl rfl, by omega⟩
  · have hmod := Nat.mod_lt m hb
    have hdiv := Nat.div_add_mod m binade
    have hpos := Nat.div_pos (by omega : binade ≤ m) hb
    refine ⟨m / binade - 1, binade + m % binade, ?_, .inr (by omega), by omega⟩
    rw [← Nat.add_assoc, ← Nat.succ_mul, Nat.succ_eq_add_one, Nat.sub_add_cancel hpos]
    linarith

/-- The next magnitude is one unit of the scale away. -/
theorem quanta_succ {scale r : ℕ} (hlow : scale = 0 ∨ binade ≤ r) (hhigh : r < 2 * binade) :
    quanta (scale * binade + r + 1) = (r + 1) * 2 ^ scale := by
  rw [Nat.add_assoc]
  exact quanta_scale (hlow.imp_right fun h => Nat.le_succ_of_le h) hhigh

/-- Magnitudes order values. -/
theorem quanta_strictMono : StrictMono quanta := by
  apply strictMono_nat_of_lt_succ
  intro m
  obtain ⟨scale, r, rfl, hlow, hhigh⟩ := exists_scale m
  rw [quanta_succ hlow hhigh, quanta_scale hlow hhigh.le]
  exact Nat.mul_lt_mul_of_pos_right (Nat.lt_succ_self r) (by positivity)

/-- The magnitude zero has the value zero. -/
theorem quanta_zero : quanta 0 = 0 := by decide

/-- The value that the infinities stand for in rounding: one step beyond the largest double. -/
theorem quanta_infinityMagnitude : quanta infinityMagnitude = 2 ^ 2098 := by
  rw [show infinityMagnitude = 2046 * binade + binade by decide,
    quanta_scale (.inr le_rfl) (by omega), binade_eq, ← pow_add]

/-- Values of magnitudes have 53 bits. -/
theorem representable_quanta (m : ℕ) : Representable (quanta m) := by
  obtain ⟨scale, r, rfl, hlow, hhigh⟩ := exists_scale m
  rw [quanta_scale hlow hhigh.le]
  refine ⟨r, scale, ?_, by push_cast; rfl⟩
  rw [abs_of_nonneg (Int.natCast_nonneg r)]
  rw [binade_eq] at hhigh
  omega

/-- Every number of 53 bits is the value of a magnitude, up to its sign. -/
theorem exists_quanta {n : ℤ} (h : Representable n) : ∃ m, n.natAbs = quanta m := by
  obtain ⟨f, e, hf, rfl, hnormal⟩ := h.exists_normal
  refine ⟨e * binade + f.natAbs, ?_⟩
  rw [Int.abs_eq_natAbs] at hf hnormal
  rw [quanta_scale, Int.natAbs_mul, Int.natAbs_pow]
  · rfl
  · rw [binade_eq]
    omega
  · rw [binade_eq]
    omega

/-! ### Signed magnitudes -/

/-- The value of a magnitude with a sign. -/
def signedQuanta (k : ℤ) : ℤ := if k < 0 then -(quanta k.natAbs : ℤ) else quanta k.natAbs

/-- Zero has the value zero. -/
theorem signedQuanta_zero : signedQuanta 0 = 0 := by decide

/-- The value of a magnitude without a sign. -/
@[simp]
theorem signedQuanta_natCast (m : ℕ) : signedQuanta m = quanta m := by
  rw [signedQuanta, if_neg (by omega), Int.natAbs_natCast]

/-- The sign of a magnitude is the sign of its value. -/
@[simp]
theorem signedQuanta_neg (k : ℤ) : signedQuanta (-k) = -signedQuanta k := by
  rcases lt_trichotomy k 0 with hk | rfl | hk
  · rw [signedQuanta, signedQuanta, if_neg (by omega), if_pos hk, Int.natAbs_neg, Int.neg_neg]
  · rfl
  · rw [signedQuanta, signedQuanta, if_pos (by omega), if_neg (by omega), Int.natAbs_neg]

/-- Signed magnitudes order values. -/
theorem signedQuanta_strictMono : StrictMono signedQuanta := by
  have hnonneg {i j : ℤ} (hi : 0 ≤ i) (hij : i < j) : signedQuanta i < signedQuanta j := by
    obtain ⟨m, rfl⟩ := Int.eq_ofNat_of_zero_le hi
    obtain ⟨n, rfl⟩ := Int.eq_ofNat_of_zero_le (hi.trans hij.le)
    rw [signedQuanta_natCast, signedQuanta_natCast, Nat.cast_lt]
    exact quanta_strictMono (Int.ofNat_lt.mp hij)
  intro i j hij
  rcases le_or_gt 0 i with hi | hi
  · exact hnonneg hi hij
  · have hi' := hnonneg le_rfl (neg_pos.mpr hi)
    rw [signedQuanta_neg, signedQuanta_zero] at hi'
    rcases le_or_gt j 0 with hj | hj
    · have hj' := hnonneg (neg_nonneg.mpr hj) (neg_lt_neg hij)
      rw [signedQuanta_neg, signedQuanta_neg] at hj'
      omega
    · have hj' := hnonneg le_rfl hj
      rw [signedQuanta_zero] at hj'
      omega

/-- A signed magnitude has the value of its magnitude, up to the sign. -/
theorem abs_signedQuanta (k : ℤ) : |signedQuanta k| = quanta k.natAbs := by
  unfold signedQuanta
  split
  · rw [abs_neg, Nat.abs_cast]
  · rw [Nat.abs_cast]

/-- Every number of 53 bits is the value of a signed magnitude. -/
theorem exists_signedQuanta {n : ℤ} (h : Representable n) : ∃ k, n = signedQuanta k := by
  obtain ⟨m, hm⟩ := exists_quanta h
  rcases Int.natAbs_eq n with hn | hn
  · exact ⟨m, by rw [signedQuanta_natCast, ← hm, ← hn]⟩
  · exact ⟨-m, by rw [signedQuanta_neg, signedQuanta_natCast, ← hm, ← hn]⟩

/-- The value of a signed magnitude has 53 bits. -/
theorem representable_signedQuanta (k : ℤ) : Representable (signedQuanta k) := by
  unfold signedQuanta
  split
  · exact (representable_quanta _).neg
  · exact representable_quanta _

/-! ### The order of doubles -/

/-- The signed magnitude of a double. Both zeros have one. -/
def order (x : Binary64) : ℤ := if x.isNegative then -(x.magnitude : ℤ) else x.magnitude

/-- The value of a finite double by its signed magnitude. -/
theorem units_eq (x : Binary64) : x.units = signedQuanta x.order := by
  unfold units order
  split
  · rw [signedQuanta_neg, signedQuanta_natCast]
  · rw [signedQuanta_natCast]

/-- The magnitude without its sign. -/
theorem natAbs_order (x : Binary64) : x.order.natAbs = x.magnitude := by
  unfold order
  split
  · rw [Int.natAbs_neg, Int.natAbs_natCast]
  · rw [Int.natAbs_natCast]

/-- The opposite double. -/
theorem order_neg (x : Binary64) : x.neg.order = -x.order := by
  unfold order
  rw [isNegative_neg, magnitude_neg]
  cases x.isNegative with
  | false => rfl
  | true => exact (Int.neg_neg _).symm

/-- A double that is built from its sign and its magnitude. -/
theorem order_ofMagnitude (negative : Bool) {m : ℕ} (h : m ≤ infinityMagnitude) :
    (ofMagnitude negative m).order = if negative then -(m : ℤ) else m := by
  have hlt : m < signWeight := h.trans_lt (by decide)
  rw [order, isNegative_ofMagnitude negative hlt, magnitude_ofMagnitude negative hlt]

/-- The sign of a double that is built from it. -/
theorem isNegative_ofMagnitude_of_le (negative : Bool) {m : ℕ} (h : m ≤ infinityMagnitude) :
    (ofMagnitude negative m).isNegative = negative :=
  isNegative_ofMagnitude negative (h.trans_lt (by decide))

/-- A double is a NaN beyond the infinities only. -/
theorem isNaN_eq_false_iff {x : Binary64} :
    x.isNaN = false ↔ x.order.natAbs ≤ infinityMagnitude := by
  rw [natAbs_order, isNaN, decide_eq_false_iff_not, not_lt]

/-- Only zeros have the signed magnitude zero. -/
theorem isZero_iff {x : Binary64} : x.isZero = true ↔ x.order = 0 := by
  rw [← Int.natAbs_eq_zero, natAbs_order, isZero, decide_eq_true_iff]

/-- The infinities have the largest magnitude of all. -/
theorem isInfinite_iff {x : Binary64} :
    x.isInfinite = true ↔ x.order.natAbs = infinityMagnitude := by
  rw [natAbs_order, isInfinite, decide_eq_true_iff]

/-- Finite doubles lie between the infinities. -/
theorem isFinite_iff {x : Binary64} :
    x.isFinite = true ↔ x.order.natAbs < infinityMagnitude := by
  rw [natAbs_order, isFinite, decide_eq_true_iff]

/-- Every number of 53 bits below the infinities is the value of a finite double. -/
theorem exists_units_eq {n : ℤ} (h : Representable n) (hlt : |n| < quanta infinityMagnitude) :
    ∃ y : Binary64, y.isFinite = true ∧ y.units = n := by
  obtain ⟨k, rfl⟩ := exists_signedQuanta h
  rw [abs_signedQuanta, Nat.cast_lt, quanta_strictMono.lt_iff_lt] at hlt
  have horder : (ofMagnitude (decide (k < 0)) k.natAbs).order = k := by
    rw [order_ofMagnitude _ hlt.le]
    split
    · next hneg =>
      have := of_decide_eq_true hneg
      omega
    · next hneg =>
      have := of_decide_eq_false (Bool.eq_false_iff.mpr hneg)
      omega
  refine ⟨ofMagnitude (decide (k < 0)) k.natAbs, isFinite_iff.mpr ?_, ?_⟩
  · rwa [horder]
  · rw [units_eq, horder]

/-- A finite double is neither infinite nor a NaN. -/
theorem kind_of_isFinite {x : Binary64} (h : x.isFinite = true) :
    x.isNaN = false ∧ x.isInfinite = false := by
  have hlt := isFinite_iff.mp h
  exact ⟨isNaN_eq_false_iff.mpr hlt.le, Bool.eq_false_iff.mpr (mt isInfinite_iff.mp hlt.ne)⟩

/-- Both zeros have the signed magnitude zero. -/
theorem order_zero (negative : Bool) : (zero negative).order = 0 := by
  rw [zero, order_ofMagnitude negative (Nat.zero_le _)]
  cases negative <;> rfl

/-- The signed magnitude of a double by its sign. -/
theorem order_eq_or (x : Binary64) :
    x.isNegative = true ∧ x.order = -x.magnitude ∨
      x.isNegative = false ∧ x.order = x.magnitude := by
  unfold order
  cases x.isNegative with
  | true => exact .inl ⟨rfl, rfl⟩
  | false => exact .inr ⟨rfl, rfl⟩

/-- A double with a negative signed magnitude has its sign bit set. -/
theorem isNegative_of_order_neg {x : Binary64} (h : x.order < 0) : x.isNegative = true := by
  rcases x.order_eq_or with ⟨hneg, -⟩ | ⟨-, horder⟩
  · exact hneg
  · omega

/-- The next double has the next signed magnitude and, unless it leaves zero, the same sign. -/
theorem order_nextUp {x : Binary64} (hlow : -(infinityMagnitude : ℤ) ≤ x.order)
    (hhigh : x.order < infinityMagnitude) :
    x.nextUp.order = x.order + 1 ∧ (x.isZero = false → x.nextUp.isNegative = x.isNegative) := by
  have hnan : x.isNaN = false := isNaN_eq_false_iff.mpr (by omega)
  have hmagnitude := x.natAbs_order
  have hweight : infinityMagnitude < signWeight := by decide
  unfold nextUp
  rw [hnan, if_neg Bool.false_ne_true]
  cases hzero : x.isZero with
  | true =>
    rw [if_pos rfl, order_ofMagnitude _ (by decide), isZero_iff.mp hzero]
    exact ⟨rfl, fun h => absurd h Bool.noConfusion⟩
  | false =>
    have hne : x.order ≠ 0 := fun h => by
      rw [isZero_iff.mpr h] at hzero
      cases hzero
    rw [if_neg Bool.false_ne_true]
    rcases x.order_eq_or with ⟨hneg, horder⟩ | ⟨hneg, horder⟩
    · rw [hneg, if_pos rfl, order_ofMagnitude _ (by omega), if_pos rfl]
      exact ⟨by omega, fun _ => isNegative_ofMagnitude _ (by omega)⟩
    · have hfinite : x.isInfinite = false := by
        rw [Bool.eq_false_iff, ne_eq, isInfinite_iff]
        omega
      rw [hneg, hfinite, if_neg Bool.false_ne_true, if_neg Bool.false_ne_true,
        order_ofMagnitude _ (by omega), if_neg Bool.false_ne_true]
      exact ⟨by omega, fun _ => isNegative_ofMagnitude _ (by omega)⟩

/-- The previous double has the previous signed magnitude and, unless it leaves zero, the same
sign. -/
theorem order_nextDown {x : Binary64} (hlow : -(infinityMagnitude : ℤ) < x.order)
    (hhigh : x.order ≤ infinityMagnitude) :
    x.nextDown.order = x.order - 1 ∧
      (x.isZero = false → x.nextDown.isNegative = x.isNegative) := by
  have hneg := x.order_neg
  obtain ⟨horder, hsign⟩ := order_nextUp (by omega : -(infinityMagnitude : ℤ) ≤ x.neg.order)
    (by omega)
  have hzero : x.neg.isZero = x.isZero := by rw [isZero, isZero, magnitude_neg]
  refine ⟨?_, fun h => ?_⟩
  · rw [nextDown, order_neg, horder, hneg]
    omega
  · rw [nextDown, isNegative_neg, hsign (hzero.trans h), isNegative_neg, Bool.not_not]

end RandomMachine.Binary64
