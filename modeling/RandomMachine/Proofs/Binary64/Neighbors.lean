import RandomMachine.Proofs.Binary64.Numbers

/-!
# Steps to neighbouring doubles

The signed magnitudes of all doubles that are not NaNs follow each other without a gap, from one
infinity to the other. A step changes the signed magnitude by one, so no double lies between its
ends, and a step back leads to the number that was left. Only the sign of a zero is lost on the way.
-/

namespace RandomMachine.Binary64

/-- Whether one double lies above another, and no double strictly between them. -/
structure Adjacent (x y : Binary64) : Prop where
  isNaN_lower : x.isNaN = false
  isNaN_upper : y.isNaN = false
  lt : x.extendedValue < y.extendedValue
  not_between : ∀ z : Binary64, z.isNaN = false →
    ¬(x.extendedValue < z.extendedValue ∧ z.extendedValue < y.extendedValue)

/-- Whether two doubles are one number. Both zeros are. -/
structure SameNumber (x y : Binary64) : Prop where
  isNaN_left : x.isNaN = false
  isNaN_right : y.isNaN = false
  extendedValue_eq : x.extendedValue = y.extendedValue

section Orders

variable {x y : Binary64}

/-- Doubles with consecutive signed magnitudes are adjacent. -/
theorem adjacent_of_order (hx : x.isNaN = false) (hy : y.isNaN = false)
    (h : y.order = x.order + 1) : Adjacent x y := by
  refine ⟨hx, hy, (extendedValue_lt_iff hx hy).mpr (by omega), fun z hz ⟨hlow, hhigh⟩ => ?_⟩
  rw [extendedValue_lt_iff hx hz] at hlow
  rw [extendedValue_lt_iff hz hy] at hhigh
  omega

/-- Doubles with one signed magnitude are one number. -/
theorem sameNumber_of_order (hx : x.isNaN = false) (hy : y.isNaN = false)
    (h : x.order = y.order) : SameNumber x y :=
  ⟨hx, hy, extendedValue_eq_of_order_eq hx hy h⟩

/-- A double other than zero is determined by its signed magnitude. -/
theorem eq_of_order_eq (h : x.order = y.order) (hzero : y.isZero = false) : x = y := by
  have hmagnitude : x.magnitude = y.magnitude := by rw [← natAbs_order, ← natAbs_order, h]
  have hne : y.order ≠ 0 := mt isZero_iff.mpr (Bool.eq_false_iff.mp hzero)
  have hsign : x.isNegative = y.isNegative := by
    rcases x.order_eq_or with ⟨hx, hxo⟩ | ⟨hx, hxo⟩
    · rcases y.order_eq_or with ⟨hy, -⟩ | ⟨-, hyo⟩
      · exact hx.trans hy.symm
      · exact absurd h (by omega)
    · rcases y.order_eq_or with ⟨-, hyo⟩ | ⟨hy, -⟩
      · exact absurd h (by omega)
      · exact hx.trans hy.symm
  rw [← x.ofMagnitude_magnitude, hsign, hmagnitude, ofMagnitude_magnitude]

/-- Only positive infinity lies above all numbers. -/
theorem extendedValue_eq_top_iff (hx : x.isNaN = false) :
    x.extendedValue = ⊤ ↔ x.order = infinityMagnitude := by
  have hpos : 0 < infinityMagnitude := by decide
  rcases extendedValue_cases hx with ⟨horder, hvalue⟩ | ⟨horder, hvalue⟩ | ⟨horder, hvalue⟩
  · exact iff_of_false (fun h => bot_ne_top (hvalue.symm.trans h)) (by omega)
  · exact iff_of_true hvalue horder
  · exact iff_of_false (fun h => EReal.coe_ne_top _ (hvalue.symm.trans h)) (by omega)

/-- Only negative infinity lies below all numbers. -/
theorem extendedValue_eq_bot_iff (hx : x.isNaN = false) :
    x.extendedValue = ⊥ ↔ x.order = -infinityMagnitude := by
  rw [← EReal.neg_eq_top_iff, ← extendedValue_neg,
    extendedValue_eq_top_iff ((kind_neg x).1.trans hx), order_neg]
  omega

end Orders

section Steps

variable {x : Binary64}

/-- A NaN is not left by a step up. -/
theorem nextUp_of_isNaN (h : x.isNaN = true) : x.nextUp = x := if_pos h

/-- A NaN is not left by a step down. -/
theorem nextDown_of_isNaN (h : x.isNaN = true) : x.nextDown = x := by
  rw [nextDown, nextUp_of_isNaN ((kind_neg x).1.trans h), neg_neg]

/-- A step up changes the signed magnitude by one, and the step down after it changes it back. -/
theorem order_nextDown_nextUp (hlow : -(infinityMagnitude : ℤ) ≤ x.order)
    (hhigh : x.order < infinityMagnitude) :
    x.nextUp.order = x.order + 1 ∧ x.nextUp.nextDown.order = x.order := by
  have hup := (order_nextUp hlow hhigh).1
  have hback := (order_nextDown (x := x.nextUp) (by omega) (by omega)).1
  exact ⟨hup, by omega⟩

/-- A step down changes the signed magnitude by one, and the step up after it changes it back. -/
theorem order_nextUp_nextDown (hlow : -(infinityMagnitude : ℤ) < x.order)
    (hhigh : x.order ≤ infinityMagnitude) :
    x.nextDown.order = x.order - 1 ∧ x.nextDown.nextUp.order = x.order := by
  have hdown := (order_nextDown hlow hhigh).1
  have hback := (order_nextUp (x := x.nextDown) (by omega) (by omega)).1
  exact ⟨hdown, by omega⟩

end Steps

/-- A step up from any number but positive infinity leads to the adjacent number above it, and a
step down from any number but negative infinity to the adjacent one below. The opposite step leads
back to the number, and to the very double if it is not a zero. NaNs stay as they are. -/
theorem adjacent_neighbors (x : Binary64) :
    (x.isNaN = true → x.nextUp = x ∧ x.nextDown = x) ∧
    (x.isNaN = false → x.extendedValue ≠ ⊤ → Adjacent x x.nextUp ∧
      SameNumber x.nextUp.nextDown x ∧ (x.isZero = false → x.nextUp.nextDown = x)) ∧
    (x.isNaN = false → x.extendedValue ≠ ⊥ → Adjacent x.nextDown x ∧
      SameNumber x.nextDown.nextUp x ∧ (x.isZero = false → x.nextDown.nextUp = x)) := by
  refine ⟨fun h => ⟨nextUp_of_isNaN h, nextDown_of_isNaN h⟩, fun hx htop => ?_, fun hx hbot => ?_⟩
  · have hrange := isNaN_eq_false_iff.mp hx
    have hne := mt (extendedValue_eq_top_iff hx).mpr htop
    obtain ⟨hup, hback⟩ := order_nextDown_nextUp (x := x) (by omega) (by omega)
    have hnan := isNaN_nextUp hx
    exact ⟨adjacent_of_order hx hnan hup, sameNumber_of_order (isNaN_nextDown hnan) hx hback,
      eq_of_order_eq hback⟩
  · have hrange := isNaN_eq_false_iff.mp hx
    have hne := mt (extendedValue_eq_bot_iff hx).mpr hbot
    obtain ⟨hdown, hback⟩ := order_nextUp_nextDown (x := x) (by omega) (by omega)
    have hnan := isNaN_nextDown hx
    exact ⟨adjacent_of_order hnan hx (by omega), sameNumber_of_order (isNaN_nextUp hnan) hx hback,
      eq_of_order_eq hback⟩

/-- The greatest finite double and positive infinity are adjacent, and so are the negative double
nearest to zero and zero, which a step back does not leave with its sign. A signaling NaN is not
quieted. -/
theorem adjacent_neighbors_limits :
    Adjacent ⟨0x7FEFFFFFFFFFFFFF⟩ ⟨0x7FF0000000000000⟩ ∧
    Adjacent ⟨0x8000000000000001⟩ ⟨0x8000000000000000⟩ ∧
    SameNumber ⟨0x0000000000000000⟩ ⟨0x8000000000000000⟩ ∧
    (⟨0x7FF0000000000001⟩ : Binary64).nextDown = ⟨0x7FF0000000000001⟩ := by
  have htop {x : Binary64} (hx : x.isNaN = false) (h : x.order ≠ infinityMagnitude) :
      x.extendedValue ≠ ⊤ := mt (extendedValue_eq_top_iff hx).mp h
  have hbot {x : Binary64} (hx : x.isNaN = false) (h : x.order ≠ -infinityMagnitude) :
      x.extendedValue ≠ ⊥ := mt (extendedValue_eq_bot_iff hx).mp h
  obtain ⟨-, hlargest, -⟩ := adjacent_neighbors ⟨0x7FEFFFFFFFFFFFFF⟩
  obtain ⟨-, hup, hdown⟩ := adjacent_neighbors ⟨0x8000000000000000⟩
  obtain ⟨hnan, -, -⟩ := adjacent_neighbors ⟨0x7FF0000000000001⟩
  exact ⟨(hlargest (by decide) (htop (by decide) (by decide))).1,
    (hdown (by decide) (hbot (by decide) (by decide))).1,
    (hup (by decide) (htop (by decide) (by decide))).2.1,
    (hnan (by decide)).2⟩

end RandomMachine.Binary64
