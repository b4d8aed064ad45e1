/-!
# Doubles as bit patterns

A binary64 number is kept as its 64 bits, so that the payload of a NaN and the sign of a zero are
never lost. Below the sign, the bits read as one number, the magnitude, order all doubles of one
sign. A finite double is a whole number of quanta of `2⁻¹⁰⁷⁴`, which makes its value an integer:
all arithmetic of this library is exact arithmetic on quanta followed by one rounding.
-/

namespace RandomMachine

/-- A binary64 number, held as its bit pattern. -/
structure Binary64 where
  bits : UInt64
  deriving DecidableEq, Repr, Inhabited

namespace Binary64

/-- Number of magnitudes, and weight of the sign bit: `2 ^ 63`. -/
def signWeight : Nat := 0x8000000000000000

/-- Number of magnitudes with one exponent: `2 ^ 52`. -/
def binade : Nat := 0x10000000000000

/-- Magnitude of the infinities: every exponent bit set and no fraction bit. -/
def infinityMagnitude : Nat := 0x7FF0000000000000

/-- Quanta of `2⁻¹⁰⁷⁴` that make up the number one. -/
def one : Nat := 1 <<< 1074

/-- The bits below the sign. -/
def magnitude (x : Binary64) : Nat := x.bits.toNat % signWeight

/-- Whether the sign bit is set, also for zeros and NaNs. -/
def isNegative (x : Binary64) : Bool := decide (signWeight ≤ x.bits.toNat)

/-- The double of a sign and a magnitude below `2 ^ 63`. -/
def ofMagnitude (negative : Bool) (magnitude : Nat) : Binary64 :=
  ⟨UInt64.ofNat (if negative then signWeight + magnitude else magnitude)⟩

/-- Zero of either sign. -/
def zero (negative : Bool) : Binary64 := ofMagnitude negative 0

/-- Every magnitude beyond the infinities is a NaN. -/
def isNaN (x : Binary64) : Bool := decide (infinityMagnitude < x.magnitude)

/-- Either infinity. -/
def isInfinite (x : Binary64) : Bool := decide (x.magnitude = infinityMagnitude)

/-- Neither infinite nor a NaN. -/
def isFinite (x : Binary64) : Bool := decide (x.magnitude < infinityMagnitude)

/-- Zero of either sign. -/
def isZero (x : Binary64) : Bool := decide (x.magnitude = 0)

/-- Nonzero and below the least normal double in magnitude. -/
def isSubnormal (x : Binary64) : Bool := decide (0 < x.magnitude ∧ x.magnitude < binade)

/-- Flips the sign bit, also of zeros and NaNs. -/
def neg (x : Binary64) : Binary64 := ofMagnitude (!x.isNegative) x.magnitude

/-- Clears the sign bit. -/
def abs (x : Binary64) : Binary64 := ofMagnitude false x.magnitude

/-- The sign bit is set from the weight of the sign bit on. -/
theorem isNegative_iff {x : Binary64} : x.isNegative = true ↔ signWeight ≤ x.bits.toNat :=
  decide_eq_true_iff

/-- A magnitude leaves the sign bit free. -/
theorem magnitude_lt (x : Binary64) : x.magnitude < signWeight :=
  Nat.mod_lt _ (by decide)

/-- Building a double keeps the sign. -/
theorem isNegative_ofMagnitude (negative : Bool) {magnitude : Nat} (h : magnitude < signWeight) :
    (ofMagnitude negative magnitude).isNegative = negative := by
  simp only [signWeight] at h
  cases negative <;>
    simp only [ofMagnitude, isNegative, signWeight, UInt64.toNat_ofNat', if_true, if_false,
      decide_eq_true_eq, decide_eq_false_iff_not, Bool.false_eq_true] <;> omega

/-- Building a double keeps the magnitude. -/
theorem magnitude_ofMagnitude (negative : Bool) {magnitude : Nat} (h : magnitude < signWeight) :
    (ofMagnitude negative magnitude).magnitude = magnitude := by
  simp only [signWeight] at h
  cases negative <;>
    simp only [ofMagnitude, Binary64.magnitude, signWeight, UInt64.toNat_ofNat', if_true, if_false,
      Bool.false_eq_true] <;> omega

/-- Sign and magnitude are all of a double. -/
theorem ofMagnitude_magnitude (x : Binary64) : ofMagnitude x.isNegative x.magnitude = x := by
  have hlt := x.bits.toNat_lt
  have hweight : signWeight = 0x8000000000000000 := rfl
  have hbits : (if x.isNegative then signWeight + x.magnitude else x.magnitude) = x.bits.toNat := by
    rw [magnitude, hweight]
    split
    · have := hweight ▸ isNegative_iff.mp ‹_›
      omega
    · have := hweight ▸ mt isNegative_iff.mpr ‹_›
      omega
  rw [ofMagnitude, hbits, UInt64.ofNat_toNat]

/-- A flipped sign is the other sign. -/
theorem isNegative_neg (x : Binary64) : x.neg.isNegative = !x.isNegative :=
  isNegative_ofMagnitude _ x.magnitude_lt

/-- Flipping the sign keeps the magnitude. -/
theorem magnitude_neg (x : Binary64) : x.neg.magnitude = x.magnitude :=
  magnitude_ofMagnitude _ x.magnitude_lt

/-- Flipping the sign twice changes nothing. -/
theorem neg_neg (x : Binary64) : x.neg.neg = x := by
  rw [neg, isNegative_neg, magnitude_neg, Bool.not_not, ofMagnitude_magnitude]

/-- Value of a finite magnitude in quanta: the fraction alone below the least normal double, and
the fraction with its leading bit scaled by the exponent from there on. -/
def quanta (magnitude : Nat) : Nat :=
  let exponent := magnitude / binade
  let fraction := magnitude % binade
  if exponent = 0 then fraction else (binade + fraction) <<< (exponent - 1)

/-- Signed value of a finite double in quanta; both zeros have the value zero. -/
def units (x : Binary64) : Int :=
  if x.isNegative then -(quanta x.magnitude : Int) else quanta x.magnitude

/-- Flipping the sign negates the value. -/
theorem units_neg (x : Binary64) : x.neg.units = -x.units := by
  unfold units
  rw [isNegative_neg, magnitude_neg]
  cases x.isNegative <;> simp only [Bool.not_true, Bool.not_false, if_true, if_false,
    Bool.false_eq_true, Int.neg_neg]

/-- The integer part of a double, cut to the range of 64-bit signed integers; a NaN gives zero. -/
def truncate (x : Binary64) : Int :=
  if x.isNaN then 0
  else
    let integerPart := x.units.tdiv one
    if x.isInfinite && x.isNegative || integerPart < -0x8000000000000000 then -0x8000000000000000
    else if x.isInfinite || 0x7FFFFFFFFFFFFFFF < integerPart then 0x7FFFFFFFFFFFFFFF
    else integerPart

/-! ### Neighbours

One step up or down among all doubles, subnormal ones included. Both zeros count as one number on
the way, and a step from the largest double leads to the infinity. -/

/-- Least double above `x`. A NaN and positive infinity have none and are returned as they are. -/
def nextUp (x : Binary64) : Binary64 :=
  if x.isNaN then x
  else if x.isZero then ofMagnitude false 1
  else if x.isNegative then ofMagnitude true (x.magnitude - 1)
  else if x.isInfinite then x
  else ofMagnitude false (x.magnitude + 1)

/-- Greatest double below `x`: the step up taken with both signs flipped. -/
def nextDown (x : Binary64) : Binary64 := x.neg.nextUp.neg

end Binary64
end RandomMachine
