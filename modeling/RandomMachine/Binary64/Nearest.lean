import RandomMachine.Binary64.Basic

/-!
# Rounding to the nearest double

Exact magnitudes, given as a ratio of naturals in quanta or as the square root of a natural, are
rounded to the nearest magnitude with ties to even. A magnitude with scale `k` is a multiple of
`2 ^ k` quanta; written as `k * 2 ^ 52` plus that multiple, a significand that rounds up to the next
power of two lands on the next exponent by itself, and everything beyond the largest double meets
the infinity.
-/

namespace RandomMachine

/-- Quotient of two naturals rounded to the nearest integer, a half to the even neighbour. -/
def roundHalfEven (num den : Nat) : Nat :=
  let quotient := num / den
  let rest := num % den
  if 2 * rest < den then quotient
  else if den < 2 * rest then quotient + 1
  else quotient + quotient % 2

/-- Sets the bits of a root from `bit` down to the lowest, each one if its square still fits. -/
def floorSqrtFrom (n : Nat) : (bit : Nat) → (root : Nat) → Nat
  | 0, root => root
  | bit + 1, root =>
    let raised := root + 1 <<< bit
    floorSqrtFrom n bit (if raised * raised ≤ n then raised else root)

/-- The largest natural whose square is at most `n`. -/
def floorSqrt (n : Nat) : Nat := floorSqrtFrom n (n.log2 / 2 + 1) 0

namespace Binary64

/-- Magnitude nearest to `num / den` quanta, a half to the even magnitude. -/
def nearestRatio (num den : Nat) : Nat :=
  let scale := (num / den).log2 - 52
  min infinityMagnitude (scale * binade + roundHalfEven num (den <<< scale))

/-- Magnitude nearest to the square root of `n`, in quanta. -/
def nearestRoot (n : Nat) : Nat :=
  let scale := n.log2 / 2 - 52
  let root := floorSqrt (n >>> (2 * scale))
  let midpoint := (2 * root + 1) <<< scale
  let rounded := if midpoint * midpoint < 4 * n then root + 1 else root
  min infinityMagnitude (scale * binade + rounded)

/-- The double nearest to a signed number of quanta. -/
def ofUnits (value : Int) : Binary64 :=
  ofMagnitude (decide (value < 0)) (nearestRatio value.natAbs 1)

/-- The double nearest to an integer. -/
def ofInt (value : Int) : Binary64 := ofUnits (value * one)

/-- Product of two finite doubles, rounded to nearest. -/
def mulNearest (x y : Binary64) : Binary64 :=
  ofMagnitude (x.isNegative != y.isNegative)
    (nearestRatio (quanta x.magnitude * quanta y.magnitude) one)

/-- Quotient of two finite doubles, the second one nonzero, rounded to nearest. -/
def divNearest (x y : Binary64) : Binary64 :=
  ofMagnitude (x.isNegative != y.isNegative)
    (nearestRatio (quanta x.magnitude * one) (quanta y.magnitude))

/-- Square root of a finite double without its sign, rounded to nearest. -/
def sqrtNearest (x : Binary64) : Binary64 :=
  ofMagnitude false (nearestRoot (quanta x.magnitude * one))

/-- The NaN of every invalid operation. -/
def defaultNaN : Binary64 := ⟨0xFFF8000000000000⟩

/-- Sets the bit that tells a quiet NaN from a signaling one. -/
def quiet (x : Binary64) : Binary64 := ⟨x.bits ||| 0x0008000000000000⟩

/-- The NaN that an operation hands on from its operands: the first one, made quiet. -/
def operandNaN (x y : Binary64) : Option Binary64 :=
  if x.isNaN then some x.quiet
  else if y.isNaN then some y.quiet
  else none

/-- Sum of two doubles, rounded to nearest. -/
def addNearest (x y : Binary64) : Binary64 :=
  match operandNaN x y with
  | some nan => nan
  | none =>
    if x.isInfinite then
      if y.isInfinite && x.isNegative != y.isNegative then defaultNaN else x
    else if y.isInfinite then y
    else
      let exact := x.units + y.units
      if exact = 0 then zero (x.isNegative && y.isNegative) else ofUnits exact

/-- Difference of two doubles, rounded to nearest. -/
def subNearest (x y : Binary64) : Binary64 := addNearest x y.neg

/-- `x * y + z` for finite doubles, rounded to nearest once. The exact value is a number of parts of
`2⁻²¹⁴⁸`. -/
def fusedNearest (x y z : Binary64) : Binary64 :=
  let exact := x.units * y.units + z.units * one
  if exact = 0 then zero (x.isNegative != y.isNegative && z.isNegative)
  else ofMagnitude (decide (exact < 0)) (nearestRatio exact.natAbs one)

end Binary64
end RandomMachine
