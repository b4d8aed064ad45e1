import RandomMachine.Binary64.Nearest

/-!
# Arithmetic in four rounding modes

Each operation first rounds to nearest. The residual, the sign of the exact result less the rounded
one, then tells whether the mode asks for the neighbouring double instead. A residual is itself a
double, so it is lost where the exact difference rounds to zero or a step on the way to it
overflows. Results that stay subnormal are flushed to a zero of their sign.
-/

namespace RandomMachine

/-- The direction in which inexact results are rounded. Specification, section E12. -/
inductive RoundingMode
  | nearest
  | down
  | up
  | towardZero
  deriving DecidableEq, Repr, Inhabited

namespace Binary64

/-- Replaces a subnormal double by the zero of its sign. Specification, section E12. -/
def flush (x : Binary64) : Binary64 := if x.isSubnormal then zero x.isNegative else x

/-- Sign of a double; neither zero has one, and no NaN. -/
def sign (x : Binary64) : Ordering :=
  if x.isNaN || x.isZero then .eq else if x.isNegative then .lt else .gt

/-- Residual of a rounded sum. What the sum has taken from `y` is `sum - x`, and what it has taken
from `x` is the rest of it; both are compared with the addends. -/
def sumResidual (x y sum : Binary64) : Ordering :=
  let fromY := subNearest sum x
  let fromX := subNearest sum fromY
  (addNearest (subNearest x fromX) (subNearest y fromY)).sign

/-- Residual of a rounded product. -/
def productResidual (x y product : Binary64) : Ordering := (fusedNearest x y product.neg).sign

/-- Residual of a rounded quotient, found as the remainder it leaves. -/
def quotientResidual (x y quotient : Binary64) : Ordering :=
  let remainder := (fusedNearest quotient.neg y x).sign
  if y.isNegative then remainder.swap else remainder

/-- Residual of the rounded root of `x`, found as what its square leaves. -/
def rootResidual (x root : Binary64) : Ordering := (fusedNearest root.neg root x).sign

end Binary64

namespace RoundingMode

open Binary64

/-- Reads the two low bits of a word as a rounding mode. -/
def ofWord (word : UInt64) : RoundingMode :=
  match word.toNat % 4 with
  | 0 => .nearest
  | 1 => .down
  | 2 => .up
  | _ => .towardZero

/-- Moves a result that was rounded to nearest to the neighbour that the mode asks for, given the
sign of what was rounded away. -/
def adjust (mode : RoundingMode) (x : Binary64) (residual : Ordering) : Binary64 :=
  match mode, residual with
  | .down, .lt => x.nextDown
  | .up, .gt => x.nextUp
  | .towardZero, .lt => if x.isNegative || x.isZero then x else x.nextDown
  | .towardZero, .gt => if x.isNegative && !x.isZero then x.nextUp else x
  | _, _ => x

/-- An infinity that stands for a finite result lies beyond it, so it is rounded as a result with a
residual towards zero. -/
def overflow (mode : RoundingMode) (x : Binary64) : Binary64 :=
  mode.adjust x (if x.isNegative then .gt else .lt)

/-- Completes a result that two finite operands have, in general, only approximately. -/
def finish (mode : RoundingMode) (x : Binary64) (residual : Ordering) : Binary64 :=
  if x.isInfinite then mode.overflow x
  else if x.isZero then x
  else (mode.adjust x residual).flush

/-- The zero that a sum of finite doubles with value zero is: the zero of two addends of that very
sign, else the negative zero when rounding down and the positive zero otherwise. -/
def zeroSum (mode : RoundingMode) (x y : Binary64) : Binary64 :=
  if x.isZero && y.isZero && x.isNegative == y.isNegative then x
  else zero (mode == .down)

/-- Sum of two doubles. -/
def add (mode : RoundingMode) (x y : Binary64) : Binary64 :=
  match operandNaN x y with
  | some nan => nan
  | none =>
    let sum := addNearest x y
    if x.isInfinite || y.isInfinite then sum
    else if sum.isZero then mode.zeroSum x y
    else mode.finish sum (sumResidual x y sum)

/-- Difference of two doubles: the sum with the sign of the second one flipped. -/
def sub (mode : RoundingMode) (x y : Binary64) : Binary64 :=
  match operandNaN x y with
  | some nan => nan
  | none => mode.add x y.neg

/-- Product of two doubles. -/
def mul (mode : RoundingMode) (x y : Binary64) : Binary64 :=
  match operandNaN x y with
  | some nan => nan
  | none =>
    if x.isInfinite || y.isInfinite then
      if x.isZero || y.isZero then defaultNaN
      else ofMagnitude (x.isNegative != y.isNegative) infinityMagnitude
    else
      let product := mulNearest x y
      mode.finish product (productResidual x y product)

/-- Quotient of two doubles. A nonzero number divided by zero is an infinity. -/
def div (mode : RoundingMode) (x y : Binary64) : Binary64 :=
  match operandNaN x y with
  | some nan => nan
  | none =>
    let negative := x.isNegative != y.isNegative
    if x.isInfinite then
      if y.isInfinite then defaultNaN else ofMagnitude negative infinityMagnitude
    else if y.isInfinite then zero negative
    else if y.isZero then
      if x.isZero then defaultNaN else ofMagnitude negative infinityMagnitude
    else
      let quotient := divNearest x y
      mode.finish quotient (quotientResidual x y quotient)

/-- Square root of a double without its sign. No finite double but zero has a root that is zero,
infinite or subnormal. -/
def sqrtAbs (mode : RoundingMode) (x : Binary64) : Binary64 :=
  let x := x.abs
  if x.isNaN then x.quiet
  else if x.isInfinite || x.isZero then x
  else
    let root := sqrtNearest x
    mode.adjust root (rootResidual x root)

/-- The double that stands for an integer. -/
def ofInt (mode : RoundingMode) (value : Int) : Binary64 :=
  let nearest := Binary64.ofInt value
  mode.adjust nearest (compare (value * one) nearest.units)

end RoundingMode
end RandomMachine
