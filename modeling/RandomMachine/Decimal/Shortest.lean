import RandomMachine.Numeral
import RandomMachine.Binary64.Basic

/-!
# Shortest decimals

The shortest decimal of a double is the one with the fewest digits among those that round back to
it, and of these the nearest to its value. Each number of digits fixes a decimal grid; on it only
the two neighbours of the value need to be looked at. All comparisons are made in quanta with
whole numbers.
-/

namespace RandomMachine

/-- A positive decimal: significant digits without trailing zeros, and the power of ten of the
first one. -/
structure Decimal where
  digits : List Char
  exponent : Int
  deriving DecidableEq, Repr

/-- Which neighbour is taken when a value lies halfway between two decimals. -/
inductive Tie
  | away
  | even
  deriving DecidableEq, Repr

namespace Decimal

/-- A decimal grid of step `10 ^ exponent`, as two factors that clear its fractions: `up` scales
grid points and `down` scales quanta. -/
structure Grid where
  up : Nat
  down : Nat

/-- The grid of the multiples of a power of ten. -/
def Grid.ofExponent (exponent : Int) : Grid :=
  ⟨Numeral.tenPower exponent.toNat * Binary64.one, Numeral.tenPower (-exponent).toNat⟩

/-- Power of ten of the leading digit of a positive number of quanta. -/
def leadingExponent (quanta : Nat) : Int :=
  ((Numeral.decimalDigits (quanta * Numeral.tenPower 324 / Binary64.one)).length : Int) - 325

/-- Whether a grid point rounds to the double of this magnitude: it lies between the midpoints to
both neighbours, and the midpoints themselves round to an even magnitude. -/
def roundsTo (grid : Grid) (magnitude point : Nat) : Bool :=
  let below := (Binary64.quanta (magnitude - 1) + Binary64.quanta magnitude) * grid.down
  let above := (Binary64.quanta magnitude + Binary64.quanta (magnitude + 1)) * grid.down
  let doubled := 2 * point * grid.up
  if magnitude % 2 = 0 then decide (below ≤ doubled ∧ doubled ≤ above)
  else decide (below < doubled ∧ doubled < above)

/-- The grid neighbour of the double that stands for it on this grid, if one of the two does. -/
def onGrid (tie : Tie) (grid : Grid) (magnitude : Nat) : Option Nat :=
  let scaled := Binary64.quanta magnitude * grid.down
  let floor := scaled / grid.up
  match roundsTo grid magnitude floor, roundsTo grid magnitude (floor + 1) with
  | false, false => none
  | true, false => some floor
  | false, true => some (floor + 1)
  | true, true =>
    match compare (2 * scaled) ((2 * floor + 1) * grid.up) with
    | .lt => some floor
    | .gt => some (floor + 1)
    | .eq => some (match tie with | .away => floor + 1 | .even => floor + floor % 2)

/-- The decimal of a grid point, its trailing zeros dropped. -/
def ofPoint (point : Nat) (exponent : Int) : Decimal :=
  let digits := Numeral.decimalDigits point
  ⟨(digits.reverse.dropWhile (· == '0')).reverse, exponent + digits.length - 1⟩

/-- Shortest decimal of a nonzero finite magnitude. Seventeen digits always suffice. -/
def shortest (tie : Tie) (magnitude : Nat) : Decimal :=
  let leading := leadingExponent (Binary64.quanta magnitude)
  let attempt (digits : Nat) : Option Decimal :=
    let exponent := leading - digits
    (onGrid tie (Grid.ofExponent exponent) magnitude).map (ofPoint · exponent)
  ((List.range 17).findSome? attempt).getD ⟨['0'], 0⟩

end Decimal
end RandomMachine
