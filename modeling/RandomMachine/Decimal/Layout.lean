import RandomMachine.Binary64.Nearest
import RandomMachine.Decimal.Shortest

/-!
# Layouts of doubles

A layout says how the shortest decimal of a double is written: which exponents are written by
position, whether a positive exponent carries a sign, and which way ties go. Apart from layouts, a
double is written with a fixed number of decimal places.
-/

namespace RandomMachine

/-- The layout of a double's text. -/
structure Decimal.Layout where
  /-- Where two shortest decimals are equally near. -/
  tie : Tie
  /-- Exponents from the first up to, but not including, the second are written by position. -/
  positional : Option (Int × Int)
  /-- Whether a positive exponent carries a plus sign. -/
  plus : Bool

namespace Decimal

/-- Digits with a point after the first one, if there is more than one. -/
def pointed : List Char → List Char
  | first :: second :: rest => first :: '.' :: second :: rest
  | digits => digits

/-- Digits by position, with at least one digit on each side of the point. -/
def byPosition (digits : List Char) (exponent : Int) : List Char :=
  if exponent < 0 then
    ['0', '.'] ++ List.replicate (-exponent - 1).toNat '0' ++ digits
  else
    let whole := exponent.toNat + 1
    let fraction := digits.drop whole
    digits.take whole ++ List.replicate (whole - digits.length) '0' ++
      '.' :: (if fraction.isEmpty then ['0'] else fraction)

/-- Text of a decimal in a layout. -/
def Layout.format (style : Layout) (d : Decimal) : String :=
  let scientific :=
    String.ofList (pointed d.digits) ++ "e" ++
      (if style.plus && 0 < d.exponent then "+" else "") ++ Numeral.signed d.exponent
  match style.positional with
  | none => scientific
  | some (low, high) =>
    if low ≤ d.exponent ∧ d.exponent < high then
      String.ofList (byPosition d.digits d.exponent)
    else scientific

/-- Text of a double in a layout. -/
def Layout.write (style : Layout) (x : Binary64) : String :=
  if x.isNaN then "NaN"
  else
    (if x.isNegative then "-" else "") ++
      (if x.isInfinite then "inf"
        else style.format (if x.isZero then ⟨['0'], 0⟩ else shortest style.tie x.magnitude))

/-- Text of a nonnegative finite double with `places` digits after the point, at least one. The
exact value is rounded once, a half to the even neighbour. -/
def fixed (places : Nat) (x : Binary64) : String :=
  let scaled :=
    roundHalfEven (Binary64.quanta x.magnitude * Numeral.tenPower places) Binary64.one
  let digits := Numeral.pad (places + 1) (Numeral.decimalDigits scaled)
  let whole := digits.length - places
  String.ofList (digits.take whole ++ '.' :: digits.drop whole)

end Decimal
end RandomMachine
