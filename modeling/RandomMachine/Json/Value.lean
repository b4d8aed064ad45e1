import RandomMachine.Binary64.Nearest
import RandomMachine.Json.Text
import RandomMachine.Numeral

/-!
# JSON values

A value as far as one forward pass has to look at it: scalars as a whole, arrays and objects by
their bracket. A number is an integer while it is written as one and fits 64 bits. Any other number
is a double: its digits are read into a significand of 64 bits, further digits only count, and the
power of ten is applied in one operation, or in several where it is too small for a double.
-/

namespace RandomMachine.Json

/-- A value as far as it is read. -/
inductive Value
  | null
  | boolean (value : Bool)
  | integer (value : Int)
  | number (value : Binary64)
  | text (value : String)
  | sequence
  | map
  deriving DecidableEq, Repr

/-- Appends digits to a significand while it stays below `limit`, and counts them. -/
def appendDigits (limit significand taken : Nat) : List Char → Nat × Nat
  | [] => (significand, taken)
  | c :: digits =>
    let next := 10 * significand + (c.toNat - '0'.toNat)
    if next < limit then appendDigits limit next (taken + 1) digits else (significand, taken)

/-- The significands that fit 64 bits. -/
def significandLimit : Nat := 0x10000000000000000

/-- The exponents that fit 31 bits. -/
def exponentLimit : Nat := 0x80000000

/-- Largest power of ten that is a finite double. -/
def largestPower : Nat := 308

/-- The double nearest to a power of ten. -/
def powerOfTen (power : Nat) : Binary64 := .ofInt (Numeral.tenPower power)

/-- Divides a double by a power of ten, at most by the largest finite one at a time. -/
def divideByPower (x : Binary64) (power : Nat) : Binary64 :=
  if power ≤ largestPower then x.divNearest (powerOfTen power)
  else if x.isZero then x
  else divideByPower (x.divNearest (powerOfTen largestPower)) (power - largestPower)
termination_by power
decreasing_by simp_all [largestPower]; omega

/-- The double of a significand and a power of ten. One beyond all doubles is refused. -/
def ofParts (negative : Bool) (significand : Nat) (exponent : Int) : Except FormFault Value :=
  let x := Binary64.ofInt significand
  let signed (x : Binary64) : Value := .number (if negative then x.neg else x)
  if exponent < 0 then .ok (signed (divideByPower x exponent.natAbs))
  else if exponent.natAbs ≤ largestPower then
    let scaled := x.mulNearest (powerOfTen exponent.natAbs)
    if scaled.isInfinite then .error .malformed else .ok (signed scaled)
  else if x.isZero then .ok (signed x)
  else .error .malformed

/-- The number without fraction and exponent that has these digits, of which the last `dropped` did
not fit the significand. A negative zero is a double. -/
def ofDigits (negative : Bool) (significand dropped : Nat) : Except FormFault Value :=
  if dropped ≠ 0 then ofParts negative significand dropped
  else if !negative then .ok (.integer significand)
  else if 0 < significand ∧ 2 * significand ≤ significandLimit then .ok (.integer (-significand))
  else ofParts true significand 0

/-- Pairs the result of a complete number with what follows it. -/
def withRest (value : Except FormFault Value) (rest : List Char) :
    Except FormFault (Value × List Char) :=
  value.map (·, rest)

/-- Reads the exponent of a number after its mark. One that does not fit makes every significand
but zero too large, or makes it zero. -/
def readExponent (negative : Bool) (significand : Nat) (exponent : Int) (text : List Char) :
    Except FormFault (Value × List Char) :=
  let (down, text) := match text with
    | '+' :: rest => (false, rest)
    | '-' :: rest => (true, rest)
    | _ => (false, text)
  let digits := text.takeWhile Char.isDigit
  let rest := text.dropWhile Char.isDigit
  if digits.isEmpty then .error (if text.isEmpty then .truncated else .malformed)
  else
    let (power, taken) := appendDigits exponentLimit 0 0 digits
    if taken < digits.length then
      if significand ≠ 0 ∧ !down then .error .malformed
      else .ok (.number (.zero negative), rest)
    else
      withRest (ofParts negative significand (if down then exponent - power else exponent + power))
        rest

/-- Whether a character marks an exponent. -/
def isExponentMark (c : Char) : Bool := c == 'e' || c == 'E'

/-- Reads the fraction of a number after its point. -/
def readFraction (negative : Bool) (significand : Nat) (exponent : Int) (text : List Char) :
    Except FormFault (Value × List Char) :=
  let digits := text.takeWhile Char.isDigit
  let rest := text.dropWhile Char.isDigit
  if digits.isEmpty then .error (if text.isEmpty then .truncated else .malformed)
  else
    let (significand, taken) := appendDigits significandLimit significand 0 digits
    let exponent := exponent - taken
    match rest with
    | c :: after =>
      if isExponentMark c then readExponent negative significand exponent after
      else withRest (ofParts negative significand exponent) rest
    | [] => withRest (ofParts negative significand exponent) rest

/-- Reads a number after its sign. A zero is not followed by further digits. -/
def readNumber (negative : Bool) (text : List Char) : Except FormFault (Value × List Char) :=
  let digits := text.takeWhile Char.isDigit
  let rest := text.dropWhile Char.isDigit
  if digits.isEmpty then .error (if text.isEmpty then .truncated else .malformed)
  else if digits.head? = some '0' ∧ 1 < digits.length then .error .malformed
  else
    let (significand, taken) := appendDigits significandLimit 0 0 digits
    let dropped := digits.length - taken
    match rest with
    | c :: after =>
      if c = '.' then readFraction negative significand dropped after
      else if isExponentMark c then readExponent negative significand dropped after
      else withRest (ofDigits negative significand dropped) rest
    | [] => withRest (ofDigits negative significand dropped) rest

/-- Reads a value that begins with the first character. -/
def readValue : (text : List Char) → Except FormFault (Value × List Char)
  | [] => .error .truncated
  | c :: rest =>
    if c = 'n' then (readWord "ull".toList rest).map (.null, ·)
    else if c = 't' then (readWord "rue".toList rest).map (.boolean true, ·)
    else if c = 'f' then (readWord "alse".toList rest).map (.boolean false, ·)
    else if c = '"' then (readString rest).map fun (text, rest) => (.text text, rest)
    else if c = '-' then readNumber true rest
    else if c.isDigit then readNumber false (c :: rest)
    else if c = '[' then .ok (.sequence, rest)
    else if c = '{' then .ok (.map, rest)
    else .error .malformed

end RandomMachine.Json
