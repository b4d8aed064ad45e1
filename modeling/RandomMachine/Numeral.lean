/-!
# Numerals

Decimal and hexadecimal texts of numbers: no leading zeros, lower-case digits, and a minus sign
where one is due.
-/

namespace RandomMachine.Numeral

/-- The power of ten with this exponent. -/
def tenPower (exponent : Nat) : Nat := Nat.pow 10 exponent

/-- Decimal digits of a natural number, the most significant one first. -/
def decimalDigits (n : Nat) : List Char := Nat.toDigits 10 n

/-- Decimal text of a natural number. -/
def decimal (n : Nat) : String := String.ofList (decimalDigits n)

/-- Decimal text of an integer. -/
def signed (value : Int) : String :=
  if value < 0 then "-" ++ decimal value.natAbs else decimal value.natAbs

/-- Puts zeros in front of digits until there are `width` of them. -/
def pad (width : Nat) (digits : List Char) : List Char :=
  List.replicate (width - digits.length) '0' ++ digits

/-- Hexadecimal digits of a natural number, at least `width` of them. -/
def hexDigits (width n : Nat) : String := String.ofList (pad width (Nat.toDigits 16 n))

/-- Hexadecimal text of a natural number with its mark in front. -/
def hex (n : Nat) : String := "0x" ++ hexDigits 1 n

end RandomMachine.Numeral
