import RandomMachine.Family.Basic

/-!
# Integer results

The result of each integer family on two words of 64 bits. The 32-bit families read the low halves
of their operands and clear the high half of the result; division takes a zero divisor for one;
shifts and rotations read the low six bits of their amount.
-/

namespace RandomMachine

/-- Number of words of 64 bits. -/
def wordCount : Nat := 0x10000000000000000

/-- The low half of a word, read as a signed number. -/
def signedLow (word : UInt64) : Int := word.toUInt32.toInt32.toInt

/-- A word read as a signed number. -/
def signedWord (word : UInt64) : Int := word.toInt64.toInt

/-- Rotates a word to the left by less than 64 bits. -/
def rotateLeft (word amount : UInt64) : UInt64 :=
  (word <<< amount) ||| (word >>> (64 - amount))

/-- Rotates a word to the right by less than 64 bits. -/
def rotateRight (word amount : UInt64) : UInt64 :=
  (word >>> amount) ||| (word <<< (64 - amount))

/-- Result of an integer family; the float and control families have none. Specification,
section 4.4. -/
def Family.integerResult (family : Family) (a b : UInt64) : Option UInt64 :=
  let low := a.toUInt32
  let divisor := b.toUInt32
  let amount := b &&& 63
  match family with
  | .add64 => some (a + b)
  | .sub64 => some (a - b)
  | .mul64 => some (a * b)
  | .and64 => some (a &&& b)
  | .or64 => some (a ||| b)
  | .xor64 => some (a ^^^ b)
  | .add32 => some (low + b.toUInt32).toUInt64
  | .sub32 => some (low - b.toUInt32).toUInt64
  | .and32 => some (low &&& b.toUInt32).toUInt64
  | .or32 => some (low ||| b.toUInt32).toUInt64
  | .xor32 => some (low ^^^ b.toUInt32).toUInt64
  | .mulh64 => some (UInt64.ofNat (a.toNat * b.toNat / wordCount))
  | .mul32 => some (low.toUInt64 * b.toUInt32.toUInt64)
  | .imul32 => some (UInt64.ofInt (signedLow a * signedLow b))
  | .imulh64 => some (UInt64.ofInt (signedWord a * signedWord b / wordCount))
  | .div64 => some (a / (if divisor = 0 then 1 else divisor.toUInt64))
  | .idiv64 =>
    some (UInt64.ofInt ((signedWord a).tdiv (if divisor = 0 then 1 else signedLow b)))
  | .shl64 => some (a <<< amount)
  | .shr64 => some (a >>> amount)
  | .sar64 => some (a.toInt64 >>> amount.toInt64).toUInt64
  | .rol64 => some (rotateLeft a amount)
  | .ror64 => some (rotateRight a amount)
  | .fadd | .fsub | .fmul | .fdiv | .fsqrt | .fround | .call | .ret => none

end RandomMachine
