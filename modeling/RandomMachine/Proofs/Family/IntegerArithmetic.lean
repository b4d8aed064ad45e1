import Mathlib.Algebra.Group.Int.Defs
import Mathlib.Algebra.Group.Nat.Defs
import RandomMachine.Family.Integer

/-!
# Arithmetic of the integer families

What the words that the integer families compute are as numbers. Sums, differences and products are
taken modulo `2 ^ 64` or `2 ^ 32`; the high halves of products complete the low ones; divisions and
shifts round as their signedness asks for; and the two rotations undo each other.
-/

namespace RandomMachine

/-! ### Words as numbers -/

/-- The number that some bits stand for in two's complement. -/
def twosComplement (width bits : Nat) : Int := (bits : Int).bmod (2 ^ width)

/-- The low half of a word as a number. -/
def lowHalf (word : UInt64) : Nat := word.toNat % 2 ^ 32

/-- The low half of a word, cut out. -/
theorem toNat_toUInt32_eq (word : UInt64) : word.toUInt32.toNat = lowHalf word :=
  word.toNat_toUInt32

/-- The low half of a word, widened again. -/
theorem toNat_toUInt64_toUInt32 (word : UInt64) :
    word.toUInt32.toUInt64.toNat = lowHalf word := by
  rw [UInt32.toNat_toUInt64, toNat_toUInt32_eq]

/-- The signed reading of a word is two's complement. -/
theorem signedWord_eq (word : UInt64) : signedWord word = twosComplement 64 word.toNat :=
  word.toBitVec.toInt_eq_toNat_bmod

/-- The signed reading of a low half is two's complement. -/
theorem signedLow_eq (word : UInt64) : signedLow word = twosComplement 32 (lowHalf word) := by
  rw [← toNat_toUInt32_eq]
  exact word.toUInt32.toBitVec.toInt_eq_toNat_bmod

/-- A word of 64 bits stands for a number of 64 bits. -/
theorem twosComplement_word_bounds (word : UInt64) :
    -2 ^ 63 ≤ twosComplement 64 word.toNat ∧ twosComplement 64 word.toNat < 2 ^ 63 := by
  rw [← signedWord_eq]
  exact ⟨word.toInt64.le_toInt, word.toInt64.toInt_lt⟩

/-- The signed reading of a word is the word modulo `2 ^ 64`. -/
theorem twosComplement_emod (word : UInt64) :
    twosComplement 64 word.toNat % 2 ^ 64 = word.toNat := by
  have hlt := word.toNat_lt
  have hmod : twosComplement 64 word.toNat % 2 ^ 64 = (word.toNat : Int) % 2 ^ 64 := Int.bmod_emod
  omega

/-- The word of a number is the number modulo `2 ^ 64`. -/
theorem natCast_toNat_ofInt (n : Int) : ((UInt64.ofInt n).toNat : Int) = n % 2 ^ 64 := by
  rw [UInt64.ofInt, UInt64.toNat_ofNat']
  omega

/-- The word of a number stands for this number exactly if it has 64 bits. -/
theorem twosComplement_ofInt_iff (n : Int) :
    twosComplement 64 (UInt64.ofInt n).toNat = n ↔ -2 ^ 63 ≤ n ∧ n < 2 ^ 63 := by
  constructor
  · intro h
    rw [← h]
    exact twosComplement_word_bounds _
  · intro h
    rw [twosComplement, natCast_toNat_ofInt]
    refine (Int.emod_bmod n (2 ^ 64)).trans (Int.bmod_eq_of_le ?_ ?_)
    all_goals omega

/-! ### Products and quotients -/

/-- The high half of a product of words fits in a word. -/
theorem toNat_ofNat_mul_div (a b : UInt64) :
    (UInt64.ofNat (a.toNat * b.toNat / wordCount)).toNat = a.toNat * b.toNat / 2 ^ 64 := by
  apply UInt64.toNat_ofNat_of_lt'
  rw [Nat.div_lt_iff_lt_mul (by decide)]
  exact Nat.mul_lt_mul'' a.toNat_lt b.toNat_lt

/-- The product of two low halves fits in a word. -/
theorem toNat_mul_low (a b : UInt64) :
    (a.toUInt32.toUInt64 * b.toUInt32.toUInt64).toNat = lowHalf a * lowHalf b := by
  have ha : lowHalf a < 2 ^ 32 := Nat.mod_lt _ (by decide)
  have hb : lowHalf b < 2 ^ 32 := Nat.mod_lt _ (by decide)
  have hmul : lowHalf a * lowHalf b < 2 ^ 32 * 2 ^ 32 := Nat.mul_lt_mul'' ha hb
  rw [UInt64.toNat_mul, toNat_toUInt64_toUInt32, toNat_toUInt64_toUInt32]
  exact Nat.mod_eq_of_lt hmul

/-- What unsigned division divides by: the low half of operand B, or one for zero. -/
def unsignedDivisor (b : UInt64) : Nat := if lowHalf b = 0 then 1 else lowHalf b

/-- What signed division divides by: the low half of operand B with its sign, or one for zero. -/
def signedDivisor (b : UInt64) : Int :=
  if lowHalf b = 0 then 1 else twosComplement 32 (lowHalf b)

/-- A low half is zero as a word exactly if it is zero as a number. -/
theorem toUInt32_eq_zero_iff (b : UInt64) : b.toUInt32 = 0 ↔ lowHalf b = 0 := by
  rw [← toNat_toUInt32_eq, ← UInt32.toNat_inj]
  rfl

/-- The divisor of unsigned division as a word. -/
theorem toNat_unsignedDivisor (b : UInt64) :
    (if b.toUInt32 = 0 then 1 else b.toUInt32.toUInt64).toNat = unsignedDivisor b := by
  unfold unsignedDivisor
  simp only [← toUInt32_eq_zero_iff]
  split
  · rfl
  · exact toNat_toUInt64_toUInt32 b

/-- The divisor of signed division as a number. -/
theorem signedDivisor_eq (b : UInt64) :
    (if b.toUInt32 = 0 then 1 else signedLow b) = signedDivisor b := by
  unfold signedDivisor
  simp only [← toUInt32_eq_zero_iff, signedLow_eq]

/-- No divisor is zero. -/
theorem unsignedDivisor_pos (b : UInt64) : 0 < unsignedDivisor b := by
  unfold unsignedDivisor
  split
  · exact Nat.one_pos
  · omega

/-- A quotient of a number of 64 bits has 64 bits as well, unless it is the least number divided by
minus one. -/
theorem tdiv_bounds_iff {a d : Int} (hlow : -2 ^ 63 ≤ a) (hhigh : a < 2 ^ 63) :
    -2 ^ 63 ≤ a.tdiv d ∧ a.tdiv d < 2 ^ 63 ↔ ¬(a = -2 ^ 63 ∧ d = -1) := by
  constructor
  · rintro ⟨-, hlt⟩ ⟨rfl, rfl⟩
    exact absurd hlt (by decide)
  · intro hne
    have habs : (a.tdiv d).natAbs = a.natAbs / d.natAbs := Int.natAbs_tdiv a d
    by_cases hone : d = 1
    · rw [hone, Int.tdiv_one]
      exact ⟨hlow, hhigh⟩
    by_cases hminus : d = -1
    · rw [hminus, Int.tdiv_neg, Int.tdiv_one]
      omega
    -- Every other divisor at least halves the magnitude, or is zero and leaves nothing.
    have hhalf : a.natAbs / d.natAbs ≤ a.natAbs / 2 := by
      by_cases hzero : d = 0
      · rw [hzero, Int.natAbs_zero, Nat.div_zero]
        exact Nat.zero_le _
      · exact Nat.div_le_div_left (by omega) (by decide)
    omega

/-! ### Shifts and rotations -/

/-- Shift amounts are taken modulo 64. -/
theorem toNat_amount (b : UInt64) : (b &&& 63).toNat = b.toNat % 64 :=
  (UInt64.toNat_and b 63).trans (Nat.and_two_pow_sub_one_eq_mod b.toNat 6)

/-- A shift to the left multiplies modulo `2 ^ 64`. -/
theorem toNat_shiftLeft_amount (a b : UInt64) :
    (a <<< (b &&& 63)).toNat = a.toNat * 2 ^ (b.toNat % 64) % 2 ^ 64 := by
  rw [UInt64.toNat_shiftLeft, toNat_amount, Nat.mod_mod, Nat.shiftLeft_eq]

/-- A shift to the right divides. -/
theorem toNat_shiftRight_amount (a b : UInt64) :
    (a >>> (b &&& 63)).toNat = a.toNat / 2 ^ (b.toNat % 64) := by
  rw [UInt64.toNat_shiftRight, toNat_amount, Nat.mod_mod, Nat.shiftRight_eq_div_pow]

/-- The amount of an arithmetic shift is less than 64 and has no sign. -/
theorem toNat_smod_amount (b : UInt64) :
    ((b &&& 63).toInt64.toBitVec.smod 64).toNat = b.toNat % 64 := by
  have hall : ∀ k : Fin 64, ((BitVec.ofNat 64 k).smod 64).toNat = k := by decide
  have hword : (b &&& 63).toBitVec = BitVec.ofNat 64 (b.toNat % 64) := by
    apply BitVec.eq_of_toNat_eq
    rw [UInt64.toNat_toBitVec, toNat_amount, BitVec.toNat_ofNat]
    omega
  change ((b &&& 63).toBitVec.smod 64).toNat = _
  rw [hword]
  exact hall ⟨b.toNat % 64, Nat.mod_lt _ (by decide)⟩

/-- An arithmetic shift to the right divides the signed reading and rounds down. -/
theorem signedWord_shiftRight (a b : UInt64) :
    signedWord (a.toInt64 >>> (b &&& 63).toInt64).toUInt64 =
      (signedWord a).fdiv (2 ^ (b.toNat % 64)) := by
  change (a.toInt64 >>> (b &&& 63).toInt64).toBitVec.toInt = _
  rw [Int64.toBitVec_shiftRight, BitVec.sshiftRight_eq', BitVec.toInt_sshiftRight,
    toNat_smod_amount, Int.shiftRight_eq_div_pow, Int.natCast_pow,
    Int.fdiv_eq_ediv_of_nonneg _ (Int.pow_nonneg (by decide))]
  rfl

/-- The shift back of a rotation takes the rest of the word, or none of it as all of it. -/
theorem toNat_sub_amount (b : UInt64) :
    (64 - (b &&& 63)).toNat % 64 = (64 - b.toNat % 64) % 64 := by
  rw [UInt64.toNat_sub_of_le, toNat_amount]
  · rfl
  · rw [UInt64.le_iff_toNat_le, toNat_amount]
    exact Nat.le_of_lt (Nat.mod_lt _ (by decide))

/-- A rotation to the left rotates bits. -/
theorem toBitVec_rotateLeft (a b : UInt64) :
    (rotateLeft a (b &&& 63)).toBitVec = a.toBitVec.rotateLeft (b.toNat % 64) := by
  apply BitVec.eq_of_toNat_eq
  rw [BitVec.toNat_rotateLeft, UInt64.toNat_toBitVec, UInt64.toNat_toBitVec, rotateLeft,
    UInt64.toNat_or, UInt64.toNat_shiftLeft, UInt64.toNat_shiftRight, toNat_sub_amount,
    toNat_amount, Nat.mod_mod]
  by_cases hzero : b.toNat % 64 = 0
  · simp [hzero, Nat.shiftRight_eq_div_pow, Nat.div_eq_of_lt a.toNat_lt]
  · rw [Nat.mod_eq_of_lt (show 64 - b.toNat % 64 < 64 by omega)]

/-- A rotation to the right rotates bits. -/
theorem toBitVec_rotateRight (a b : UInt64) :
    (rotateRight a (b &&& 63)).toBitVec = a.toBitVec.rotateRight (b.toNat % 64) := by
  apply BitVec.eq_of_toNat_eq
  rw [BitVec.toNat_rotateRight, UInt64.toNat_toBitVec, UInt64.toNat_toBitVec, rotateRight,
    UInt64.toNat_or, UInt64.toNat_shiftLeft, UInt64.toNat_shiftRight, toNat_sub_amount,
    toNat_amount, Nat.mod_mod]
  by_cases hzero : b.toNat % 64 = 0
  · simp [hzero, Nat.shiftLeft_eq]
  · rw [Nat.mod_eq_of_lt (show 64 - b.toNat % 64 < 64 by omega)]

/-- A rotation to the right undoes one to the left. -/
theorem rotateRight_rotateLeft (a b : UInt64) :
    rotateRight (rotateLeft a (b &&& 63)) (b &&& 63) = a := by
  apply UInt64.toBitVec_inj.mp
  rw [toBitVec_rotateRight, toBitVec_rotateLeft]
  ext i hi
  rw [BitVec.getElem_rotateRight]
  split
  · rw [BitVec.getElem_rotateLeft, dif_neg (by omega)]
    congr 1
    omega
  · rw [BitVec.getElem_rotateLeft, dif_pos (by omega)]
    congr 1
    omega

/-- A rotation to the left undoes one to the right. -/
theorem rotateLeft_rotateRight (a b : UInt64) :
    rotateLeft (rotateRight a (b &&& 63)) (b &&& 63) = a := by
  apply UInt64.toBitVec_inj.mp
  rw [toBitVec_rotateLeft, toBitVec_rotateRight]
  ext i hi
  rw [BitVec.getElem_rotateLeft]
  split
  · rw [BitVec.getElem_rotateRight, dif_neg (by omega)]
    congr 1
    omega
  · rw [BitVec.getElem_rotateRight, dif_pos (by omega)]
    congr 1
    omega

/-! ### All families -/

/-- What a result of an integer family has to be, told by its number: `lowHalf` cuts the operands of
the 32-bit families, and `twosComplement` reads those of the signed ones. The high half of a product
and the rotations are told by the families that complete or undo them. -/
def Family.Computes (family : Family) (a b result : UInt64) : Prop :=
  let amount := b.toNat % 64
  match family with
  | .add64 => result.toNat = (a.toNat + b.toNat) % 2 ^ 64
  | .sub64 => (result.toNat : Int) = ((a.toNat : Int) - b.toNat) % 2 ^ 64
  | .and64 => result.toNat = a.toNat &&& b.toNat
  | .or64 => result.toNat = a.toNat ||| b.toNat
  | .xor64 => result.toNat = a.toNat ^^^ b.toNat
  | .add32 => result.toNat = (lowHalf a + lowHalf b) % 2 ^ 32
  | .sub32 => (result.toNat : Int) = ((lowHalf a : Int) - lowHalf b) % 2 ^ 32
  | .and32 => result.toNat = lowHalf a &&& lowHalf b
  | .or32 => result.toNat = lowHalf a ||| lowHalf b
  | .xor32 => result.toNat = lowHalf a ^^^ lowHalf b
  | .mul64 => result.toNat = a.toNat * b.toNat % 2 ^ 64
  | .mulh64 => ∃ low, mul64.integerResult a b = some low ∧
      result.toNat * 2 ^ 64 + low.toNat = a.toNat * b.toNat
  | .imulh64 => (result.toNat : Int) =
      (twosComplement 64 a.toNat * twosComplement 64 b.toNat).fdiv (2 ^ 64) % 2 ^ 64
  | .mul32 => result.toNat = lowHalf a * lowHalf b
  | .imul32 => (result.toNat : Int) =
      twosComplement 32 (lowHalf a) * twosComplement 32 (lowHalf b) % 2 ^ 64
  | .div64 => ∃ rest, a.toNat = result.toNat * unsignedDivisor b + rest ∧ rest < unsignedDivisor b
  | .idiv64 =>
    let quotient := (twosComplement 64 a.toNat).tdiv (signedDivisor b)
    (result.toNat : Int) = quotient % 2 ^ 64 ∧
      (twosComplement 64 result.toNat = quotient ↔
        ¬(twosComplement 64 a.toNat = -2 ^ 63 ∧ signedDivisor b = -1))
  | .shl64 => result.toNat = a.toNat * 2 ^ amount % 2 ^ 64
  | .shr64 => result.toNat = a.toNat / 2 ^ amount
  | .sar64 => (result.toNat : Int) = (twosComplement 64 a.toNat).fdiv (2 ^ amount) % 2 ^ 64
  | .rol64 => ror64.integerResult result b = some a ∧
      (amount = 0 → result = a) ∧
      (0 < amount → ∃ shifted, shl64.integerResult a b = some shifted ∧
        result.toNat = shifted.toNat ||| a.toNat / 2 ^ (64 - amount))
  | .ror64 => rol64.integerResult result b = some a
  | .fadd | .fsub | .fmul | .fdiv | .fsqrt | .fround | .call | .ret => False

namespace Family

/-- The high half of an unsigned product completes its low half. -/
theorem computes_mulh64 (a b : UInt64) :
    mulh64.Computes a b (.ofNat (a.toNat * b.toNat / wordCount)) := by
  refine ⟨a * b, rfl, ?_⟩
  rw [toNat_ofNat_mul_div, UInt64.toNat_mul]
  exact Nat.div_add_mod' _ _

/-- The high half of a signed product is rounded down. -/
theorem computes_imulh64 (a b : UInt64) :
    imulh64.Computes a b (.ofInt (signedWord a * signedWord b / wordCount)) := by
  change _ = Int.fdiv _ _ % _
  rw [natCast_toNat_ofInt, signedWord_eq, signedWord_eq,
    Int.fdiv_eq_ediv_of_nonneg _ (by decide)]
  rfl

/-- Unsigned division leaves a rest below its divisor. -/
theorem computes_div64 (a b : UInt64) :
    div64.Computes a b (a / (if b.toUInt32 = 0 then 1 else b.toUInt32.toUInt64)) := by
  refine ⟨a.toNat % unsignedDivisor b, ?_, Nat.mod_lt _ (unsignedDivisor_pos b)⟩
  rw [UInt64.toNat_div, toNat_unsignedDivisor]
  exact (Nat.div_add_mod' _ _).symm

/-- Signed division rounds towards zero, and only the least number divided by minus one wraps. -/
theorem computes_idiv64 (a b : UInt64) :
    idiv64.Computes a b
      (.ofInt ((signedWord a).tdiv (if b.toUInt32 = 0 then 1 else signedLow b))) := by
  obtain ⟨hlow, hhigh⟩ := twosComplement_word_bounds a
  rw [signedWord_eq, signedDivisor_eq]
  exact ⟨natCast_toNat_ofInt _, (twosComplement_ofInt_iff _).trans (tdiv_bounds_iff hlow hhigh)⟩

/-- An arithmetic shift to the right rounds down. -/
theorem computes_sar64 (a b : UInt64) :
    sar64.Computes a b (a.toInt64 >>> (b &&& 63).toInt64).toUInt64 := by
  change _ = Int.fdiv _ _ % _
  rw [← signedWord_eq, ← signedWord_shiftRight, signedWord_eq, twosComplement_emod]

/-- A rotation to the left is put together from two shifts. -/
theorem computes_rol64 (a b : UInt64) : rol64.Computes a b (rotateLeft a (b &&& 63)) := by
  refine ⟨congrArg some (rotateRight_rotateLeft a b), ?_, ?_⟩
  · intro hzero
    apply UInt64.toBitVec_inj.mp
    rw [toBitVec_rotateLeft, hzero]
    ext i hi
    rw [BitVec.getElem_rotateLeft, dif_neg (by omega)]
    rfl
  · intro hpos
    refine ⟨a <<< (b &&& 63), rfl, ?_⟩
    rw [rotateLeft, UInt64.toNat_or, UInt64.toNat_shiftRight a, toNat_sub_amount,
      Nat.mod_eq_of_lt (by omega), Nat.shiftRight_eq_div_pow]

/-- The integer families compute exactly, whatever their operands are; the float and control
families have no integer result. -/
theorem integerResult_exact (family : Family) (a b : UInt64) :
    (∃ result, family.integerResult a b = some result ∧ family.Computes a b result) ∨
      (family.familyClass = .float ∨ family.familyClass = .control) ∧
        family.integerResult a b = none := by
  cases family with
  | add64 => exact .inl ⟨_, rfl, UInt64.toNat_add a b⟩
  | sub64 =>
    refine .inl ⟨_, rfl, ?_⟩
    have ha := a.toNat_lt
    have hb := b.toNat_lt
    rw [Computes, UInt64.toNat_sub]
    omega
  | and64 => exact .inl ⟨_, rfl, UInt64.toNat_and a b⟩
  | or64 => exact .inl ⟨_, rfl, UInt64.toNat_or a b⟩
  | xor64 => exact .inl ⟨_, rfl, UInt64.toNat_xor a b⟩
  | add32 =>
    refine .inl ⟨_, rfl, ?_⟩
    rw [Computes, UInt32.toNat_toUInt64, UInt32.toNat_add, toNat_toUInt32_eq, toNat_toUInt32_eq]
  | sub32 =>
    refine .inl ⟨_, rfl, ?_⟩
    have ha : lowHalf a < 2 ^ 32 := Nat.mod_lt _ (by decide)
    have hb : lowHalf b < 2 ^ 32 := Nat.mod_lt _ (by decide)
    rw [Computes, UInt32.toNat_toUInt64, UInt32.toNat_sub, toNat_toUInt32_eq, toNat_toUInt32_eq]
    omega
  | and32 =>
    refine .inl ⟨_, rfl, ?_⟩
    rw [Computes, UInt32.toNat_toUInt64, UInt32.toNat_and, toNat_toUInt32_eq, toNat_toUInt32_eq]
  | or32 =>
    refine .inl ⟨_, rfl, ?_⟩
    rw [Computes, UInt32.toNat_toUInt64, UInt32.toNat_or, toNat_toUInt32_eq, toNat_toUInt32_eq]
  | xor32 =>
    refine .inl ⟨_, rfl, ?_⟩
    rw [Computes, UInt32.toNat_toUInt64, UInt32.toNat_xor, toNat_toUInt32_eq, toNat_toUInt32_eq]
  | mul64 => exact .inl ⟨_, rfl, UInt64.toNat_mul a b⟩
  | mulh64 => exact .inl ⟨_, rfl, computes_mulh64 a b⟩
  | imulh64 => exact .inl ⟨_, rfl, computes_imulh64 a b⟩
  | mul32 => exact .inl ⟨_, rfl, toNat_mul_low a b⟩
  | imul32 =>
    refine .inl ⟨_, rfl, ?_⟩
    rw [Computes, natCast_toNat_ofInt, signedLow_eq, signedLow_eq]
  | div64 => exact .inl ⟨_, rfl, computes_div64 a b⟩
  | idiv64 => exact .inl ⟨_, rfl, computes_idiv64 a b⟩
  | shl64 => exact .inl ⟨_, rfl, toNat_shiftLeft_amount a b⟩
  | shr64 => exact .inl ⟨_, rfl, toNat_shiftRight_amount a b⟩
  | sar64 => exact .inl ⟨_, rfl, computes_sar64 a b⟩
  | rol64 => exact .inl ⟨_, rfl, computes_rol64 a b⟩
  | ror64 => exact .inl ⟨_, rfl, congrArg some (rotateLeft_rotateRight a b)⟩
  | fadd | fsub | fmul | fdiv | fsqrt | fround => exact .inr ⟨.inl rfl, rfl⟩
  | call | ret => exact .inr ⟨.inr rfl, rfl⟩

/-- The quotient that wraps: the least number divided by minus one. -/
example : idiv64.integerResult 0x8000000000000000 0xFFFFFFFF = some 0x8000000000000000 := by
  decide

end Family
end RandomMachine
