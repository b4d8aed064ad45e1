import RandomMachine.Proofs.Source.Meaning
import RandomMachine.Proofs.Source.Reading

/-!
# Conversions of operands

The steps from an operand text to a value: conversions between the integer types, literals with
their sign, members of cells, and cells of windows.
-/

namespace RandomMachine.Source

/-! ### Words of integers -/

/-- The bits of the word of an integer. -/
theorem toBitVec_ofInt (value : Int) : (UInt64.ofInt value).toBitVec = BitVec.ofInt 64 value := by
  apply BitVec.eq_of_toNat_eq
  rw [UInt64.toNat_toBitVec, UInt64.ofInt, UInt64.toNat_ofNat', BitVec.toNat_ofInt]
  omega

/-- The word of a natural number. -/
theorem ofInt_natCast (n : Nat) : UInt64.ofInt n = .ofNat n := by
  apply UInt64.toBitVec_inj.mp
  rw [toBitVec_ofInt, BitVec.ofInt_natCast]
  rfl

/-- The word of a signed number of 64 bits. -/
theorem ofInt_toInt (value : Int64) : UInt64.ofInt value.toInt = value.toUInt64 := by
  apply UInt64.toBitVec_inj.mp
  rw [toBitVec_ofInt, Int64.toInt, BitVec.ofInt_toInt]
  rfl

/-- The word of a signed number of 32 bits. -/
theorem ofInt_toInt_int32 (value : Int32) :
    UInt64.ofInt value.toInt = value.toInt64.toUInt64 := by
  rw [← ofInt_toInt, Int32.toInt_toInt64]

namespace IntegerType

/-- Extending the low half by its sign keeps the low half. -/
theorem toUInt32_extend_int32 (word : UInt64) : (int32.extend word).toUInt32 = word.toUInt32 :=
  toUInt32_signExtend word.toUInt32

/-- A value of a type is converted to itself. -/
theorem extend_extend (type : IntegerType) (word : UInt64) :
    type.extend (type.extend word) = type.extend word := by
  cases type with
  | int32 =>
    change (int32.extend word).toUInt32.toInt32.toInt64.toUInt64 = _
    rw [toUInt32_extend_int32]
    rfl
  | uint32 =>
    change word.toUInt32.toUInt64.toUInt32.toUInt64 = _
    rw [UInt32.toUInt32_toUInt64]
    rfl
  | int64 => rfl
  | uint64 => rfl

/-- Six bits are the same in every type. -/
theorem extend_low_six_bits (type : IntegerType) (word : UInt64) :
    type.extend (word &&& 63) = word &&& 63 := by
  have hlt : (word &&& 63).toNat < 64 := by
    rw [UInt64.toNat_and]
    exact Nat.lt_of_le_of_lt Nat.and_le_right (by decide)
  have hall : ∀ k : Fin 64, type.extend (.ofNat k) = .ofNat k := by cases type <;> decide
  have hword := hall ⟨_, hlt⟩
  rwa [UInt64.ofNat_toNat] at hword

/-- The low half of a word, kept as a word. -/
theorem extend_uint32 (word : UInt64) : uint32.extend word = word &&& 0xFFFFFFFF := by
  apply UInt64.toNat_inj.mp
  rw [extend, UInt32.toNat_toUInt64, UInt64.toNat_toUInt32, UInt64.toNat_and]
  exact (Nat.and_two_pow_sub_one_eq_mod word.toNat 32).symm

end IntegerType

/-! ### Literals -/

/-- A signed number of 32 bits is the extension of its bits. -/
theorem IntegerType.toUInt64_toInt64 (value : Int32) :
    value.toInt64.toUInt64 = int32.extend value.toUInt32.toUInt64 := by
  change _ = value.toUInt32.toUInt64.toUInt32.toInt32.toInt64.toUInt64
  rw [UInt32.toUInt32_toUInt64]
  rfl

/-- A signed number of 32 bits, extended by its sign. -/
theorem IntegerType.extend_toUInt64 (value : Int32) :
    int32.extend value.toInt64.toUInt64 = value.toInt64.toUInt64 := by
  rw [toUInt64_toInt64, extend_extend]

/-- The low half of a signed number of 32 bits is the number. -/
theorem IntegerType.toUInt32_toInt64 (value : Int32) :
    value.toInt64.toUInt64.toUInt32 = value.toUInt32 := by
  rw [toUInt64_toInt64, toUInt32_extend_int32, UInt32.toUInt32_toUInt64]

/-- Words below the sign bit stand for themselves. -/
theorem IntegerType.number_ofNat (type : IntegerType) {n : Nat} (h : n < 2 ^ 63) :
    type.number (.ofNat n) = n := by
  have hword : (UInt64.ofNat n).toNat = n := by
    rw [UInt64.toNat_ofNat']
    omega
  unfold number
  split
  · change (UInt64.ofNat n).toBitVec.toInt = n
    rw [BitVec.toInt_eq_toNat_of_lt, UInt64.toNat_toBitVec, hword]
    rw [UInt64.toNat_toBitVec, hword]
    omega
  · rw [hword]

/-- A constant has the first type with room for it. -/
theorem constantValue_eq {value : Nat} {radix : Radix} {suffix : Suffix} {type : IntegerType}
    {others : List IntegerType} (htypes : constantTypes radix suffix = type :: others)
    (h : value < type.limit) :
    constantValue value radix suffix = some (.integer type (.ofNat value)) := by
  simp [constantValue, htypes, h]

/-- The digits of a literal have a value of the type of their constant, and the sign changes it: the
literal has the number of that type that its value is. -/
theorem evaluate_literal (address : UInt32) (s : State) {value : Int} {suffix : Suffix}
    {type : IntegerType} (hroom : value.natAbs < 2 ^ 63)
    (hnatural : 0 ≤ value → type.extend (UInt64.ofInt value) = UInt64.ofInt value)
    (hconstant : constantValue value.natAbs .decimal suffix =
      some (.integer type (.ofNat value.natAbs))) :
    (Expression.literal value suffix).phrase.evaluate address s =
      some (.integer type (type.extend (UInt64.ofInt value)), s) := by
  rw [Expression.phrase]
  split
  · next hnegative =>
    have hnumber : type.number (.ofNat value.natAbs) ≠ -type.limit := by
      rw [type.number_ofNat hroom]
      have : 0 < type.limit := by cases type <;> decide
      omega
    have hword : -UInt64.ofNat value.natAbs = UInt64.ofInt value := by
      rw [← ofInt_natCast, ← UInt64.ofInt_neg]
      congr 1
      omega
    rw [← hword]
    simp [Phrase.evaluate, hconstant, Value.negate, hnumber]
  · next hnotNegative =>
    have hword : UInt64.ofNat value.natAbs = UInt64.ofInt value := by
      rw [← ofInt_natCast, Int.natAbs_of_nonneg (by omega)]
    rw [hnatural (by omega), ← hword]
    simp [Phrase.evaluate, hconstant]

/-- A literal of a signed number of 32 bits has this number as its value, in a wider type where its
digits alone do not fit that of 32 bits. -/
theorem evaluate_literal_int32 (address : UInt32) (s : State) (value : Int32) :
    ∃ type : IntegerType, type.isSigned = true ∧
      (Expression.literal value.toInt .int).phrase.evaluate address s =
        some (.integer type value.toInt64.toUInt64, s) := by
  have hlow := value.le_toInt
  have hhigh := value.toInt_lt
  have hword : IntegerType.int32.extend (UInt64.ofInt value.toInt) = UInt64.ofInt value.toInt := by
    rw [ofInt_toInt_int32, IntegerType.extend_toUInt64]
  by_cases h : value.toInt.natAbs < 2 ^ 31
  · have hconstant : constantValue value.toInt.natAbs .decimal .int = _ := constantValue_eq rfl h
    refine ⟨.int32, rfl, ?_⟩
    rw [evaluate_literal address s (by omega) (fun _ => hword) hconstant, hword, ofInt_toInt_int32]
  · have hwide : constantValue value.toInt.natAbs .decimal .int =
        some (.integer .int64 (.ofNat value.toInt.natAbs)) := by
      have hnot : ¬ value.toInt.natAbs < IntegerType.int32.limit := h
      have hroom : value.toInt.natAbs < IntegerType.int64.limit := by
        change _ < 2 ^ 63
        omega
      simp [constantValue, constantTypes, hnot, hroom]
    refine ⟨.int64, rfl, ?_⟩
    rw [evaluate_literal address s (by omega) (fun _ => rfl) hwide, ← ofInt_toInt_int32]
    rfl

/-- A literal of a signed number of 64 bits other than the least one has this number as its value.
-/
theorem evaluate_literal_int64 (address : UInt32) (s : State) {value : Int64}
    (h : value.toInt.natAbs < 2 ^ 63) :
    (Expression.literal value.toInt .longLong).phrase.evaluate address s =
      some (.integer .int64 value.toUInt64, s) := by
  have hconstant : constantValue value.toInt.natAbs .decimal .longLong = _ := constantValue_eq rfl h
  rw [evaluate_literal address s h (fun _ => rfl) hconstant, ← ofInt_toInt]
  rfl

/-- An unsigned constant of 32 bits has its digits' number as its value. -/
theorem evaluate_unsigned (address : UInt32) (s : State) (value : UInt32) :
    (Phrase.constant value.toNat .decimal .unsigned).evaluate address s =
      some (.integer .uint32 value.toUInt64, s) := by
  have hconstant : constantValue value.toNat .decimal .unsigned = _ :=
    constantValue_eq rfl value.toNat_lt
  rw [Phrase.evaluate, hconstant, ← UInt32.toNat_toUInt64, UInt64.ofNat_toNat]
  rfl

/-- A literal of an unsigned number of 32 bits has this number as its value. -/
theorem evaluate_literal_uint32 (address : UInt32) (s : State) (value : UInt32) :
    (Expression.literal value.toNat .unsigned).phrase.evaluate address s =
      some (.integer .uint32 value.toUInt64, s) := by
  have hnatural : ¬ (value.toNat : Int) < 0 := by omega
  rw [Expression.phrase, if_neg hnatural, Int.natAbs_natCast, evaluate_unsigned]

/-- A literal of an unsigned number of 64 bits has this number as its value. -/
theorem evaluate_literal_uint64 (address : UInt32) (s : State) (value : UInt64) :
    (Expression.literal value.toNat .unsignedLongLong).phrase.evaluate address s =
      some (.integer .uint64 value, s) := by
  have hconstant : constantValue value.toNat .decimal .unsignedLongLong = _ :=
    constantValue_eq rfl value.toNat_lt
  have hnatural : ¬ (value.toNat : Int) < 0 := by omega
  rw [Expression.phrase, if_neg hnatural, Int.natAbs_natCast, Phrase.evaluate, hconstant,
    UInt64.ofNat_toNat]
  rfl

/-! ### Members -/

/-- Bytes of a member, read as a word of its type. -/
theorem extend_readBytes (cell : Cell) (type : IntegerType) :
    type.extend (cell.readBytes type.size) = type.extend cell.bits := by
  cases type with
  | int32 =>
    change (cell.readBytes 4).toUInt32.toInt32.toInt64.toUInt64 = _
    rw [cell.readBytes_four, UInt32.toUInt32_toUInt64]
    rfl
  | uint32 =>
    change (cell.readBytes 4).toUInt32.toUInt64 = _
    rw [cell.readBytes_four, UInt32.toUInt32_toUInt64]
    rfl
  | int64 => exact cell.readBytes_eight
  | uint64 => exact cell.readBytes_eight

/-- The double member of a cell is its bits. -/
theorem loadMember_double (cell : Cell) : loadMember cell .double = .double cell.toBinary64 := by
  change Value.double ⟨cell.readBytes 8⟩ = _
  rw [cell.readBytes_eight]
  rfl

/-- An integer member of a cell is its low bits, extended by the type of the member. -/
theorem loadMember_integer (cell : Cell) {part : Member} {type : IntegerType}
    (h : part.type = .integer type) :
    loadMember cell part = .integer type (type.extend cell.bits) := by
  rw [loadMember, h]
  exact congrArg _ (extend_readBytes cell type)

/-! ### Cells of windows -/

/-- An address selects the cell of a window that its low half selects. -/
theorem cellIndex_eq (window : Window) (type : IntegerType) (word : UInt64) :
    cellIndex window (.integer type word) = some (window.index word.toUInt32) := by
  have hcommon : type.common .uint64 = .uint64 := by cases type <;> rfl
  have hmask : (word &&& windowMask window).toNat = (word.toUInt32 &&& window.mask).toNat := by
    rw [UInt64.toNat_and, UInt32.toNat_and, UInt64.toNat_toUInt32]
    cases window with
    | l1 =>
      change word.toNat &&& (2 ^ 11 - 1) = word.toNat % 2 ^ 32 &&& (2 ^ 11 - 1)
      rw [Nat.and_two_pow_sub_one_eq_mod, Nat.and_two_pow_sub_one_eq_mod]
      omega
    | l2 =>
      change word.toNat &&& (2 ^ 15 - 1) = word.toNat % 2 ^ 32 &&& (2 ^ 15 - 1)
      rw [Nat.and_two_pow_sub_one_eq_mod, Nat.and_two_pow_sub_one_eq_mod]
      omega
  have hindex : (word &&& windowMask window).toNat = (window.index word.toUInt32).val := hmask
  simp only [cellIndex, Operator.apply, hcommon, IntegerType.extend]
  rw [dif_pos (by rw [hindex]; exact (window.index _).isLt)]
  exact congrArg some (Fin.ext hindex)

end RandomMachine.Source
