import RandomMachine.Proofs.Source.Conversions

/-!
# Values of literals

What the literal of an immediate denotes: the very integer that the immediate is, in a type of C
that has room for it, or the double with its bits. Converting such a value to an integer type
depends on the integer alone, so it does not matter which type the literal has by itself.
-/

namespace RandomMachine

/-- The integer that a scalar is. A double is none. -/
def Scalar.integer? : Scalar → Option Int
  | .int32 value | .shift value => some value.toInt
  | .uint32 value => some value.toNat
  | .int64 value => some value.toInt
  | .uint64 value => some value.toNat
  | .double _ => none

namespace Source

/-- Whether a value of C is what a scalar is: the same integer, whatever their types are, or the
same double bit by bit. -/
def Value.Is : Value → Scalar → Prop
  | .integer type word, scalar => scalar.integer? = some (type.number word)
  | .double value, scalar => scalar = .double value
  | .cell _, _ => False

/-- A value of an integer type is the word of the number that it stands for. -/
theorem IntegerType.ofInt_number (type : IntegerType) (word : UInt64) :
    UInt64.ofInt (type.number word) = word := by
  unfold number
  split
  · exact ofInt_toInt word.toInt64
  · rw [ofInt_natCast, UInt64.ofNat_toNat]

/-- In signed types a number of 32 bits stands for itself. -/
theorem IntegerType.number_toUInt64 {type : IntegerType} (h : type.isSigned = true)
    (value : Int32) : type.number value.toInt64.toUInt64 = value.toInt := by
  rw [number, if_pos h]
  exact value.toInt_toInt64

/-- The word of a scalar is the word of its integer. -/
theorem toUInt64_of_integer {scalar : Scalar} {n : Int} (h : scalar.integer? = some n) :
    scalar.toUInt64 = UInt64.ofInt n := by
  cases scalar with
  | int32 value | shift value =>
    cases h
    exact (ofInt_toInt_int32 value).symm
  | uint32 value =>
    cases h
    rw [ofInt_natCast, ← UInt32.toNat_toUInt64, UInt64.ofNat_toNat]
    rfl
  | int64 value =>
    cases h
    exact (ofInt_toInt value).symm
  | uint64 value =>
    cases h
    rw [ofInt_natCast, UInt64.ofNat_toNat]
    rfl
  | double value => cases h

/-- A value that is an integer scalar is converted to an integer type as the scalar's word is. -/
theorem Value.Is.convert {value : Value} {scalar : Scalar} (h : value.Is scalar) {n : Int}
    (hinteger : scalar.integer? = some n) (mode : RoundingMode) (type : IntegerType) :
    value.convert mode (.integer type) = some (.integer type (type.extend scalar.toUInt64)) := by
  cases value with
  | integer other word =>
    have hword : scalar.toUInt64 = word := by rw [toUInt64_of_integer h, other.ofInt_number]
    rw [hword]
    rfl
  | double x =>
    cases (h : scalar = .double x)
    cases hinteger
  | cell content => exact absurd h id

/-- Only a double is a scalar that is a double. -/
theorem Value.Is.eq_double {value : Value} {x : Binary64} (h : value.Is (.double x)) :
    value = .double x := by
  cases value with
  | integer type word => cases h
  | double y => rw [Scalar.double.inj h]
  | cell content => exact absurd h id

/-- A literal of a double has the bits that it is written with. -/
theorem evaluate_doubleOfBits (address : UInt32) (s : State) (bits : UInt64) :
    (Expression.doubleOfBits bits).phrase.evaluate address s = some (.double ⟨bits⟩, s) := by
  have hconstant : constantValue bits.toNat .hexadecimal .unsignedLongLong = _ :=
    constantValue_eq rfl bits.toNat_lt
  rw [UInt64.ofNat_toNat] at hconstant
  have hcell : storeMember s.mode ⟨0⟩ .uint64 (.integer .uint64 bits) = some ⟨bits⟩ :=
    congrArg some (Cell.writeBytes_eight ⟨0⟩ bits)
  simp only [Expression.phrase, Phrase.evaluate, hconstant, Option.map_some, Option.bind_eq_bind,
    Option.bind_some, hcell, loadMember_double]
  rfl

/-- The literal of an immediate denotes the immediate, under every type. -/
theorem evaluate_immediate (d : Instruction) (type : OperandType) (address : UInt32) (s : State) :
    ∃ value, (ofScalar (d.immediateAs type) : Expression SourceA).phrase.evaluate address s =
      some (value, s) ∧ value.Is (d.immediateAs type) := by
  cases type with
  | int32 =>
    obtain ⟨type, hsigned, heval⟩ := evaluate_literal_int32 address s d.immediate.toInt32
    exact ⟨_, heval, congrArg some (type.number_toUInt64 hsigned _).symm⟩
  | uint32 =>
    exact ⟨_, evaluate_literal_uint32 address s d.immediate,
      congrArg (some ∘ Int.ofNat) (UInt32.toNat_toUInt64 _).symm⟩
  | int64 =>
    have hlow := d.immediate.toInt32.le_toInt
    have hhigh := d.immediate.toInt32.toInt_lt
    have hroom : (signExtend d.immediate).toInt.natAbs < 2 ^ 63 := by
      rw [signExtend, Int32.toInt_toInt64]
      omega
    exact ⟨_, evaluate_literal_int64 address s hroom, rfl⟩
  | uint64 => exact ⟨_, evaluate_literal_uint64 address s d.immediate.toUInt64, rfl⟩
  | float => exact ⟨_, evaluate_doubleOfBits address s _, rfl⟩
  | shift =>
    obtain ⟨type, hsigned, heval⟩ :=
      evaluate_literal_int32 address s (d.shortImmediate.toUInt32 &&& 63).toInt32
    exact ⟨_, heval, congrArg some (type.number_toUInt64 hsigned _).symm⟩

end Source
end RandomMachine
