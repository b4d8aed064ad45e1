import RandomMachine.Scalar

/-!
# Memory cells

A cell holds 64 bits without a type. It is read and written through members that overlap: the
32-bit members are its low half, so a 32-bit store keeps the high half.
-/

namespace RandomMachine

/-- Eight bytes of memory. Specification, section 4.2. -/
structure Cell where
  bits : UInt64
  deriving DecidableEq, Repr, Inhabited

namespace Cell

/-- The cell as an unsigned word. -/
def toUInt64 (cell : Cell) : UInt64 := cell.bits

/-- The cell as a signed word. -/
def toInt64 (cell : Cell) : Int64 := cell.bits.toInt64

/-- The low half of the cell. -/
def toUInt32 (cell : Cell) : UInt32 := cell.bits.toUInt32

/-- The low half of the cell as a signed number. -/
def toInt32 (cell : Cell) : Int32 := cell.bits.toUInt32.toInt32

/-- The cell as a double. -/
def toBinary64 (cell : Cell) : Binary64 := ⟨cell.bits⟩

/-- Replaces the low half and keeps the high one. -/
def withLow (cell : Cell) (low : UInt32) : Cell :=
  ⟨(cell.bits &&& 0xFFFFFFFF00000000) ||| low.toUInt64⟩

/-- The low half is the one that was written. -/
theorem toUInt32_withLow (cell : Cell) (low : UInt32) : (cell.withLow low).toUInt32 = low := by
  apply UInt32.eq_of_toBitVec_eq
  ext i
  simp [withLow, toUInt32]

/-- The high half stays what it was. -/
theorem high_withLow (cell : Cell) (low : UInt32) :
    (cell.withLow low).bits >>> 32 = cell.bits >>> 32 := by
  apply UInt64.toNat_inj.mp
  have hmask : 0xFFFFFFFF00000000 >>> 32 = 2 ^ 32 - 1 := by decide
  have hcell : cell.bits.toNat / 2 ^ 32 < 2 ^ 32 := by
    have := cell.bits.toNat_lt
    omega
  have hlow := low.toNat_lt
  simp only [withLow, UInt64.toNat_shiftRight, UInt64.toNat_or, UInt64.toNat_and,
    UInt32.toNat_toUInt64, UInt64.reduceToNat, Nat.shiftRight_or_distrib,
    Nat.shiftRight_and_distrib]
  rw [show (32 % 64 : Nat) = 32 from rfl, hmask, Nat.and_two_pow_sub_one_eq_mod,
    Nat.shiftRight_eq_div_pow, Nat.shiftRight_eq_div_pow, Nat.div_eq_of_lt hlow, Nat.or_zero,
    Nat.mod_eq_of_lt hcell]

/-- Writes a scalar: 32-bit values to the low half, all others to the whole cell. Specification,
section E5. -/
def store (cell : Cell) : Scalar → Cell
  | .int32 value | .shift value => cell.withLow value.toUInt32
  | .uint32 value => cell.withLow value
  | .int64 value => ⟨value.toUInt64⟩
  | .uint64 value => ⟨value⟩
  | .double value => ⟨value.bits⟩

end Cell
end RandomMachine
