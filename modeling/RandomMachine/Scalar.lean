import RandomMachine.Binary64.Basic

/-!
# Scalars

The values that instructions compute with, each with its width and signedness.
-/

namespace RandomMachine

/-- A typed value. -/
inductive Scalar
  | int32 (value : Int32)
  | uint32 (value : UInt32)
  | int64 (value : Int64)
  | uint64 (value : UInt64)
  | double (value : Binary64)
  | shift (value : Int32)
  deriving DecidableEq, Repr

/-- The 64-bit word of a scalar: signed values are extended by their sign, and a double gives its
integer part within the signed range. -/
def Scalar.toUInt64 : Scalar → UInt64
  | .int32 value => value.toInt64.toUInt64
  | .uint32 value => value.toUInt64
  | .int64 value => value.toUInt64
  | .uint64 value => value
  | .double value => (Int64.ofInt value.truncate).toUInt64
  | .shift value => value.toInt64.toUInt64

/-- Reads 32 bits as a signed number of 64. -/
def signExtend (word : UInt32) : Int64 := word.toInt32.toInt64

/-- Extending by the sign keeps the low half. -/
theorem toUInt32_signExtend (word : UInt32) : (signExtend word).toUInt64.toUInt32 = word := by
  apply UInt32.toBitVec_inj.mp
  ext i hi
  change (BitVec.setWidth 32 (BitVec.signExtend 64 word.toBitVec))[i] = word.toBitVec[i]
  rw [BitVec.getElem_setWidth, BitVec.getLsbD_signExtend, if_pos hi,
    decide_eq_true (by omega : i < 64), Bool.true_and, BitVec.getLsbD_eq_getElem]

end RandomMachine
