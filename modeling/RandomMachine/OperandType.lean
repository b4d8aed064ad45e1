import RandomMachine.Error
import RandomMachine.Instruction
import RandomMachine.Scalar

/-!
# Operand types

An operand type says how wide an operand is, how it is extended, and what an immediate of it means.
-/

namespace RandomMachine

/-- The type under which an operand is read or a result is written. Specification, section 3. -/
inductive OperandType
  | int32
  | uint32
  | int64
  | uint64
  | float
  | shift
  deriving DecidableEq, Repr

namespace OperandType

/-- All types, in the order of their tags. -/
def all : List OperandType := [.int32, .uint32, .int64, .uint64, .float, .shift]

/-- The type with a numeric tag. -/
def ofTag (tag : UInt8) : Except Error OperandType :=
  match all[tag.toNat]? with
  | some type => .ok type
  | none => .error (.operandType tag)

/-- Name of a type. -/
def name : OperandType → String
  | .int32 => "INT32"
  | .uint32 => "UINT32"
  | .int64 => "INT64"
  | .uint64 => "UINT64"
  | .float => "FLOAT"
  | .shift => "SHIFT"

/-- Whether values of the type live in the float registers. -/
def isFloat (type : OperandType) : Bool := type == .float

end OperandType

/-- Bits of a float immediate: the immediate is the upper half of a double. Specification,
section E5. -/
def floatImmediateBits (immediate : UInt32) : UInt64 :=
  (signExtend immediate).toUInt64 <<< 32

/-- The immediate operand of an instruction under a type. Shift amounts are the short immediate
modulo 64; the signed types extend the immediate by its sign, the unsigned ones by zeros.
Specification, sections 4.2 and E5. -/
def Instruction.immediateAs (d : Instruction) : OperandType → Scalar
  | .int32 => .int32 d.immediate.toInt32
  | .uint32 => .uint32 d.immediate
  | .int64 => .int64 (signExtend d.immediate)
  | .uint64 => .uint64 d.immediate.toUInt64
  | .float => .double ⟨floatImmediateBits d.immediate⟩
  | .shift => .shift (d.shortImmediate.toUInt32 &&& 63).toInt32

end RandomMachine
