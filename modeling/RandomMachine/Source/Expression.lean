import RandomMachine.Cell
import RandomMachine.Location
import RandomMachine.Numeral
import RandomMachine.OperandType

/-!
# C expressions of operands

The expressions that stand for operands in emitted C: members of memory cells, registers, casts
and literals. An expression is built first and printed afterwards, so that what it denotes can be
said without reading its text. What a cell is called is left open.
-/

namespace RandomMachine.Source

/-- A member of the union that a memory cell is in emitted C. -/
inductive Member
  | double
  | int64
  | uint64
  | int32
  | uint32
  deriving DecidableEq, Repr

/-- Name of a member. -/
def Member.name : Member → String
  | .double => "f64"
  | .int64 => "i64"
  | .uint64 => "u64"
  | .int32 => "i32"
  | .uint32 => "u32"

/-- The mark after an integer literal that fixes its type. -/
inductive Suffix
  | int
  | unsigned
  | longLong
  | unsignedLongLong
  deriving DecidableEq, Repr

/-- Text of a mark. -/
def Suffix.text : Suffix → String
  | .int => ""
  | .unsigned => "U"
  | .longLong => "LL"
  | .unsignedLongLong => "ULL"

/-- An operand in emitted C, over some way of naming cells. -/
inductive Expression (Cell : Type)
  | member (cell : Cell) (part : Member)
  | register (number : UInt8)
  | floatRegister (number : UInt8)
  | toDouble (operand : Expression Cell)
  | toInt64 (operand : Expression Cell)
  | lowSixBits (operand : Expression Cell)
  | literal (value : Int) (suffix : Suffix)
  | doubleOfBits (bits : UInt64)
  deriving DecidableEq, Repr

/-- Name of an integer register. -/
def registerName (number : UInt8) : String := "r" ++ Numeral.decimal number.toNat

/-- Name of a float register, read and written as a double. -/
def floatRegisterName (number : UInt8) : String := "f" ++ Numeral.decimal number.toNat ++ ".f64"

/-- Text of a cell's member. -/
def memberText (cell : String) (part : Member) : String := cell ++ "." ++ part.name

/-- Text of an expression, given the texts of cells. -/
def Expression.text {Cell : Type} (cellText : Cell → String) : Expression Cell → String
  | .member cell part => memberText (cellText cell) part
  | .register number => registerName number
  | .floatRegister number => floatRegisterName number
  | .toDouble operand => "(double)" ++ operand.text cellText
  | .toInt64 operand => "(int64_t)" ++ operand.text cellText
  | .lowSixBits operand => "(" ++ operand.text cellText ++ " & 63)"
  | .literal value suffix => Numeral.signed value ++ suffix.text
  | .doubleOfBits bits =>
    "((convertible_t)\x7b .u64 = 0x" ++ Numeral.hexDigits 16 bits.toNat ++ "ULL \x7d).f64"

end Source

namespace OperandType

open Source

/-- The C type of variables that hold operands of a type. -/
def cType : OperandType → String
  | .int32 | .shift => "int32_t"
  | .uint32 => "uint32_t"
  | .int64 => "int64_t"
  | .uint64 => "uint64_t"
  | .float => "double"

/-- How a cell is read under a type: doubles are converted from signed integers. Specification,
section E5. -/
def ofCell {Cell : Type} (type : OperandType) (cell : Cell) : Expression Cell :=
  match type with
  | .int32 => .member cell .int32
  | .uint32 => .member cell .uint32
  | .int64 => .member cell .int64
  | .uint64 => .member cell .uint64
  | .float => .toDouble (.member cell .int64)
  | .shift => .lowSixBits (.member cell .uint64)

/-- How a register is read under a type. Specification, sections 4.2 and E5. -/
def ofRegister {Cell : Type} (type : OperandType) (number : UInt8) : Expression Cell :=
  match type with
  | .int32 | .int64 => .toInt64 (.register number)
  | .uint32 | .uint64 => .register number
  | .float => .floatRegister number
  | .shift => .lowSixBits (.register number)

/-- The member that is written for a result of a type. Specification, section E5. -/
def writtenMember : OperandType → Member
  | .int32 => .int32
  | .uint32 => .uint32
  | .int64 => .int64
  | .uint64 | .shift => .uint64
  | .float => .double

end OperandType

namespace Source

/-- The literal of a scalar. Specification, section E5. -/
def ofScalar {Cell : Type} : Scalar → Expression Cell
  | .int32 value | .shift value => .literal value.toInt .int
  | .int64 value => .literal value.toInt .longLong
  | .uint32 value => .literal value.toNat .unsigned
  | .uint64 value => .literal value.toNat .unsignedLongLong
  | .double value => .doubleOfBits value.bits

/-- The variable that holds the address of operand A. -/
def addressVariable : String := "addr"

/-- The macro that selects a cell of a window. -/
def windowMacro : Window → String
  | .l1 => "SCRATCHPAD_16K"
  | .l2 => "SCRATCHPAD_256K"

/-- Text of the cell that operand A is read from. -/
def sourceText : SourceA → String
  | .dram => "readDram(&mmu, " ++ addressVariable ++ ")"
  | .scratchpad window => windowMacro window ++ "(" ++ addressVariable ++ ")"

/-- What a result is assigned to. -/
inductive Place
  | register (number : UInt8)
  | floatRegister (number : UInt8)
  | cell (window : Window) (base : UInt8) (address : UInt32) (part : Member)
  deriving DecidableEq, Repr

/-- Text of a place. -/
def Place.text : Place → String
  | .register number => registerName number
  | .floatRegister number => floatRegisterName number
  | .cell window base address part =>
    memberText (windowMacro window ++ "(" ++ registerName base ++ " ^ " ++
      Numeral.decimal address.toNat ++ "U)") part

/-- A test that the low half of a register is at most a constant. -/
structure Condition where
  register : UInt8
  bound : UInt32
  deriving DecidableEq, Repr

/-- Text of a condition. -/
def Condition.text (condition : Condition) : String :=
  "(uint32_t)" ++ registerName condition.register ++ " <= " ++
    Numeral.decimal condition.bound.toNat ++ "U"

end Source

/-- The register that a result of a type is assigned to. -/
def OperandType.registerPlace (type : OperandType) (number : UInt8) : Source.Place :=
  if type.isFloat then .floatRegister number else .register number

namespace Instruction

open Source

/-- Operand A of an instruction under a type. Specification, section 4.3. -/
def operandA (d : Instruction) (type : OperandType) : Expression SourceA := type.ofCell d.sourceA

/-- Operand B of an instruction under a type. Specification, section 4.3. -/
def operandB (d : Instruction) (type : OperandType) : Expression SourceA :=
  match d.sourceB with
  | .register number => type.ofRegister number
  | .immediate => ofScalar (d.immediateAs type)

/-- What the result of an instruction is assigned to under a type. Specification, section 4.3. -/
def place (d : Instruction) (type : OperandType) : Place :=
  match d.destination with
  | .register number => type.registerPlace number
  | .scratchpad window register address => .cell window register address type.writtenMember

/-- The condition of a call or return; an immediate operand B leaves it without one. Specification,
section 4.4. -/
def branchCondition (d : Instruction) : Option Condition :=
  match d.sourceB with
  | .register number => some ⟨number, d.immediate⟩
  | .immediate => none

end Instruction
end RandomMachine
