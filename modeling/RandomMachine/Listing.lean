import RandomMachine.Decimal.Layout
import RandomMachine.Family.Basic
import RandomMachine.Location

/-!
# Listings

One line of text for an instruction: its family, where the result goes, operand A, operand B, and
the condition of a call or return.
-/

namespace RandomMachine

/-- Float immediates are listed in scientific notation throughout. -/
def Listing.floatLayout : Decimal.Layout := ⟨.away, none, false⟩

namespace Instruction

/-- A register with the letter of its file. -/
def registerText (letter : String) (number : UInt8) : String :=
  letter ++ Numeral.decimal number.toNat

/-- A memory area with the register and constant that address it. -/
def areaText (area : String) (register : UInt8) (address : UInt32) : String :=
  "[" ++ area ++ " " ++ registerText "r" register ++ "^" ++ Numeral.hex address.toNat ++ "]"

/-- Operand A in a listing. -/
def operandAText (d : Instruction) : String :=
  match d.sourceA with
  | .dram => areaText "DRAM" d.registerA d.addressA
  | .scratchpad window => areaText window.name d.registerA d.addressA

/-- An immediate in a listing: signed numbers in decimal, unsigned ones in hexadecimal. -/
def immediateText : Scalar → String
  | .int32 value => Numeral.signed value.toInt
  | .int64 value => Numeral.signed value.toInt
  | .uint32 value => Numeral.hex value.toNat
  | .uint64 value => Numeral.hex value.toNat
  | .double value => Listing.floatLayout.write value
  | .shift value => "#" ++ Numeral.signed value.toInt

/-- The letter of the register file that holds values of a type. -/
def fileLetter (type : OperandType) : String := if type.isFloat then "f" else "r"

/-- Operand B in a listing. -/
def operandBText (d : Instruction) (type : OperandType) : String :=
  match d.sourceB with
  | .register number => registerText (fileLetter type) number
  | .immediate => immediateText (d.immediateAs type)

/-- The destination in a listing. -/
def destinationText (d : Instruction) (type : OperandType) : String :=
  match d.destination with
  | .register number => registerText (fileLetter type) number
  | .scratchpad window register address => areaText window.name register address

/-- The condition of a call or return in a listing; it is empty when there is none. -/
def conditionText (d : Instruction) : String :=
  match d.sourceB with
  | .register number =>
    ", if " ++ registerText "r" number ++ " <= " ++ Numeral.hex d.immediate.toNat
  | .immediate => ""

/-- Text of an instruction. Specification, section E11. -/
def listing (d : Instruction) : String :=
  let operands := d.destinationText d.family.signature.c ++ ", " ++ d.operandAText
  d.family.mnemonic ++ " " ++ operands ++
    match d.family with
    | .call => ", +" ++ Numeral.decimal d.shortImmediate.toNat ++ d.conditionText
    | .ret => d.conditionText
    | family =>
      match family.signature.b with
      | some type => ", " ++ d.operandBText type
      | none => ""

end Instruction
end RandomMachine
