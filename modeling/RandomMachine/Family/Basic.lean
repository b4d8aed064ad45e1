import RandomMachine.OperandType

/-!
# Instruction families

The opcode byte selects one of thirty families. Each family owns a run of consecutive opcodes, and
the runs cover the byte without gap or overlap, so every opcode has a family.
-/

namespace RandomMachine

/-- What an instruction does. Specification, section 4.4. -/
inductive Family
  | add64 | add32 | sub64 | sub32
  | mul64 | mulh64 | mul32 | imul32 | imulh64
  | div64 | idiv64
  | and64 | and32 | or64 | or32 | xor64 | xor32
  | shl64 | shr64 | sar64 | rol64 | ror64
  | fadd | fsub | fmul | fdiv | fsqrt | fround
  | call | ret
  deriving DecidableEq, Repr, Inhabited

/-- The kinds of families. Specification, section E6. -/
inductive FamilyClass
  | integer
  | multiply
  | divide
  | shift
  | float
  | control
  deriving DecidableEq, Repr

/-- The operand types of a family; some read no operand B. Specification, section E6. -/
structure Signature where
  a : OperandType
  b : Option OperandType
  c : OperandType
  deriving DecidableEq, Repr

/-- One type for all operands. -/
def Signature.uniform (type : OperandType) : Signature := ⟨type, some type, type⟩

namespace Family

/-- All families, in the order of their opcodes. -/
def all : List Family :=
  [.add64, .add32, .sub64, .sub32, .mul64, .mulh64, .mul32, .imul32, .imulh64, .div64, .idiv64,
    .and64, .and32, .or64, .or32, .xor64, .xor32, .shl64, .shr64, .sar64, .rol64, .ror64,
    .fadd, .fsub, .fmul, .fdiv, .fsqrt, .fround, .call, .ret]

/-- Position of a family among all families. -/
def index (family : Family) : Fin 30 := ⟨family.ctorIdx, by cases family <;> decide⟩

/-- First and last opcode of a family. Specification, section E6. -/
def opcodes : Family → UInt8 × UInt8
  | .add64 => (0, 13)
  | .add32 => (14, 20)
  | .sub64 => (21, 34)
  | .sub32 => (35, 41)
  | .mul64 => (42, 45)
  | .mulh64 => (46, 49)
  | .mul32 => (50, 53)
  | .imul32 => (54, 57)
  | .imulh64 => (58, 61)
  | .div64 => (62, 62)
  | .idiv64 => (63, 63)
  | .and64 => (64, 76)
  | .and32 => (77, 82)
  | .or64 => (83, 95)
  | .or32 => (96, 101)
  | .xor64 => (102, 115)
  | .xor32 => (116, 121)
  | .shl64 => (122, 128)
  | .shr64 => (129, 132)
  | .sar64 => (133, 135)
  | .rol64 => (136, 146)
  | .ror64 => (147, 157)
  | .fadd => (158, 175)
  | .fsub => (176, 193)
  | .fmul => (194, 211)
  | .fdiv => (212, 214)
  | .fsqrt => (215, 221)
  | .fround => (222, 223)
  | .call => (224, 240)
  | .ret => (241, 255)

/-- The family of an opcode: the first one whose run has not ended before it. -/
def ofOpcode (opcode : UInt8) : Family :=
  (all.find? fun family => decide (opcode ≤ family.opcodes.2)).getD .ret

/-- The list of all families has each family at its position. -/
theorem getElem?_all_index (family : Family) : all[family.index]? = some family := by
  cases family <;> rfl

set_option maxRecDepth 4000 in
/-- Every opcode lies in the run of its family. -/
theorem ofOpcode_mem_run (opcode : UInt8) :
    (ofOpcode opcode).opcodes.1 ≤ opcode ∧ opcode ≤ (ofOpcode opcode).opcodes.2 := by
  have h : ∀ n : Fin 256, (ofOpcode ⟨⟨n⟩⟩).opcodes.1 ≤ ⟨⟨n⟩⟩ ∧
      (⟨⟨n⟩⟩ : UInt8) ≤ (ofOpcode ⟨⟨n⟩⟩).opcodes.2 := by decide
  exact h opcode.toBitVec.toFin

/-- Name of a family. -/
def mnemonic : Family → String
  | .add64 => "ADD_64"
  | .add32 => "ADD_32"
  | .sub64 => "SUB_64"
  | .sub32 => "SUB_32"
  | .mul64 => "MUL_64"
  | .mulh64 => "MULH_64"
  | .mul32 => "MUL_32"
  | .imul32 => "IMUL_32"
  | .imulh64 => "IMULH_64"
  | .div64 => "DIV_64"
  | .idiv64 => "IDIV_64"
  | .and64 => "AND_64"
  | .and32 => "AND_32"
  | .or64 => "OR_64"
  | .or32 => "OR_32"
  | .xor64 => "XOR_64"
  | .xor32 => "XOR_32"
  | .shl64 => "SHL_64"
  | .shr64 => "SHR_64"
  | .sar64 => "SAR_64"
  | .rol64 => "ROL_64"
  | .ror64 => "ROR_64"
  | .fadd => "FADD"
  | .fsub => "FSUB"
  | .fmul => "FMUL"
  | .fdiv => "FDIV"
  | .fsqrt => "FSQRT"
  | .fround => "FROUND"
  | .call => "CALL"
  | .ret => "RET"

/-- The kind of a family. -/
def familyClass : Family → FamilyClass
  | .add64 | .add32 | .sub64 | .sub32 | .and64 | .and32 | .or64 | .or32 | .xor64 | .xor32 =>
    .integer
  | .mul64 | .mulh64 | .mul32 | .imul32 | .imulh64 => .multiply
  | .div64 | .idiv64 => .divide
  | .shl64 | .shr64 | .sar64 | .rol64 | .ror64 => .shift
  | .fadd | .fsub | .fmul | .fdiv | .fsqrt | .fround => .float
  | .call | .ret => .control

/-- The operand types of a family. -/
def signature : Family → Signature
  | .add64 | .sub64 | .mul64 | .mulh64 | .and64 | .or64 | .xor64 => .uniform .uint64
  | .add32 | .sub32 | .and32 | .or32 | .xor32 => .uniform .uint32
  | .mul32 => ⟨.uint32, some .uint32, .uint64⟩
  | .imul32 => ⟨.int32, some .int32, .int64⟩
  | .imulh64 => .uniform .int64
  | .div64 => ⟨.uint64, some .uint32, .uint64⟩
  | .idiv64 => ⟨.int64, some .int32, .int64⟩
  | .shl64 | .shr64 | .rol64 | .ror64 => ⟨.uint64, some .shift, .uint64⟩
  | .sar64 => ⟨.int64, some .shift, .int64⟩
  | .fadd | .fsub | .fmul | .fdiv => .uniform .float
  | .fsqrt => ⟨.float, none, .float⟩
  | .fround => ⟨.int64, none, .float⟩
  | .call | .ret => ⟨.uint64, none, .uint64⟩

end Family

/-- Name of a kind of families. -/
def FamilyClass.name : FamilyClass → String
  | .integer => "integer"
  | .multiply => "multiply"
  | .divide => "divide"
  | .shift => "shift"
  | .float => "float"
  | .control => "control"

/-- All kinds of families, in the order of reports. -/
def FamilyClass.all : List FamilyClass :=
  [.integer, .multiply, .divide, .shift, .float, .control]

/-- The family that an instruction's opcode selects. -/
def Instruction.family (d : Instruction) : Family := .ofOpcode d.opcode

end RandomMachine
