import RandomMachine.Listing
import RandomMachine.Settings.Basic
import RandomMachine.Source.Expression

/-!
# C blocks of instructions

Each slot becomes one block of C: a label, the test of the budget, the mixing of the address
register, and then what the family does. Blocks are lists of lines without their line ends.
-/

namespace RandomMachine.Source

/-- Label at which the emitted program ends. -/
def endLabel : String := "end"

/-- Label that a call jumps to when the stack has no room. -/
def overflowLabel : String := "overflow"

/-- Label of a slot. -/
def slotLabel (slot : UInt64) : String := "i_" ++ Numeral.decimal slot.toNat

/-- A line that is indented by a number of tabs. -/
def indented (depth : Nat) (text : String) : String :=
  String.ofList (List.replicate depth '\t') ++ text

/-- The C expression of a family that computes its result from `A` and `B` alone. -/
def resultText : Family → Option String
  | .add64 | .add32 | .fadd => some "A + B"
  | .sub64 | .sub32 | .fsub => some "A - B"
  | .mul64 | .fmul => some "A * B"
  | .fdiv => some "A / B"
  | .and64 | .and32 => some "A & B"
  | .or64 | .or32 => some "A | B"
  | .xor64 | .xor32 => some "A ^ B"
  | .shl64 => some "A << B"
  | .shr64 | .sar64 => some "A >> B"
  | .mulh64 => some "((uint128_t)A * B) >> 64"
  | .imulh64 => some "((int128_t)A * B) >> 64"
  | .mul32 => some "(uint64_t)A * B"
  | .imul32 => some "(int64_t)A * B"
  | .rol64 => some "__rolq(A, B)"
  | .ror64 => some "__rorq(A, B)"
  | .div64 | .idiv64 => some "A / B"
  | .fsqrt | .fround | .call | .ret => none

/-- The first lines of every block. -/
def blockHeader (slot : UInt64) (d : Instruction) : List String :=
  [indented 1 (slotLabel slot ++ ": \x7b //" ++ d.listing),
    indented 2 ("if(0 == ic--) goto " ++ endLabel ++ ";"),
    indented 2 (registerName d.registerA ++ " ^= " ++ Numeral.decimal d.addressA.toNat ++ "U;"),
    indented 2 ("addr_t " ++ addressVariable ++ " = " ++ registerName d.registerA ++ ";")]

/-- The declaration of operand A. -/
def declareA (d : Instruction) (type : OperandType) : String :=
  indented 2 (type.cType ++ " A = " ++ (d.operandA type).text sourceText ++ ";")

/-- The declaration of operand B. -/
def declareB (d : Instruction) (type : OperandType) : String :=
  indented 2 (type.cType ++ " B = " ++ (d.operandB type).text sourceText ++ ";")

/-- The assignment of a result, followed by the end of the block. -/
def assignAndClose (d : Instruction) (type : OperandType) (value : String) : String :=
  indented 2 ((d.place type).text ++ " = " ++ value ++ "; \x7d")

/-- A division replaces a zero divisor first. -/
def divisorGuard : Family → List String
  | .div64 | .idiv64 => [indented 2 "if(B == 0) B = 1;"]
  | _ => []

/-- Lines of a family that declares its operands and assigns one expression. -/
def plainLines (d : Instruction) (family : Family) (value : String) : List String :=
  let signature := family.signature
  declareA d signature.a ::
    (match signature.b with
      | some type => [declareB d type]
      | none => []) ++
    divisorGuard family ++ [assignAndClose d signature.c value]

/-- Lines of a square root. -/
def rootLines (d : Instruction) : List String :=
  [indented 2 ("double A = fabs(" ++ (d.operandA .float).text sourceText ++ ");"),
    assignAndClose d .float "_mm_cvtsd_f64(_mm_sqrt_sd(_mm_setzero_pd(), _mm_set_sd(A)))"]

/-- Bit of the control register at which the rounding mode begins. -/
def roundingShift : Nat := 13

/-- Lines of an instruction that sets the rounding mode. -/
def roundingLines (d : Instruction) : List String :=
  [declareA d .int64,
    indented 2 ((d.place .float).text ++ " = A;"),
    indented 2 ("_mm_setcsr(mxcsr | (((uint32_t)A << " ++ Numeral.decimal roundingShift ++
      ") & _MM_ROUND_MASK)); \x7d")]

/-- Lines that push a frame and jump. -/
def pushLines (settings : Settings) (slot : UInt64) (d : Instruction) : List String :=
  (match settings.stackOverflow with
    | .fault => [indented 3 ("if(sp + 2 > STACK_LENGTH) goto " ++ overflowLabel ++ ";")]
    | .unchecked => []) ++
  [indented 3 "PUSH_VALUE(A);",
    indented 3 ("PUSH_ADDRESS(&&" ++ slotLabel (settings.nextSlot slot) ++ ");"),
    indented 3 ("goto " ++ slotLabel (settings.callTarget slot d.shortImmediate) ++ ";")]

/-- Lines of a call. Without a condition the destination is never written. Specification,
section 4.4. -/
def callLines (settings : Settings) (slot : UInt64) (d : Instruction) : List String :=
  declareA d .uint64 ::
    match d.branchCondition with
    | some condition =>
      indented 2 ("if(" ++ condition.text ++ ") \x7b") :: pushLines settings slot d ++
        [indented 2 "\x7d", assignAndClose d .uint64 "A"]
    | none => pushLines settings slot d ++ [indented 2 "\x7d"]

/-- Lines of a return. Specification, section 4.4. -/
def returnLines (d : Instruction) : List String :=
  let condition := match d.branchCondition with
    | some condition => " && " ++ condition.text
    | none => ""
  [declareA d .uint64,
    indented 2 ("if(!STACK_IS_EMPTY()" ++ condition ++ ") \x7b"),
    indented 3 "void* target = POP_ADDRESS();",
    indented 3 "uint64_t C = POP_VALUE();",
    indented 3 ((d.place .uint64).text ++ " = A ^ C;"),
    indented 3 "goto *target;",
    indented 2 "\x7d",
    assignAndClose d .uint64 "A"]

/-- Lines of what a family does. -/
def familyLines (settings : Settings) (slot : UInt64) (d : Instruction) : List String :=
  match d.family with
  | .fsqrt => rootLines d
  | .fround => roundingLines d
  | .call => callLines settings slot d
  | .ret => returnLines d
  | family => plainLines d family ((resultText family).getD "")

/-- The block of a slot. Specification, section 4.4. -/
def block (settings : Settings) (slot : UInt64) (d : Instruction) : List String :=
  blockHeader slot d ++ familyLines settings slot d

/-- Lines as one text, each of them ended. -/
def ofLines (lines : List String) : String := String.join (lines.map (· ++ "\n"))

end RandomMachine.Source
