import RandomMachine.Machine.State
import RandomMachine.Source.Preamble

/-!
# C source of a program

The whole text that is emitted for a program: the preamble, the constants, the main function with
its declarations and initialization, one block for each slot, and the closing part. The last block
is followed by a jump to the first slot.
-/

namespace RandomMachine.Source

/-- An array of bytes that starts at a multiple of sixteen. -/
def byteArrayLine (name : String) (bytes : List UInt8) : String :=
  "const byte " ++ name ++ "[" ++ Numeral.decimal bytes.length ++
    "] __attribute__((aligned(16))) = \x7b " ++
    ", ".intercalate (bytes.map fun byte => Numeral.decimal byte.toNat) ++ " \x7d;"

/-- The constants of a program. Specification, section 4.5. -/
def constantLines (program : Program) : List String :=
  [byteArrayLine "aesKey" program.key.toList, byteArrayLine "aesSeed" program.image.toList]

/-- The numbers of the registers in a file. -/
def registerNumbers : List Nat := List.range registerCount

/-- The names of the registers in a file. -/
def registerNames (letter : String) : String :=
  ", ".intercalate (registerNumbers.map fun n => letter ++ Numeral.decimal n)

/-- The head of the main function and its declarations. -/
def declarationLines : List String :=
  ["__attribute__((optimize(\"Os\"))) int main() \x7b",
    indented 1 ("register uint64_t " ++ registerNames "r" ++ ";"),
    indented 1 ("convertible_t " ++ registerNames "f" ++ ";"),
    indented 1 "register uint64_t ic, sp;",
    indented 1
      "static convertible_t scratchpad[SCRATCHPAD_LENGTH] __attribute__((aligned(16)));",
    indented 1 "static stack_entry_t stack[STACK_LENGTH];",
    indented 1 "mmu_t mmu;",
    indented 1 "uint32_t mxcsr;"]

/-- The initial value of a register, read from the register image. -/
def registerLine (target type : String) (offset : Nat) : String :=
  indented 1 (target ++ " = *(const " ++ type ++ "*)(aesSeed + " ++ Numeral.decimal offset ++ ");")

/-- The initialization of memory, registers and the rounding mode. Specification, section 4.5. -/
def initializationLines (settings : Settings) : List String :=
  ["#ifdef RAM",
    indented 1 "mmu.buffer = (char*)_mm_malloc(DRAM_SIZE, 16);",
    indented 1 "if(!mmu.buffer) \x7b",
    indented 2 "fprintf(stderr, \"DRAM buffer allocation failed\\n\");",
    indented 2 "return 1;",
    indented 1 "\x7d",
    indented 1 "fprintf(stderr, \"Initializing DRAM buffer...\\n\");",
    indented 1 ("aesInitialize((const __m128i*)aesKey, (const __m128i*)aesSeed, " ++
      "(__m128i*)mmu.buffer, DRAM_SIZE);"),
    "#endif",
    indented 1 "clock_t clockStart = clock(), clockEnd;"] ++
  registerNumbers.map (fun n =>
    registerLine ("r" ++ Numeral.decimal n) "uint64_t" (8 * n)) ++
  registerNumbers.map (fun n =>
    registerLine ("f" ++ Numeral.decimal n ++ ".f64") "int64_t" (8 * (registerCount + n))) ++
  [indented 1 ("mmu.m0 = ((addr_t)aesKey[9] << 8) | ((addr_t)aesKey[10] << 16) | " ++
      "((addr_t)aesKey[11] << 24);"),
    indented 1 "mmu.m1 = 0;",
    indented 1 ("aesInitialize((const __m128i*)aesKey, (const __m128i*)aesSeed, " ++
      "(__m128i*)scratchpad, SCRATCHPAD_SIZE);"),
    indented 1 "mmu.mx = 0;",
    indented 1 "sp = 0;",
    indented 1 ("ic = " ++ Numeral.decimal settings.budget.toNat ++ "ULL;"),
    indented 1 "mxcsr = (_mm_getcsr() | _MM_FLUSH_ZERO_ON) & ~_MM_ROUND_MASK;",
    indented 1 "_mm_setcsr(mxcsr);"]

/-- The blocks of a list of instructions whose first one has the given slot. -/
def blockLines (settings : Settings) : (slot : Nat) → List Instruction → List String
  | _, [] => []
  | slot, d :: rest => block settings (.ofNat slot) d ++ blockLines settings (slot + 1) rest

/-- The release of real memory. -/
def cleanupLines : List String :=
  ["#ifdef RAM", indented 2 "_mm_free((void*)mmu.buffer);", "#endif"]

/-- The line that prints the registers of one number. -/
def registerReportLine (n : Nat) : String :=
  let r := "r" ++ Numeral.decimal n
  let f := "f" ++ Numeral.decimal n
  indented 2 ("printf(\"" ++ r ++ " = %-20\" PRIu64 \" " ++ f ++ " = %-24.17g (0x%016\" PRIx64 " ++
    "\")\\n\", " ++ r ++ ", " ++ f ++ ".f64, " ++ f ++ ".u64);")

/-- The regular end of the main function. Specification, section 4.5. -/
def endLines (settings : Settings) : List String :=
  [indented 1 (endLabel ++ ":"), indented 2 "clockEnd = clock();"] ++
  registerNumbers.map registerReportLine ++
  [indented 2 "uint64_t spadsum = 0;",
    indented 2 "for(size_t i = 0; i < SCRATCHPAD_LENGTH; ++i) \x7b",
    indented 3 "spadsum += scratchpad[i].u64;",
    indented 2 "\x7d",
    indented 2 "printf(\"scratchpad sum = %\" PRIu64 \"\\n\", spadsum);"] ++
  (if settings.reportRuntime then
    [indented 2 ("printf(\"runtime: %f\\n\", (clockEnd - clockStart) / " ++
      "(double)CLOCKS_PER_SEC);")]
  else []) ++
  cleanupLines ++ [indented 2 "return 0;"]

/-- The end of the main function after an overflow of the stack. -/
def overflowLines (settings : Settings) : List String :=
  match settings.stackOverflow with
  | .unchecked => []
  | .fault =>
    [indented 1 (overflowLabel ++ ":"),
      indented 2 "fprintf(stderr, \"call stack overflow (sp = %\" PRIu64 \")\\n\", sp);"] ++
    cleanupLines ++ [indented 2 "return 2;"]

/-- The lines of a program. Specification, sections 4.5 and 6. -/
def programLines (settings : Settings) (program : Program) : List String :=
  preamble settings ++ constantLines program ++ declarationLines ++
  initializationLines settings ++ blockLines settings 0 program.instructions.toList ++
  [indented 1 ("goto " ++ slotLabel 0 ++ ";")] ++ endLines settings ++
  overflowLines settings ++ ["\x7d"]

end RandomMachine.Source

namespace RandomMachine.Program

/-- The C source of a program. -/
def source (program : Program) (settings : Settings) : String :=
  Source.ofLines (Source.programLines settings program)

end RandomMachine.Program
