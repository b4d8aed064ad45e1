import RandomMachine.Dram
import RandomMachine.Source.Block

/-!
# C preamble

Everything in front of the main function that does not depend on the program: headers and types,
memory and stack macros, the DRAM cursor, and the function that fills memory. Where a line names a
constant, it is the constant that the machine of this library uses.
-/

namespace RandomMachine.Source

/-- Headers and types. -/
def typeLines : List String :=
  ["#include <stdint.h>",
    "#include <inttypes.h>",
    "#include <time.h>",
    "#include <stdio.h>",
    "#include <x86intrin.h>",
    "#include <emmintrin.h>",
    "#include <wmmintrin.h>",
    "#include <math.h>",
    "typedef uint32_t addr_t;",
    "typedef unsigned __int128 uint128_t;",
    "typedef __int128 int128_t;",
    "typedef unsigned char byte;",
    "typedef union \x7b",
    indented 1 "double f64;",
    indented 1 "int64_t i64;",
    indented 1 "uint64_t u64;",
    indented 1 "int32_t i32;",
    indented 1 "uint32_t u32;",
    "\x7d convertible_t;",
    "typedef union \x7b",
    indented 1 "uint64_t value;",
    indented 1 "void* address;",
    "\x7d stack_entry_t;",
    "typedef struct \x7b",
    indented 1 "addr_t m0;",
    indented 1 "addr_t m1;",
    indented 1 "addr_t mx;",
    "#ifdef RAM",
    indented 1 "const char* buffer;",
    "#endif",
    "\x7d mmu_t;"]

/-- A macro with its definition. -/
def define (name body : String) : String := "#define " ++ name ++ " " ++ body

/-- Memory macros. Reads of real memory and simulated reads share one name. -/
def memoryLines (settings : Settings) : List String :=
  [define "DRAM_SIZE" "(1ULL << 32)",
    define "SCRATCHPAD_SIZE" ("(" ++ Numeral.decimal scratchpadSize ++ ")"),
    define "SCRATCHPAD_LENGTH" "(SCRATCHPAD_SIZE / sizeof(convertible_t))",
    define "SCRATCHPAD_MASK14" "(16 * 1024 / sizeof(convertible_t) - 1)",
    define "SCRATCHPAD_MASK18" "(SCRATCHPAD_LENGTH - 1)",
    define "SCRATCHPAD_16K(x)" "scratchpad[(x) & SCRATCHPAD_MASK14]",
    define "SCRATCHPAD_256K(x)" "scratchpad[(x) & SCRATCHPAD_MASK18]",
    define "STACK_LENGTH" ("(" ++ Numeral.decimal settings.stackLength.toNat ++ ")"),
    "_Static_assert(sizeof(convertible_t) == " ++ Numeral.decimal cellSize ++ ", \"cell size\");",
    "#ifdef RAM",
    define "DRAM_READ(mmu)" "(convertible_t)*(uint64_t*)((mmu)->buffer + (mmu)->m0)",
    define "PREFETCH(mmu)" "_mm_prefetch(((mmu)->buffer + (mmu)->m1), _MM_HINT_T0)",
    "#else",
    define "DRAM_READ(mmu)" ("(convertible_t)(uint64_t)__rolq(" ++
      Numeral.decimal DramCursor.multiplier.toNat ++ "ULL*((mmu)->m0)+" ++
      Numeral.decimal DramCursor.increment.toNat ++ "ULL,32)"),
    "#define PREFETCH(x)",
    "#endif"]

/-- Stack macros. -/
def stackLines : List String :=
  ["#define PUSH_VALUE(x) stack[sp++].value = x",
    "#define PUSH_ADDRESS(x) stack[sp++].address = x",
    "#define STACK_IS_EMPTY() (sp == 0)",
    "#define POP_VALUE() stack[--sp].value",
    "#define POP_ADDRESS() stack[--sp].address"]

/-- The function that reads DRAM and moves its cursor. -/
def cursorLines : List String :=
  ["static convertible_t readDram(mmu_t* mmu, addr_t addr) \x7b",
    indented 1 "convertible_t data;",
    indented 1 "data = DRAM_READ(mmu);",
    indented 1 ("mmu->m0 += " ++ Numeral.decimal DramCursor.stride.toNat ++ ";"),
    indented 1 "mmu->mx ^= addr;",
    indented 1 ("if((mmu->m0 & 255) == " ++ Numeral.decimal DramCursor.latchOffset.toNat ++
      ") \x7b"),
    indented 2 ("mmu->m1 = mmu->mx & 0x" ++
      (Numeral.hexDigits 8 DramCursor.blockMask.toNat).toUpper ++ ";"),
    indented 2 "PREFETCH(mmu);",
    indented 1 "\x7d",
    indented 1 "if((mmu->m0 & 255) == 0)",
    indented 2 "mmu->m0 = mmu->m1;",
    indented 1 "return data;",
    "\x7d"]

/-- The function that fills memory from a key and a seed. -/
def fillLines : List String :=
  ["static inline __m128i sl_xor(__m128i tmp1) \x7b",
    indented 1 "__m128i tmp4;",
    indented 1 "tmp4 = _mm_slli_si128(tmp1, 0x04);",
    indented 1 "tmp1 = _mm_xor_si128(tmp1, tmp4);",
    indented 1 "tmp4 = _mm_slli_si128(tmp4, 0x04);",
    indented 1 "tmp1 = _mm_xor_si128(tmp1, tmp4);",
    indented 1 "tmp4 = _mm_slli_si128(tmp4, 0x04);",
    indented 1 "tmp1 = _mm_xor_si128(tmp1, tmp4);",
    indented 1 "return tmp1;",
    "\x7d",
    "#define AES_GENKEY_SUB(rcon) do \x7b \\",
    indented 1 "__m128i xout1 = _mm_aeskeygenassist_si128(xout2, rcon); \\",
    indented 1 "xout1 = _mm_shuffle_epi32(xout1, 0xFF); \\",
    indented 1 "xout0 = sl_xor(xout0); \\",
    indented 1 "xout0 = _mm_xor_si128(xout0, xout1); \\",
    indented 1 "xout1 = _mm_aeskeygenassist_si128(xout0, 0x00); \\",
    indented 1 "xout1 = _mm_shuffle_epi32(xout1, 0xAA); \\",
    indented 1 "xout2 = sl_xor(xout2); \\",
    indented 1 "xout2 = _mm_xor_si128(xout2, xout1); \x7d while(0)",
    "static inline void aes_genkey(const __m128i* memory, __m128i k[10]) \x7b",
    indented 1 "__m128i xout0, xout2;",
    indented 1 "xout0 = _mm_load_si128(memory);",
    indented 1 "xout2 = _mm_load_si128(memory + 1);",
    indented 1 "k[0] = xout0;",
    indented 1 "k[1] = xout2;",
    indented 1 "AES_GENKEY_SUB(0x01);",
    indented 1 "k[2] = xout0;",
    indented 1 "k[3] = xout2;",
    indented 1 "AES_GENKEY_SUB(0x02);",
    indented 1 "k[4] = xout0;",
    indented 1 "k[5] = xout2;",
    indented 1 "AES_GENKEY_SUB(0x04);",
    indented 1 "k[6] = xout0;",
    indented 1 "k[7] = xout2;",
    indented 1 "AES_GENKEY_SUB(0x08);",
    indented 1 "k[8] = xout0;",
    indented 1 "k[9] = xout2;",
    "\x7d",
    "static void aesInitialize(const __m128i* key, const __m128i* seed, " ++
      "__m128i* output, size_t count) \x7b",
    indented 1 "__m128i k[10];",
    indented 1 "__m128i x[8];",
    indented 1 "aes_genkey(key, k);",
    indented 1 "for (int j = 0; j < 8; ++j)",
    indented 2 "x[j] = _mm_load_si128(seed + j);",
    indented 1 "for (size_t i = 0; i < count / sizeof(__m128i); i += 8) \x7b",
    indented 2 "for (int r = 0; r < 10; ++r)",
    indented 3 "for (int j = 0; j < 8; ++j)",
    indented 4 "x[j] = _mm_aesenc_si128(x[j], k[r]);",
    indented 2 "for (int j = 0; j < 8; ++j)",
    indented 3 "_mm_store_si128(output + i + j, x[j]);",
    indented 1 "\x7d",
    "\x7d"]

/-- The preamble. Specification, section 4.5. -/
def preamble (settings : Settings) : List String :=
  (match settings.dram with
    | .buffer => ["#define RAM"]
    | .simulated => []) ++
  typeLines ++ memoryLines settings ++ stackLines ++ cursorLines ++ fillLines

end RandomMachine.Source
