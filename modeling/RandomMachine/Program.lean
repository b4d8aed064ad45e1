import RandomMachine.Keystream
import RandomMachine.Listing
import RandomMachine.Settings.Basic

/-!
# Programs

A program is a list of instructions together with the constants that set up its run. Drawing takes
all of it from one keystream, in a fixed order: a key of 32 bytes, a register image of 128 bytes,
and then one word of 16 bytes for each slot.
-/

namespace RandomMachine

/-- Bytes of a key. -/
def keyLength : Nat := 32

/-- Bytes of a register image. -/
def imageLength : Nat := 128

/-- A program and the constants of its run. Specification, section 4.5. -/
structure Program where
  /-- Seed of the keystream that the program was drawn from. -/
  seed : UInt64
  /-- Key of the memory content. -/
  key : Vector UInt8 keyLength
  /-- Initial registers and seed of the memory content. -/
  image : Vector UInt8 imageLength
  instructions : Array Instruction
  deriving DecidableEq, Repr

/-- What is taken from a keystream for a program: the instructions are still words. -/
structure Draw where
  seed : UInt64
  key : Vector UInt8 keyLength
  image : Vector UInt8 imageLength
  words : Array (BitVec 128)
  deriving DecidableEq, Repr

namespace Draw

/-- Takes a word for each of a number of slots, the low half of it first. -/
def takeWords : (count : Nat) → KeystreamReader → (taken : Array (BitVec 128)) →
    Array (BitVec 128)
  | 0, _, taken => taken
  | count + 1, reader, taken =>
    let low := reader.word64
    let high := low.2.word64
    takeWords count high.2 (taken.push (high.1.toBitVec ++ low.1.toBitVec))

/-- Takes the material for `size` slots from the keystream of a seed. -/
def ofSeed (seed : UInt64) (size : Nat) : Draw :=
  let key := (KeystreamReader.ofSeed seed).bytes keyLength
  let image := key.2.bytes imageLength
  { seed, key := key.1, image := image.1, words := takeWords size image.2 #[] }

/-- Reads the drawn words as instructions. -/
def program (draw : Draw) : Program where
  seed := draw.seed
  key := draw.key
  image := draw.image
  instructions := draw.words.map Instruction.ofWord

end Draw

namespace Program

/-- Draws the program of a seed, as large as settings ask for. Specification, section 9. -/
def ofSeed (seed : UInt64) (settings : Settings) : Program :=
  (Draw.ofSeed seed settings.programSize.toNat).program

/-- The listing of a program, one line for each slot. -/
def listing (program : Program) : String :=
  String.join (program.instructions.toList.mapIdx fun slot d =>
    "i_" ++ Numeral.decimal slot ++ ": " ++ d.listing ++ "\n")

end Program
end RandomMachine
