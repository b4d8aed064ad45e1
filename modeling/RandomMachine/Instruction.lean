/-!
# Instruction words

An instruction is a word of 128 bits. Each of its ten fields has a fixed offset and width; the
place and register fields use three bits of a byte and leave the other five unread. An instruction
record keeps the word that it was read from beside the fields, and equality of records compares it
too. A record may hold wider values than its word can: reading a word never yields them, and writing
truncates them. Here and in what is built on it, a definition that follows a section of the machine's
specification names the section.
-/

namespace RandomMachine

/-- An instruction: the word it was read from, and its fields, each as wide as its largest use.
Specification, sections 3 and E3. -/
structure Instruction where
  /-- The word that the fields were read from, with the bits that no field reads. -/
  word : BitVec 128 := 0
  /-- Selects the family. -/
  opcode : UInt8 := 0
  /-- Where operand A is read. -/
  placeA : UInt8 := 0
  /-- Register whose value addresses operand A. -/
  registerA : UInt8 := 0
  /-- Whether operand B is a register or an immediate. -/
  placeB : UInt8 := 0
  /-- Register of operand B. -/
  registerB : UInt8 := 0
  /-- Where the result goes. -/
  placeC : UInt8 := 0
  /-- Register of the result, or of its address. -/
  registerC : UInt8 := 0
  /-- Shift amount or call offset. -/
  shortImmediate : UInt8 := 0
  /-- Mixed into the register of operand A before it is used. -/
  addressA : UInt32 := 0
  /-- Immediate operand, also mixed into the address of the result. -/
  immediate : UInt32 := 0
  deriving DecidableEq, Repr, Inhabited

namespace Instruction

/-- Mixed into the address of a result in memory: the immediate in its second role. -/
abbrev addressC (d : Instruction) : UInt32 := d.immediate

/-- The fields of an instruction word. -/
inductive Field
  | opcode
  | placeA
  | registerA
  | placeB
  | registerB
  | placeC
  | registerC
  | shortImmediate
  | addressA
  | immediate
  deriving DecidableEq, Repr

namespace Field

/-- All fields, from the lowest bit to the highest. -/
def all : List Field :=
  [.opcode, .placeA, .registerA, .placeB, .registerB, .placeC, .registerC, .shortImmediate,
    .addressA, .immediate]

/-- Lowest bit of a field. Specification, section 6. -/
def offset : Field → Nat
  | .opcode => 0
  | .placeA => 8
  | .registerA => 16
  | .placeB => 24
  | .registerB => 32
  | .placeC => 40
  | .registerC => 48
  | .shortImmediate => 56
  | .addressA => 64
  | .immediate => 96

/-- Number of bits of a field. Specification, section 6. -/
def width : Field → Nat
  | .opcode | .shortImmediate => 8
  | .placeA | .registerA | .placeB | .registerB | .placeC | .registerC => 3
  | .addressA | .immediate => 32

/-- Value of a field in a word. -/
def ofWord (field : Field) (word : BitVec 128) : Nat :=
  (word.extractLsb' field.offset field.width).toNat

/-- The word with a value in one field, cut to the field's width, and zeros elsewhere. -/
def place (field : Field) (value : Nat) : BitVec 128 :=
  (BitVec.ofNat field.width value).setWidth 128 <<< field.offset

/-- Value of a field in an instruction record. -/
def value (field : Field) (d : Instruction) : Nat :=
  match field with
  | .opcode => d.opcode.toNat
  | .placeA => d.placeA.toNat
  | .registerA => d.registerA.toNat
  | .placeB => d.placeB.toNat
  | .registerB => d.registerB.toNat
  | .placeC => d.placeC.toNat
  | .registerC => d.registerC.toNat
  | .shortImmediate => d.shortImmediate.toNat
  | .addressA => d.addressA.toNat
  | .immediate => d.immediate.toNat

end Field

/-- Reads the fields of a word, and keeps the word. Every word is an instruction. Specification,
section 4.1. -/
def ofWord (word : BitVec 128) : Instruction where
  word := word
  opcode := .ofNat (Field.opcode.ofWord word)
  placeA := .ofNat (Field.placeA.ofWord word)
  registerA := .ofNat (Field.registerA.ofWord word)
  placeB := .ofNat (Field.placeB.ofWord word)
  registerB := .ofNat (Field.registerB.ofWord word)
  placeC := .ofNat (Field.placeC.ofWord word)
  registerC := .ofNat (Field.registerC.ofWord word)
  shortImmediate := .ofNat (Field.shortImmediate.ofWord word)
  addressA := .ofNat (Field.addressA.ofWord word)
  immediate := .ofNat (Field.immediate.ofWord word)

/-- Writes the fields into a word; bits that no field reads stay zero. The word that the record
keeps is not asked. Specification, section E3. -/
def toWord (d : Instruction) : BitVec 128 :=
  Field.all.foldl (fun word field => word ||| field.place (field.value d)) 0

/-- The bits of a word that some field reads. Specification, section E3. -/
def fieldMask : BitVec 128 :=
  Field.all.foldl (fun mask field => mask ||| field.place (1 <<< field.width - 1)) 0

/-- Only the place and register bytes have bits that no field reads. -/
theorem fieldMask_eq : fieldMask = 0xFFFFFFFFFFFFFFFFFF070707070707FF#128 := by decide

end Instruction
end RandomMachine
