import RandomMachine.Machine.Step
import RandomMachine.Proofs.Source.Memory
import RandomMachine.Proofs.Source.Phrase

/-!
# Meaning of operand texts

What a phrase denotes in a state of the machine: integers of the four C types with their usual
conversions, doubles, and cells as bytes of memory. Where C leaves a result undefined there is
none. Names denote parts of the state: a register `r` is an unsigned word of 64 bits, a register `f`
and a cell of the scratchpad are unions, and the variable of the address is an unsigned word of 32
bits.
-/

namespace RandomMachine.Source

/-! ### Integers -/

namespace IntegerType

/-- Whether values of the type carry a sign. -/
def isSigned : IntegerType → Bool
  | .int32 | .int64 => true
  | .uint32 | .uint64 => false

/-- Bytes of a value. -/
def size : IntegerType → Nat
  | .int32 | .uint32 => 4
  | .int64 | .uint64 => 8

/-- The least number that is too large for the type. -/
def limit : IntegerType → Nat
  | .int32 => 2 ^ 31
  | .uint32 => 2 ^ 32
  | .int64 => 2 ^ 63
  | .uint64 => 2 ^ 64

/-- The value of the type that agrees with a word in the lowest bits. Values are kept as words of 64
bits: signed types extend them by their sign, unsigned ones by zeros. -/
def extend (type : IntegerType) (word : UInt64) : UInt64 :=
  match type with
  | .int32 => word.toUInt32.toInt32.toInt64.toUInt64
  | .uint32 => word.toUInt32.toUInt64
  | .int64 | .uint64 => word

/-- The number that a value stands for. -/
def number (type : IntegerType) (word : UInt64) : Int :=
  if type.isSigned then word.toInt64.toInt else word.toNat

/-- The type in which two integers meet: the wider one, and of two equally wide ones the unsigned
one. -/
def common : IntegerType → IntegerType → IntegerType
  | .uint64, _ | _, .uint64 => .uint64
  | .int64, _ | _, .int64 => .int64
  | .uint32, _ | _, .uint32 => .uint32
  | .int32, .int32 => .int32

end IntegerType

/-! ### Values -/

/-- A value of C. -/
inductive Value
  | integer (type : IntegerType) (word : UInt64)
  | double (value : Binary64)
  | cell (cell : Cell)
  deriving DecidableEq, Repr

namespace Value

/-- Conversion of a value to a type. Integers are converted to doubles in a rounding mode. -/
def convert (mode : RoundingMode) : Value → CType → Option Value
  | .integer _ word, .integer type => some (.integer type (type.extend word))
  | .integer type word, .double => some (.double (mode.ofInt (type.number word)))
  | .double value, .double => some (.double value)
  | _, _ => none

/-- A value with its sign changed. The least value of a signed type has no opposite. -/
def negate : Value → Option Value
  | .integer type word =>
    if type.isSigned = true ∧ type.number word = -type.limit then none
    else some (.integer type (type.extend (-word)))
  | _ => none

/-- Whether a condition holds. -/
def truth : Value → Option Bool
  | .integer _ word => some (word != 0)
  | _ => none

end Value

/-- The result of an operator on two integers, which meet in one type first. -/
def Operator.apply : Operator → Value → Value → Option Value
  | operator, .integer left x, .integer right y =>
    let type := left.common right
    let x := type.extend x
    let y := type.extend y
    match operator with
    | .and => some (.integer type (x &&& y))
    | .xor => some (.integer type (x ^^^ y))
    | .atMost => some (.integer .int32 (if type.number x ≤ type.number y then 1 else 0))
  | _, _, _ => none

/-- The types that an integer constant may have, in the order in which they are tried. -/
def constantTypes : Radix → Suffix → List IntegerType
  | .decimal, .int => [.int32, .int64]
  | .hexadecimal, .int => [.int32, .uint32, .int64, .uint64]
  | _, .unsigned => [.uint32, .uint64]
  | .decimal, .longLong => [.int64]
  | .hexadecimal, .longLong => [.int64, .uint64]
  | _, .unsignedLongLong => [.uint64]

/-- The value of an integer constant, in the first type that has room for it. -/
def constantValue (value : Nat) (radix : Radix) (suffix : Suffix) : Option Value :=
  ((constantTypes radix suffix).find? fun type => decide (value < type.limit)).map fun type =>
    .integer type (.ofNat value)

/-! ### Memory -/

/-- Type of a member. -/
def Member.type : Member → CType
  | .double => .double
  | .int64 => .integer .int64
  | .uint64 => .integer .uint64
  | .int32 => .integer .int32
  | .uint32 => .integer .uint32

/-- The member of a cell. -/
def loadMember (cell : Cell) (part : Member) : Value :=
  match part.type with
  | .integer type => .integer type (type.extend (cell.readBytes type.size))
  | .double | .cell => .double ⟨cell.readBytes cellSize⟩

/-- The cell once a value has been converted to the type of a member and written there. -/
def storeMember (mode : RoundingMode) (cell : Cell) (part : Member) (value : Value) :
    Option Cell :=
  match value.convert mode part.type with
  | some (.integer type word) => some (cell.writeBytes type.size word)
  | some (.double value) => some (cell.writeBytes cellSize value.bits)
  | some (.cell _) | none => none

/-- The mask of a window: its bytes over those of a cell, less one. -/
def windowMask : Window → UInt64
  | .l1 => 16 * 1024 / 8 - 1
  | .l2 => 256 * 1024 / 8 - 1

/-- The cell that an address selects in a window. -/
def cellIndex (window : Window) (address : Value) : Option (Fin scratchpadLength) :=
  match Operator.and.apply address (.integer .uint64 (windowMask window)) with
  | some (.integer _ word) => if h : word.toNat < scratchpadLength then some ⟨_, h⟩ else none
  | _ => none

/-- Something with members. -/
inductive Object
  | floatRegister (number : UInt8)
  | cell (index : Fin scratchpadLength)
  deriving DecidableEq, Repr

/-- Content of an object. -/
def Object.load (s : State) : Object → Cell
  | .floatRegister number => ⟨(s.f.read number).bits⟩
  | .cell index => s.scratchpad.get index

/-- Replaces the content of an object. -/
def Object.store (s : State) (content : Cell) : Object → State
  | .floatRegister number => { s with f := s.f.write number ⟨content.bits⟩ }
  | .cell index => { s with scratchpad := s.scratchpad.set index content index.isLt }

/-! ### Phrases -/

/-- What a phrase denotes, and the state once it has been evaluated: only reading DRAM changes the
state. The address of operand A is given. -/
def Phrase.evaluate (address : UInt32) : Phrase → State → Option (Value × State)
  | .register number, s => some (.integer .uint64 (s.r.read number), s)
  | .floatRegister number, s => some (.cell ((Object.floatRegister number).load s), s)
  | .address, s => some (.integer .uint32 address.toUInt64, s)
  | .constant value radix suffix, s =>
    (constantValue value radix suffix).map fun value => (value, s)
  | .cell window position, s => do
    let (position, s) ← position.evaluate address s
    let index ← cellIndex window position
    some (.cell ((Object.cell index).load s), s)
  | .readDram position, s => do
    let (position, s) ← position.evaluate address s
    match position.convert s.mode (.integer .uint32) with
    | some (.integer _ word) =>
      let (content, cursor) := s.cursor.read word.toUInt32
      some (.cell ⟨content⟩, { s with cursor })
    | _ => none
  | .compound part value, s => do
    let (value, s) ← value.evaluate address s
    let content ← storeMember s.mode ⟨0⟩ part value
    some (.cell content, s)
  | .member object part, s => do
    let (object, s) ← object.evaluate address s
    match object with
    | .cell content => some (loadMember content part, s)
    | _ => none
  | .cast type operand, s => do
    let (operand, s) ← operand.evaluate address s
    let value ← operand.convert s.mode type
    some (value, s)
  | .negate operand, s => do
    let (operand, s) ← operand.evaluate address s
    let value ← operand.negate
    some (value, s)
  | .binary operator left right, s => do
    let (left, s) ← left.evaluate address s
    let (right, s) ← right.evaluate address s
    let value ← operator.apply left right
    some (value, s)

/-- What can be assigned to. -/
inductive Lvalue
  | register (number : UInt8)
  | member (object : Object) (part : Member)
  deriving DecidableEq, Repr

/-- What a phrase denotes on the left of an assignment. -/
def Phrase.locate (address : UInt32) : Phrase → State → Option (Lvalue × State)
  | .register number, s => some (.register number, s)
  | .member (.floatRegister number) part, s => some (.member (.floatRegister number) part, s)
  | .member (.cell window position) part, s => do
    let (position, s) ← position.evaluate address s
    let index ← cellIndex window position
    some (.member (.cell index) part, s)
  | _, _ => none

/-- The state after an assignment, which converts the value to the type of what it is assigned to.
-/
def Lvalue.assign (lvalue : Lvalue) (value : Value) (s : State) : Option State :=
  match lvalue with
  | .register number =>
    match value.convert s.mode (.integer .uint64) with
    | some (.integer _ word) => some { s with r := s.r.write number word }
    | _ => none
  | .member object part =>
    (storeMember s.mode (object.load s) part value).map fun content => object.store s content

/-! ### Texts -/

/-- The type that a text names. -/
def typeNamed (text : String) : Option CType :=
  match tokens text with
  | [.name (.type type)] => some type
  | _ => none

/-- What a text denotes as an expression. -/
def denotation (address : UInt32) (text : String) (s : State) : Option (Value × State) := do
  let phrase ← read text
  phrase.evaluate address s

/-- The value of a variable of a named type that is initialized by a text. -/
def initialValue (address : UInt32) (type text : String) (s : State) : Option (Value × State) := do
  let type ← typeNamed type
  let (value, s) ← denotation address text s
  let value ← value.convert s.mode type
  some (value, s)

/-- What a text denotes as a condition. -/
def truthOf (address : UInt32) (text : String) (s : State) : Option (Bool × State) := do
  let (value, s) ← denotation address text s
  let truth ← value.truth
  some (truth, s)

/-- What a text denotes on the left of an assignment. -/
def lvalueOf (address : UInt32) (text : String) (s : State) : Option (Lvalue × State) := do
  let phrase ← read text
  phrase.locate address s

end RandomMachine.Source
