import RandomMachine.Proofs.Machine.Safety
import RandomMachine.Proofs.Machine.Transition
import RandomMachine.Proofs.Source.Literals

/-!
# Operand texts and the machine

The texts of an instruction's operands, read as C, denote what the machine uses when it executes
the instruction: the value of operand A and the move of the cursor, the value of operand B once the
family has narrowed it, the condition of a call or return, and the register or member of a cell
that a result is stored to.
-/

namespace RandomMachine

open Source

/-! ### Narrowing -/

namespace OperandType

/-- What a family with an operand of a type makes of a word: integers of 32 bits are cut and
extended, and shift amounts are cut to six bits. -/
def narrow (type : OperandType) (word : UInt64) : UInt64 :=
  match type with
  | .int32 => IntegerType.int32.extend word
  | .uint32 => IntegerType.uint32.extend word
  | .shift => word &&& 63
  | .int64 | .uint64 | .float => word

/-- Type of the variables that hold operands of a type. -/
def variableType : OperandType → CType
  | .int32 | .shift => .integer .int32
  | .uint32 => .integer .uint32
  | .int64 => .integer .int64
  | .uint64 => .integer .uint64
  | .float => .double

/-- Value of a variable that holds an operand of a type: a word, or a double for the float type. -/
def variableValue (type : OperandType) (word : UInt64) (value : Binary64) : Value :=
  match type.variableType with
  | .integer type => .integer type word
  | .double | .cell => .double value

/-- The text of a variable's type names this type. -/
theorem typeNamed_cType (type : OperandType) : typeNamed type.cType = some type.variableType := by
  cases type <;> decide

/-- Narrowing a word twice is the same as doing it once. -/
theorem narrow_narrow (type : OperandType) (word : UInt64) :
    type.narrow (type.narrow word) = type.narrow word := by
  cases type with
  | int32 => exact IntegerType.extend_extend .int32 word
  | uint32 => exact IntegerType.extend_extend .uint32 word
  | shift =>
    change word &&& 63 &&& 63 = word &&& 63
    rw [UInt64.and_assoc, UInt64.and_self]
  | int64 => rfl
  | uint64 => rfl
  | float => rfl

/-- Operand A is narrow when it has been read. -/
theorem narrow_integerAs {type : OperandType} (h : type ≠ .shift) (cell : Cell) :
    type.narrow (cell.integerAs type) = cell.integerAs type := by
  cases type with
  | int32 => exact IntegerType.extend_extend .int32 cell.bits
  | uint32 => exact IntegerType.extend_extend .uint32 cell.bits
  | int64 => rfl
  | uint64 => rfl
  | float => rfl
  | shift => exact absurd rfl h

end OperandType

/-- An integer family uses operand B only as far as narrowing keeps it. -/
theorem Family.integerResult_narrow {family : Family} {type : OperandType}
    (h : family.signature.b = some type) (a b : UInt64) :
    family.integerResult a (type.narrow b) = family.integerResult a b := by
  have hint32 : (IntegerType.int32.extend b).toUInt32 = b.toUInt32 :=
    IntegerType.toUInt32_extend_int32 b
  have huint32 : (IntegerType.uint32.extend b).toUInt32 = b.toUInt32 :=
    UInt32.toUInt32_toUInt64 b.toUInt32
  have hshift : b &&& 63 &&& 63 = b &&& 63 := OperandType.narrow_narrow .shift b
  cases family <;> cases h <;>
    simp only [OperandType.narrow, integerResult, signedLow, hint32, huint32, hshift]

namespace Source

/-! ### Variables -/

/-- A variable is initialized by evaluating the phrase of its text and converting the value. -/
theorem initialValue_text {operand : Expression SourceA} (h : operand.InRange)
    (type : OperandType) (address : UInt32) (s : State) :
    initialValue address type.cType (operand.text sourceText) s =
      (operand.phrase.evaluate address s).bind fun (value, s) =>
        (value.convert s.mode type.variableType).map fun value => (value, s) := by
  rw [initialValue, type.typeNamed_cType, denotation, read_text h]
  change ((operand.phrase.evaluate address s).bind fun (value, s) =>
    (value.convert s.mode type.variableType).bind fun value => some (value, s)) = _
  congr 1
  funext p
  exact (Option.map_eq_bind).symm

/-- The constant that shift amounts are cut by. -/
theorem constantValue_sixty_three :
    constantValue 63 .decimal .int = some (.integer .int32 63) := by decide

/-- The low six bits of an operand of 64 bits. -/
theorem evaluate_lowSixBits {operand : Expression SourceA} {address : UInt32} {s s' : State}
    {word : UInt64}
    (h : operand.phrase.evaluate address s = some (.integer .uint64 word, s')) :
    (Expression.lowSixBits operand).phrase.evaluate address s =
      some (.integer .uint64 (word &&& 63), s') := by
  rw [Expression.phrase, Phrase.evaluate, h]
  simp only [Phrase.evaluate, constantValue_sixty_three]
  rfl

/-- Six bits of a number of 32 bits are its six bits as a word. -/
theorem low_six_bits_toUInt64 (value : UInt32) :
    (value &&& 63).toInt32.toInt64.toUInt64 &&& 63 = (value &&& 63).toInt32.toInt64.toUInt64 := by
  have hlt : (value &&& 63).toNat < 64 := by
    rw [UInt32.toNat_and]
    exact Nat.lt_of_le_of_lt Nat.and_le_right (by decide)
  have hall : ∀ k : Fin 64, (UInt32.ofNat k).toInt32.toInt64.toUInt64 &&& 63 =
      (UInt32.ofNat k).toInt32.toInt64.toUInt64 := by decide
  have hvalue := hall ⟨_, hlt⟩
  rwa [UInt32.ofNat_toNat] at hvalue

/-- A condition compares the low half of its register with its bound. -/
theorem evaluate_condition (address : UInt32) (s : State) (condition : Condition) :
    condition.phrase.evaluate address s =
      some (.integer .int32
        (if (s.r.read condition.register).toUInt32 ≤ condition.bound then 1 else 0), s) := by
  have hleft : (Phrase.cast (.integer .uint32) (.register condition.register)).evaluate
      address s =
      some (.integer .uint32 (s.r.read condition.register).toUInt32.toUInt64, s) := rfl
  have hle : IntegerType.uint32.number (s.r.read condition.register).toUInt32.toUInt64 ≤
      IntegerType.uint32.number condition.bound.toUInt64 ↔
      (s.r.read condition.register).toUInt32 ≤ condition.bound := by
    change ((s.r.read condition.register).toUInt32.toUInt64.toNat : Int) ≤
      condition.bound.toUInt64.toNat ↔ _
    rw [UInt32.toNat_toUInt64, UInt32.toNat_toUInt64, UInt32.le_iff_toNat_le]
    exact Int.ofNat_le
  rw [Condition.phrase, Phrase.evaluate, hleft]
  simp only [Option.bind_eq_bind, Option.bind_some, evaluate_unsigned, Operator.apply,
    IntegerType.common, IntegerType.extend, UInt32.toUInt32_toUInt64, hle]

/-- The position of the cell that a result is assigned to. -/
theorem evaluate_position (address : UInt32) (s : State) (base : UInt8) (position : UInt32) :
    (Phrase.binary .xor (.register base)
        (.constant position.toNat .decimal .unsigned)).evaluate address s =
      some (.integer .uint64 (s.r.read base ^^^ position.toUInt64), s) := by
  rw [Phrase.evaluate, Phrase.evaluate]
  simp only [Option.bind_eq_bind, Option.bind_some, evaluate_unsigned]
  rfl

/-- The text of a member of a window's cell denotes the member. -/
theorem lvalueOf_cell (window : Window) {base : UInt8} (h : base.toNat < registerCount)
    (position : UInt32) (part : Member) (address : UInt32) (s : State) :
    lvalueOf address (Place.cell window base position part).text s =
      some (.member (.cell (window.index (s.r.read base ^^^ position.toUInt64).toUInt32)) part,
        s) := by
  have hrange : (Place.cell window base position part).InRange := h
  rw [lvalueOf, read_placeText hrange, Option.bind_eq_bind, Option.bind_some, Place.phrase,
    Phrase.locate, evaluate_position]
  simp only [Option.bind_eq_bind, Option.bind_some, cellIndex_eq]

/-- The cell that operand A is read from. -/
theorem evaluate_sourcePhrase (d : Instruction) (s : State) :
    (sourcePhrase d.sourceA).evaluate (s.address d) s =
      some (.cell (s.readA d).1, (s.readA d).2) := by
  unfold State.readA
  cases d.sourceA with
  | dram =>
    simp only [sourcePhrase, Phrase.evaluate, Value.convert, IntegerType.extend,
      UInt32.toUInt32_toUInt64, Option.bind_eq_bind, Option.bind_some]
  | scratchpad window =>
    simp only [sourcePhrase, Phrase.evaluate, cellIndex_eq, UInt32.toUInt32_toUInt64,
      Option.bind_eq_bind, Option.bind_some]
    rfl

end Source

namespace Instruction

/-- The text of operand A under a type denotes what the machine reads as operand A under this type,
and evaluating it moves the cursor as the machine does. -/
theorem initialValue_operandA (d : Instruction) (type : OperandType) (s : State) :
    initialValue (s.address d) type.cType ((d.operandA type).text sourceText) s =
      some (type.variableValue (type.narrow ((s.readA d).1.integerAs type))
        (s.floatA (s.readA d).1), (s.readA d).2) := by
  have hrange : (d.operandA type).InRange := by cases type <;> exact trivial
  have hmode : (s.readA d).2.mode = s.mode := by rw [s.readA_snd]
  have hsource := evaluate_sourcePhrase d s
  rw [initialValue_text hrange]
  have hmember (part : Member) :
      (Expression.member d.sourceA part).phrase.evaluate (s.address d) s =
        some (loadMember (s.readA d).1 part, (s.readA d).2) := by
    simp only [Expression.phrase, Phrase.evaluate, hsource, Option.bind_eq_bind, Option.bind_some]
  cases type with
  | int32 =>
    change ((Expression.member d.sourceA .int32).phrase.evaluate _ s).bind _ = _
    rw [hmember, loadMember_integer _ rfl]
    rfl
  | uint32 =>
    change ((Expression.member d.sourceA .uint32).phrase.evaluate _ s).bind _ = _
    rw [hmember, loadMember_integer _ rfl]
    rfl
  | int64 =>
    change ((Expression.member d.sourceA .int64).phrase.evaluate _ s).bind _ = _
    rw [hmember, loadMember_integer _ rfl]
    rfl
  | uint64 =>
    change ((Expression.member d.sourceA .uint64).phrase.evaluate _ s).bind _ = _
    rw [hmember, loadMember_integer _ rfl]
    rfl
  | float =>
    change ((Expression.toDouble (.member d.sourceA .int64)).phrase.evaluate _ s).bind _ = _
    rw [Expression.phrase, Phrase.evaluate, hmember, loadMember_integer _ rfl]
    change some (Value.double ((s.readA d).2.mode.ofInt _), _) = _
    rw [hmode]
    rfl
  | shift =>
    have hword := hmember .uint64
    rw [loadMember_integer _ rfl] at hword
    change ((Expression.lowSixBits (.member d.sourceA .uint64)).phrase.evaluate _ s).bind _ = _
    rw [evaluate_lowSixBits hword]
    change some (Value.integer .int32 (IntegerType.int32.extend ((s.readA d).1.bits &&& 63)), _) =
      some (Value.integer .int32 ((s.readA d).1.bits &&& 63), _)
    rw [IntegerType.extend_low_six_bits]

/-- The text of a register under a type denotes its content as the machine narrows it. -/
theorem initialValue_register (type : OperandType) {number : UInt8}
    (h : number.toNat < registerCount) (address : UInt32) (s : State) :
    initialValue address type.cType
        ((type.ofRegister number : Expression SourceA).text sourceText) s =
      some (type.variableValue (type.narrow (wordAs (s.r.read number) type)) (s.f.read number),
        s) := by
  have hrange : (type.ofRegister number : Expression SourceA).InRange := by cases type <;> exact h
  have hregister : (Expression.register number).phrase.evaluate address s =
      some (.integer .uint64 (s.r.read number), s) := rfl
  rw [initialValue_text hrange]
  cases type with
  | int32 =>
    change some (Value.integer .int32 (IntegerType.int32.extend (s.r.read number)), s) =
      some (Value.integer .int32
        (IntegerType.int32.extend (IntegerType.int32.extend (s.r.read number))), s)
    rw [IntegerType.extend_extend]
  | uint32 =>
    change some (Value.integer .uint32 (IntegerType.uint32.extend (s.r.read number)), s) =
      some (Value.integer .uint32
        (IntegerType.uint32.extend (s.r.read number &&& 0xFFFFFFFF)), s)
    rw [← IntegerType.extend_uint32, IntegerType.extend_extend]
  | int64 => rfl
  | uint64 => rfl
  | float =>
    change some (loadMember ⟨(s.f.read number).bits⟩ .double, s) = _
    rw [loadMember_double]
    rfl
  | shift =>
    change ((Expression.lowSixBits (.register number)).phrase.evaluate _ s).bind _ = _
    rw [evaluate_lowSixBits hregister]
    change some (Value.integer .int32 (IntegerType.int32.extend (s.r.read number &&& 63)), _) =
      some (Value.integer .int32 (s.r.read number &&& 63), _)
    rw [IntegerType.extend_low_six_bits]

/-- The text of an immediate under a type denotes the immediate as the machine narrows it. -/
theorem initialValue_immediate (d : Instruction) (type : OperandType) (address : UInt32)
    (s : State) :
    initialValue address type.cType
        ((ofScalar (d.immediateAs type) : Expression SourceA).text sourceText) s =
      some (type.variableValue (type.narrow (d.immediateAs type).toUInt64)
        ⟨floatImmediateBits d.immediate⟩, s) := by
  have hrange : (ofScalar (d.immediateAs type) : Expression SourceA).InRange := by
    cases type <;> exact trivial
  obtain ⟨value, heval, hvalue⟩ := evaluate_immediate d type address s
  rw [initialValue_text hrange, heval]
  change (value.convert s.mode type.variableType).map (·, s) = _
  cases type with
  | float =>
    rw [Value.Is.eq_double hvalue]
    rfl
  | shift =>
    have hconvert := hvalue.convert rfl s.mode .int32
    rw [OperandType.variableType, hconvert]
    change some (Value.integer .int32 (IntegerType.int32.extend
        (d.shortImmediate.toUInt32 &&& 63).toInt32.toInt64.toUInt64), s) =
      some (Value.integer .int32
        ((d.shortImmediate.toUInt32 &&& 63).toInt32.toInt64.toUInt64 &&& 63), s)
    rw [IntegerType.extend_toUInt64, low_six_bits_toUInt64]
  | int32 => exact congrArg (Option.map (·, s)) (hvalue.convert rfl s.mode .int32)
  | uint32 => exact congrArg (Option.map (·, s)) (hvalue.convert rfl s.mode .uint32)
  | int64 => exact congrArg (Option.map (·, s)) (hvalue.convert rfl s.mode .int64)
  | uint64 => exact congrArg (Option.map (·, s)) (hvalue.convert rfl s.mode .uint64)

/-- The text of operand B under a type denotes what the machine uses as operand B under this type,
once it has been narrowed. -/
theorem initialValue_operandB {d : Instruction} (hd : d.InRange) (type : OperandType)
    (address : UInt32) (s : State) :
    initialValue address type.cType ((d.operandB type).text sourceText) s =
      some (type.variableValue (type.narrow (s.integerB d type)) (s.floatB d), s) := by
  unfold operandB State.integerB State.floatB
  rcases d.sourceB_eq_or with h | h
  · rw [h]
    exact initialValue_register type hd.registerB address s
  · rw [h]
    exact d.initialValue_immediate type address s

/-- The text of a condition denotes whether the call or return is taken. -/
theorem truthOf_condition {d : Instruction} (hd : d.InRange) {condition : Condition}
    (h : d.branchCondition = some condition) (address : UInt32) (s : State) :
    truthOf address condition.text s = some (s.condition d, s) := by
  unfold branchCondition at h
  rcases d.sourceB_eq_or with hsource | hsource
  · rw [hsource] at h
    cases h
    have heval := evaluate_condition address s ⟨d.registerB, d.immediate⟩
    rw [truthOf, denotation, read_conditionText hd.registerB]
    unfold State.condition
    rw [hsource, Option.bind_eq_bind, Option.bind_eq_bind, Option.bind_some, heval]
    dsimp only
    by_cases hle : (s.r.read d.registerB).toUInt32 ≤ d.immediate
    · rw [if_pos hle, decide_eq_true hle]
      rfl
    · rw [if_neg hle, decide_eq_false hle]
      rfl
  · rw [hsource] at h
    cases h

/-- Without a condition a call or return is always taken. -/
theorem condition_of_branchCondition_eq_none {d : Instruction} (h : d.branchCondition = none)
    (s : State) : s.condition d = true := by
  unfold branchCondition at h
  unfold State.condition
  cases hsource : d.sourceB with
  | register number =>
    rw [hsource] at h
    cases h
  | immediate => rfl

/-- The register, or the member of a cell, that a result of a type is stored to. -/
def target (d : Instruction) (type : OperandType) (s : State) : Lvalue :=
  match d.destination with
  | .register number =>
    if type.isFloat then .member (.floatRegister number) .double else .register number
  | .scratchpad window register address =>
    .member (.cell (window.index (s.r.read register ^^^ address.toUInt64).toUInt32))
      type.writtenMember

/-- The text of a place denotes what a result is stored to. -/
theorem lvalueOf_place {d : Instruction} (hd : d.InRange) (type : OperandType)
    (address : UInt32) (s : State) :
    lvalueOf address (d.place type).text s = some (d.target type s, s) := by
  rcases d.destination_eq_or with h | ⟨window, h⟩
  · have hrange : (d.place type).InRange := by
      unfold place OperandType.registerPlace
      rw [h]
      dsimp only
      split <;> exact hd.registerC
    rw [lvalueOf, read_placeText hrange]
    unfold place target OperandType.registerPlace
    rw [h]
    dsimp only
    split <;> rfl
  · unfold place target
    rw [h]
    exact lvalueOf_cell window hd.registerC d.addressC type.writtenMember address s

end Instruction

/-! ### Results -/

/-- A scalar as a value of C. -/
def Source.Value.ofScalar : Scalar → Value
  | .int32 value | .shift value => .integer .int32 value.toInt64.toUInt64
  | .uint32 value => .integer .uint32 value.toUInt64
  | .int64 value => .integer .int64 value.toUInt64
  | .uint64 value => .integer .uint64 value
  | .double value => .double value

/-- Writing a scalar to the member of its type changes a cell as storing the scalar does. -/
theorem Source.storeMember_ofScalar (mode : RoundingMode) (cell : Cell) {value : Scalar}
    (h : value.type ≠ .shift) :
    storeMember mode cell value.type.writtenMember (.ofScalar value) = some (cell.store value) := by
  cases value with
  | int32 value =>
    change some (cell.writeBytes 4 (IntegerType.int32.extend value.toInt64.toUInt64)) = _
    rw [Cell.writeBytes_four, IntegerType.extend_toUInt64, IntegerType.toUInt32_toInt64]
    rfl
  | uint32 value =>
    change some (cell.writeBytes 4 (IntegerType.uint32.extend value.toUInt64)) = _
    rw [Cell.writeBytes_four, IntegerType.extend, UInt32.toUInt32_toUInt64,
      UInt32.toUInt32_toUInt64]
    rfl
  | int64 value => exact congrArg some (Cell.writeBytes_eight cell _)
  | uint64 value => exact congrArg some (Cell.writeBytes_eight cell _)
  | double value => exact congrArg some (Cell.writeBytes_eight cell _)
  | shift value => exact absurd rfl h

namespace Instruction

/-- Assigning a scalar to what a result of its type is stored to changes the state as storing the
scalar does. -/
theorem assign_target (d : Instruction) (s : State) {value : Scalar} (h : value.type ≠ .shift) :
    (d.target value.type s).assign (.ofScalar value) s = some (s.store d value) := by
  unfold target State.store
  cases d.destination with
  | register number =>
    cases value with
    | double value =>
      change (Lvalue.member (.floatRegister number) .double).assign (.double value) s =
        some { s with f := s.f.write number value }
      have hstore := storeMember_ofScalar s.mode ((Object.floatRegister number).load s) h
      exact congrArg (Option.map fun content => (Object.floatRegister number).store s content)
        hstore
    | shift value => exact absurd rfl h
    | _ => rfl
  | scratchpad window register address =>
    change (storeMember s.mode _ _ _).map _ = _
    rw [storeMember_ofScalar s.mode _ h]
    rfl

/-- Operand A is never a shift amount. -/
theorem signature_a_ne_shift (family : Family) : family.signature.a ≠ .shift := by
  cases family <;> decide

/-- No result is a shift amount. -/
theorem signature_c_ne_shift (family : Family) : family.signature.c ≠ .shift := by
  cases family <;> decide

end Instruction

namespace Instruction

/-- What it means that the texts of an instruction denote what the machine uses in a state. -/
structure TextsDenote (d : Instruction) (s : State) : Prop where
  /-- The text of operand A denotes the value that is read, and moves the cursor alike. -/
  operandA : initialValue (s.address d) d.family.signature.a.cType
      ((d.operandA d.family.signature.a).text sourceText) s =
    some (d.family.signature.a.variableValue ((s.readA d).1.integerAs d.family.signature.a)
      (s.floatA (s.readA d).1), (s.readA d).2)
  /-- The text of operand B denotes the value that is used, once it has been narrowed. -/
  operandB : ∀ type, d.family.signature.b = some type →
    initialValue (s.address d) type.cType ((d.operandB type).text sourceText) s =
      some (type.variableValue (type.narrow (s.integerB d type)) (s.floatB d), s)
  /-- An integer family narrows operand B itself. -/
  narrowing : ∀ type, d.family.signature.b = some type → ∀ a b,
    d.family.integerResult a (type.narrow b) = d.family.integerResult a b
  /-- The text of a condition denotes whether the instruction is taken. -/
  conditional : ∀ condition, d.branchCondition = some condition →
    truthOf (s.address d) condition.text s = some (s.condition d, s)
  /-- An instruction without a condition is always taken. -/
  unconditional : d.branchCondition = none → s.condition d = true
  /-- The text of the place denotes the register or member that results are stored to. -/
  place : lvalueOf (s.address d) (d.place d.family.signature.c).text s =
    some (d.target d.family.signature.c s, s)
  /-- Assigning a value of the result's type there changes the state as storing it does. -/
  store : ∀ value : Scalar, value.type = d.family.signature.c →
    (d.target d.family.signature.c s).assign (.ofScalar value) s = some (s.store d value)
  /-- Every computed result is such a value. -/
  result : d.family ≠ .call → d.family ≠ .ret → ∀ a,
    (s.result d a).type = d.family.signature.c

/-- The texts of every instruction read from a word denote what the machine uses, in every state. -/
theorem textsDenote_ofWord (word : BitVec 128) (s : State) : (ofWord word).TextsDenote s := by
  have hd := inRange_ofWord word
  refine
    { operandA := ?_
      operandB := fun type _ => initialValue_operandB hd type _ s
      narrowing := fun type h => Family.integerResult_narrow h
      conditional := fun condition h => truthOf_condition hd h _ s
      unconditional := fun h => condition_of_branchCondition_eq_none h s
      place := lvalueOf_place hd _ _ s
      store := ?_
      result := fun hcall hret => s.type_result hcall hret }
  · rw [initialValue_operandA, OperandType.narrow_integerAs]
    exact signature_a_ne_shift _
  · intro value hvalue
    rw [← hvalue]
    exact assign_target _ s (hvalue ▸ signature_c_ne_shift _)

end Instruction
end RandomMachine
