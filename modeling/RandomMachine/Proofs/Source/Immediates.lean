import RandomMachine.Proofs.Source.Operands

/-!
# Immediates, their literals and registers

An immediate is an operand in three ways: as a value of its type, as a literal in emitted C, and as
the content of a register that holds its word. All three are one value. The literal denotes the
integer or the double that the immediate is, a variable of the type takes it over bit by bit, and
reading the register under the type extends its low bits to the same word again.
-/

namespace RandomMachine

open Source

/-- Reading the word of an immediate from a register gives the word. -/
theorem Instruction.wordAs_immediateAs (d : Instruction) (type : OperandType) :
    wordAs (d.immediateAs type).toUInt64 type = (d.immediateAs type).toUInt64 := by
  cases type with
  | int32 =>
    change (signExtend d.immediate.toInt32.toInt64.toUInt64.toUInt32).toUInt64 = _
    rw [IntegerType.toUInt32_toInt64]
    rfl
  | uint32 =>
    change d.immediate.toUInt64 &&& 0xFFFFFFFF = d.immediate.toUInt64
    rw [← IntegerType.extend_uint32, IntegerType.extend, UInt32.toUInt32_toUInt64]
  | int64 => rfl
  | uint64 => rfl
  | float => rfl
  | shift => rfl

/-- An operand B that is read from a register with the word of an immediate is the immediate. -/
theorem State.integerB_of_word {s : State} {d e : Instruction} {type : OperandType} {number : UInt8}
    (he : e.sourceB = .register number) (hword : s.r.read number = (d.immediateAs type).toUInt64) :
    s.integerB e type = (d.immediateAs type).toUInt64 := by
  unfold integerB
  rw [he]
  dsimp only
  rw [hword, d.wordAs_immediateAs]

/-- An operand B that is an immediate is the word of the immediate, in every state. -/
theorem State.integerB_of_immediate {s : State} {d : Instruction} (h : d.sourceB = .immediate)
    (type : OperandType) : s.integerB d type = (d.immediateAs type).toUInt64 := by
  unfold integerB
  rw [h]

namespace Source

/-- A narrowed immediate in a variable of its type is the immediate. -/
theorem variableValue_immediateAs (d : Instruction) (type : OperandType) :
    type.variableValue (type.narrow (d.immediateAs type).toUInt64)
      ⟨floatImmediateBits d.immediate⟩ = .ofScalar (d.immediateAs type) := by
  cases type with
  | int32 => exact congrArg _ (IntegerType.extend_toUInt64 d.immediate.toInt32)
  | uint32 =>
    exact congrArg (fun low : UInt32 => Value.integer .uint32 low.toUInt64)
      (UInt32.toUInt32_toUInt64 d.immediate)
  | int64 => rfl
  | uint64 => rfl
  | float => rfl
  | shift => exact congrArg _ (low_six_bits_toUInt64 d.shortImmediate.toUInt32)

/-- The literal of an immediate under a type, read as C, denotes the immediate, and a variable of
the type that is initialized by it holds the immediate bit by bit. As operand B, the immediate is
what any instruction reads under the type from a register that holds the word of the immediate. -/
theorem literal_denotes_immediate (d : Instruction) (type : OperandType) (address : UInt32)
    (s : State) :
    (∃ value, denotation address
        ((ofScalar (d.immediateAs type) : Expression SourceA).text sourceText) s =
          some (value, s) ∧ value.Is (d.immediateAs type)) ∧
    initialValue address type.cType
        ((ofScalar (d.immediateAs type) : Expression SourceA).text sourceText) s =
      some (.ofScalar (d.immediateAs type), s) ∧
    ∀ (e : Instruction) (number : UInt8) (t : State), d.sourceB = .immediate →
      e.sourceB = .register number → t.r.read number = (d.immediateAs type).toUInt64 →
        t.integerB e type = s.integerB d type := by
  have hrange : (ofScalar (d.immediateAs type) : Expression SourceA).InRange := by
    cases type <;> exact trivial
  refine ⟨?_, ?_, fun e number t hd he hword => ?_⟩
  · obtain ⟨value, heval, hvalue⟩ := evaluate_immediate d type address s
    refine ⟨value, ?_, hvalue⟩
    unfold denotation
    rw [read_text hrange]
    exact heval
  · rw [d.initialValue_immediate, variableValue_immediateAs]
  · rw [State.integerB_of_word he hword, State.integerB_of_immediate hd]

/-- The least immediate. Its digits do not fit the signed type of 32 bits, but the literal does. -/
theorem literal_denotes_immediate_least :
    let d : Instruction := { placeB := 7, immediate := 0x80000000 }
    let e : Instruction := { placeB := 2, registerB := 3 }
    let s := Machine.zeroState
    let t := { s with r := s.r.write 3 0xFFFFFFFF80000000 }
    (ofScalar (d.immediateAs .int32) : Expression SourceA).text sourceText = "-2147483648" ∧
      initialValue 0 "int32_t" "-2147483648" s = some (.integer .int32 0xFFFFFFFF80000000, s) ∧
      d.sourceB = .immediate ∧ e.sourceB = .register 3 ∧
      t.integerB e .int32 = s.integerB d .int32 := by
  intro d e s t
  have htext : (ofScalar (d.immediateAs .int32) : Expression SourceA).text sourceText =
      "-2147483648" := by decide
  obtain ⟨-, hinitial, hregister⟩ := literal_denotes_immediate d .int32 0 s
  rw [htext] at hinitial
  exact ⟨htext, hinitial, rfl, rfl, hregister e 3 t rfl rfl rfl⟩

end Source
end RandomMachine
