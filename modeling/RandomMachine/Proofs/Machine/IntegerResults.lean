import RandomMachine.Proofs.Machine.StepEffect

/-!
# Integer results

The operands of integer families are narrowed when they are read, once more when the family
computes, and the result is narrowed when it is written. None of this loses anything: a step writes
what its family makes of all bits of operand A and of the whole operand B.
-/

namespace RandomMachine

/-! ### Narrowing -/

/-- Operand A keeps its low half when it is read. -/
theorem Cell.toUInt32_integerAs (cell : Cell) (type : OperandType) :
    (cell.integerAs type).toUInt32 = cell.bits.toUInt32 := by
  cases type with
  | int32 => exact toUInt32_signExtend cell.bits.toUInt32
  | uint32 => exact UInt32.toUInt32_toUInt64 cell.bits.toUInt32
  | int64 => rfl
  | uint64 => rfl
  | float => rfl
  | shift => rfl

/-- Operand B keeps its low half when it is read from a register. -/
theorem toUInt32_wordAs (word : UInt64) (type : OperandType) :
    (wordAs word type).toUInt32 = word.toUInt32 := by
  cases type with
  | int32 => exact toUInt32_signExtend word.toUInt32
  | uint32 =>
    change (word &&& 0xFFFFFFFF).toUInt32 = _
    rw [UInt64.toUInt32_and]
    exact UInt32.and_neg_one
  | int64 => rfl
  | uint64 => rfl
  | float => rfl
  | shift => rfl

namespace Family

/-- An integer family that narrows operand A reads its low half alone. -/
theorem integerResult_integerAs (family : Family) (cell : Cell) (b : UInt64) :
    family.integerResult (cell.integerAs family.signature.a) b =
      family.integerResult cell.bits b := by
  have hlow := cell.toUInt32_integerAs family.signature.a
  cases family with
  | add32 | sub32 | and32 | or32 | xor32 | mul32 | imul32 =>
    simp only [integerResult, signedLow, hlow]
  | _ => rfl

/-- An integer family that narrows operand B reads its low half alone. -/
theorem integerResult_wordAs {family : Family} {type : OperandType}
    (h : family.signature.b = some type) (a b : UInt64) :
    family.integerResult a (wordAs b type) = family.integerResult a b := by
  have hlow := toUInt32_wordAs b type
  cases family with
  | add32 | sub32 | and32 | or32 | xor32 | mul32 | imul32 | div64 | idiv64 =>
    simp only [integerResult, signedLow, hlow]
  | fsqrt | fround | call | ret => cases h
  | _ =>
    cases h
    rfl

/-- The results of a family fit the type under which it stores them. -/
theorem bits_integerScalar {family : Family} {a b value : UInt64}
    (h : family.integerResult a b = some value) :
    (integerScalar value family.signature.c).bits = value := by
  cases family with
  | add32 | sub32 | and32 | or32 | xor32 =>
    cases h
    exact congrArg UInt32.toUInt64 (UInt32.toUInt32_toUInt64 _)
  | fadd | fsub | fmul | fdiv | fsqrt | fround | call | ret => cases h
  | _ =>
    cases h
    rfl

/-- Results that are stored under the unsigned type of 32 bits have no more bits. -/
theorem toNat_integerResult_lt {family : Family} {a b value : UInt64}
    (h : family.integerResult a b = some value) (hc : family.signature.c = .uint32) :
    value.toNat < 2 ^ 32 := by
  have hbits := bits_integerScalar h
  rw [hc] at hbits
  rw [← hbits]
  exact UInt32.toNat_lt value.toUInt32

/-- Integer families give no floats. -/
theorem signature_c_ne_float {family : Family} (h : family.familyClass ≠ .float) :
    family.signature.c ≠ .float := by
  cases family with
  | fadd | fsub | fmul | fdiv | fsqrt | fround => exact absurd rfl h
  | _ => decide

/-- An integer family has an operand B, and a result whatever its operands are. -/
theorem exists_integerResult {family : Family} (hfloat : family.familyClass ≠ .float)
    (hcontrol : family.familyClass ≠ .control) :
    (∃ type, family.signature.b = some type) ∧
      ∀ a b, ∃ value, family.integerResult a b = some value := by
  cases family with
  | fadd | fsub | fmul | fdiv | fsqrt | fround => exact absurd rfl hfloat
  | call | ret => exact absurd rfl hcontrol
  | _ => exact ⟨⟨_, rfl⟩, fun a b => ⟨_, rfl⟩⟩

end Family

/-! ### Steps -/

namespace State

/-- Operand B before it is narrowed: the whole register, once the constant of the instruction has
been mixed in, or the immediate under a type. -/
def wholeB (s : State) (d : Instruction) (type : OperandType) : UInt64 :=
  if d.placeB < 6 then s.mixedContent d (.integer d.registerB) else (d.immediateAs type).toUInt64

/-- A family computes the same from the narrowed operands as from all their bits. -/
theorem integerResult_operands (s : State) {d : Instruction} (hd : d.InRange) {type : OperandType}
    (h : d.family.signature.b = some type) :
    d.family.integerResult ((s.operandCell d).integerAs d.family.signature.a)
        ((s.mixAddress d).integerB d type) =
      d.family.integerResult (s.operandCell d).bits (s.wholeB d type) := by
  rw [Family.integerResult_integerAs]
  unfold integerB wholeB Instruction.sourceB
  by_cases hplace : d.placeB < 6
  · simp only [if_pos hplace]
    rw [Family.integerResult_wordAs h, ← s.content_mixAddress hd.registerA]
    rfl
  · simp only [if_neg hplace]

/-- What an integer instruction computes is the result of its family. -/
theorem result_integer (s : State) {d : Instruction} {type : OperandType} {a : Cell}
    {value : UInt64} (htype : d.family.signature.b = some type)
    (h : d.family.integerResult (a.integerAs d.family.signature.a) (s.integerB d type) =
      some value) :
    s.result d a = integerScalar value d.family.signature.c := by
  unfold result
  split
  case h_7 => simp only [htype, h, Option.getD_some]
  all_goals
    next hf =>
      rw [hf] at h
      cases h

end State

namespace Machine

variable {m : Machine} {s : State} {d : Instruction}

/-- A step of an integer family leaves, where its result goes, what the family computes. -/
theorem content_resultPlace_step (hb : s.budget ≠ 0) (hslot : m.instruction s.slot = d)
    (hd : d.InRange) (hcontrol : d.family.familyClass ≠ .control) {type : OperandType}
    (htype : d.family.signature.b = some type) {value : UInt64}
    (h : d.family.integerResult (s.operandCell d).bits (s.wholeB d type) = some value) :
    (m.step s).2.content (d.resultPlace (s.mixedContent d)) =
      (d.resultPlace (s.mixedContent d)).overwritten d.family.signature.c
        (s.mixedContent d (d.resultPlace (s.mixedContent d))) value := by
  subst hslot
  have hcall : (m.instruction s.slot).family ≠ .call := fun hf => hcontrol (by rw [hf]; rfl)
  have hret : (m.instruction s.slot).family ≠ .ret := fun hf => hcontrol (by rw [hf]; rfl)
  have hresult := (s.mixAddress _).result_integer htype
    ((s.integerResult_operands hd htype).trans h)
  obtain ⟨-, -, hcontent⟩ := step_moved hb hd
  rw [hcontent, contentAfter, m.written_of_computes hcall hret, hresult]
  dsimp only
  rw [Instruction.overwrite_resultPlace, Family.bits_integerScalar h]

/-- Whatever the bits of the operands are, a step of an integer family stores what the family makes
of all bits of operand A and of the whole operand B: in a register or a cell as it is, and under the
unsigned type of 32 bits in the low half of a cell, whose high half stays. The register numbers have
to be those of registers, as they are in every instruction word. -/
theorem integer_step_lossless (hb : s.budget ≠ 0) (hslot : m.instruction s.slot = d)
    (hd : d.InRange) (hfloat : d.family.familyClass ≠ .float)
    (hcontrol : d.family.familyClass ≠ .control) :
    ∃ type value, d.family.signature.b = some type ∧
      d.family.integerResult (s.operandCell d).bits (s.wholeB d type) = some value ∧
      d.family.integerResult ((s.operandCell d).integerAs d.family.signature.a)
          ((s.mixAddress d).integerB d type) = some value ∧
      (4 ≤ d.placeC % 8 → (m.step s).2.r.read d.registerC = value) ∧
      (d.placeC % 8 < 4 → ∀ i,
        i = d.resultWindow.index
            (s.mixedContent d (.integer d.registerC) ^^^ d.addressC.toUInt64).toUInt32 →
          if d.family.signature.c = .uint32 then
            ((m.step s).2.content (.cell i)).toNat % 2 ^ 32 = value.toNat ∧
              ((m.step s).2.content (.cell i)).toNat / 2 ^ 32 =
                (s.content (.cell i)).toNat / 2 ^ 32
          else (m.step s).2.content (.cell i) = value) := by
  obtain ⟨⟨type, htype⟩, hvalue⟩ := Family.exists_integerResult hfloat hcontrol
  obtain ⟨value, h⟩ := hvalue (s.operandCell d).bits (s.wholeB d type)
  have hstored := content_resultPlace_step hb hslot hd hcontrol htype h
  refine ⟨type, value, htype, h, (s.integerResult_operands hd htype).trans h, ?_, ?_⟩
  · intro hplace
    have hregister : d.resultPlace (s.mixedContent d) = .integer d.registerC := by
      unfold Instruction.resultPlace
      rw [if_neg (UInt8.not_lt.mpr hplace), if_neg (Family.signature_c_ne_float hfloat)]
    rw [hregister] at hstored
    exact hstored
  · rintro hplace i rfl
    generalize hi : d.resultWindow.index _ = i
    have hcell : d.resultPlace (s.mixedContent d) = .cell i := by
      unfold Instruction.resultPlace
      rw [if_pos hplace, hi]
    have hold : s.mixedContent d (.cell i) = s.content (.cell i) := if_neg nofun
    rw [hcell, hold] at hstored
    rw [hstored]
    split
    · next hc =>
      have hlt := Family.toNat_integerResult_lt h hc
      rw [hc, Storage.toNat_overwritten_cell]
      omega
    · next hc => exact Storage.overwritten_of_ne _ hc _ _

/-- A program of one signed product of low halves, with minus one as operand B. -/
def opposites : Machine where
  settings := {}
  instructions := #[.ofWord 0xFFFFFFFF000000000003040006000536#128]

/-- A state with two in the low half of every cell, and one in the high half. -/
def twos : State :=
  { zeroState with scratchpad := Vector.replicate scratchpadLength ⟨0x100000002⟩ }

/-- The high half of operand A is no part of the product, and the register gets all its bits. -/
theorem integer_step_lossless_opposites :
    (opposites.step twos).2.r.read 3 = 0xFFFFFFFFFFFFFFFE := by
  obtain ⟨type, value, htype, hvalue, -, hregister, -⟩ :=
    integer_step_lossless (m := opposites) (s := twos) (by decide) rfl
      ⟨by decide, by decide, by decide⟩ (by decide) (by decide)
  have hcell : twos.operandCell (opposites.instruction 0) = ⟨0x100000002⟩ :=
    Vector.getElem_replicate _
  obtain rfl : OperandType.int32 = type := Option.some.inj htype
  change Family.imul32.integerResult (twos.operandCell (opposites.instruction 0)).bits
    0xFFFFFFFFFFFFFFFF = some value at hvalue
  rw [hcell] at hvalue
  exact (hregister (by decide)).trans (Option.some.inj (hvalue.symm.trans (by decide)))

end Machine
end RandomMachine
