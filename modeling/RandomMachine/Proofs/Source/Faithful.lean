import RandomMachine.Proofs.Source.Operands
import RandomMachine.Proofs.Source.Unambiguous

/-!
# Blocks and steps

The block of a slot loses nothing that a step depends on: instructions whose blocks have the same
text make the same step there, from every state. The texts of such instructions are the same where
the machine looks, and a text denotes one value, one place and one condition.
-/

namespace RandomMachine

open Source

/-! ### Texts that denote the same -/

namespace OperandType

/-- A variable of an integer type determines the word it holds. -/
theorem variableValue_inj {type : OperandType} (h : type ≠ .float) {word word' : UInt64}
    {value value' : Binary64}
    (heq : type.variableValue word value = type.variableValue word' value') : word = word' := by
  cases type <;> first | exact absurd rfl h | exact (Value.integer.inj heq).2

/-- A variable of the float type determines the double it holds. -/
theorem variableValue_float_inj {word word' : UInt64} {value value' : Binary64}
    (heq : OperandType.float.variableValue word value =
      OperandType.float.variableValue word' value') : value = value' :=
  Value.double.inj heq

/-- The text of operand A determines where it is read. -/
theorem ofCell_inj {type : OperandType} {a a' : SourceA}
    (h : (type.ofCell a).text sourceText = (type.ofCell a').text sourceText) : a = a' := by
  have hrange (a : SourceA) : (type.ofCell a).InRange := by cases type <;> exact trivial
  have hphrase := congrArg read h
  rw [read_text (hrange a), read_text (hrange a')] at hphrase
  have hsource : sourcePhrase a = sourcePhrase a' := by
    cases type <;> simpa [ofCell, Expression.phrase] using hphrase
  cases a with
  | dram =>
    cases a' with
    | dram => rfl
    | scratchpad window' => cases hsource
  | scratchpad window =>
    cases a' with
    | dram => cases hsource
    | scratchpad window' =>
      cases hsource
      rfl

end OperandType

/-- A float family has no integer result. -/
theorem Family.integerResult_of_float {family : Family} (h : family.signature.b = some .float)
    (a b : UInt64) : family.integerResult a b = none := by
  cases family <;> first | rfl | cases h

namespace Instruction.SameTexts

section Parts

variable {settings : Settings} {slot : UInt64} {d d' : Instruction}
  (h : SameTexts settings slot d d')

include h

/-- Both instructions mix the same constant into the same register. -/
theorem mixAddress_eq (s : State) : s.mixAddress d = s.mixAddress d' := by
  unfold State.mixAddress
  rw [h.registerA, h.addressA]

/-- Both instructions read operand A alike. -/
theorem readA_eq (s : State) : s.readA d = s.readA d' := by
  have haddress : s.address d = s.address d' := by
    unfold State.address
    rw [h.registerA]
  have hsource : d.sourceA = d'.sourceA := OperandType.ofCell_inj h.operandA
  simp only [State.readA, haddress, hsource]

/-- Both instructions set the rounding mode alike. -/
theorem nextMode_eq (s : State) (a : Cell) : s.nextMode d a = s.nextMode d' a := by
  unfold State.nextMode
  rw [h.family]

variable (hd : d.InRange) (hd' : d'.InRange)

include hd hd'

/-- Both instructions are taken or both are not. -/
theorem condition_eq (hcontrol : d.family = .call ∨ d.family = .ret) (s : State) :
    s.condition d = s.condition d' := by
  have htext := h.condition hcontrol
  cases hcondition : d.branchCondition with
  | none =>
    rw [hcondition, Option.map_none, eq_comm, Option.map_eq_none_iff] at htext
    rw [condition_of_branchCondition_eq_none hcondition,
      condition_of_branchCondition_eq_none htext]
  | some condition =>
    rw [hcondition, Option.map_some, eq_comm, Option.map_eq_some_iff] at htext
    obtain ⟨condition', hcondition', htext⟩ := htext
    have hvalue := truthOf_condition hd hcondition 0 s
    rw [← htext, truthOf_condition hd' hcondition' 0 s] at hvalue
    exact (congrArg Prod.fst (Option.some.inj hvalue)).symm

/-- Both instructions store a result alike. -/
theorem store_eq (hstores : d.family = .call → d.branchCondition ≠ none) (s : State)
    {value : Scalar} (hvalue : value.type = d.family.signature.c) :
    s.store d value = s.store d' value := by
  have hshift : value.type ≠ .shift := hvalue ▸ signature_c_ne_shift _
  have htarget := lvalueOf_place hd value.type 0 s
  rw [hvalue, h.place hstores, ← hvalue, lvalueOf_place hd' value.type 0 s] at htarget
  have hassign := assign_target d s hshift
  rw [← (Prod.mk.inj (Option.some.inj htarget)).1, assign_target d' s hshift] at hassign
  exact (Option.some.inj hassign).symm

/-- Operand B has the same value for both instructions once it has been narrowed. -/
theorem variableValue_eq {type : OperandType} (htype : d.family.signature.b = some type)
    (s : State) :
    type.variableValue (type.narrow (s.integerB d type)) (s.floatB d) =
      type.variableValue (type.narrow (s.integerB d' type)) (s.floatB d') := by
  have hvalue := initialValue_operandB hd type 0 s
  rw [h.operandB type htype, initialValue_operandB hd' type 0 s] at hvalue
  exact (congrArg Prod.fst (Option.some.inj hvalue)).symm

/-- Operand B of a float family is the same for both instructions. -/
theorem floatB_eq (htype : d.family.signature.b = some .float) (s : State) :
    s.floatB d = s.floatB d' :=
  OperandType.variableValue_float_inj (h.variableValue_eq hd hd' htype s)

/-- An integer family computes the same from both operands B. -/
theorem integerResult_eq {type : OperandType} (htype : d.family.signature.b = some type)
    (s : State) (a : UInt64) :
    d.family.integerResult a (s.integerB d type) =
      d.family.integerResult a (s.integerB d' type) := by
  by_cases hfloat : type = .float
  · subst hfloat
    rw [Family.integerResult_of_float htype, Family.integerResult_of_float htype]
  · have hnarrow := OperandType.variableValue_inj hfloat (h.variableValue_eq hd hd' htype s)
    rw [← Family.integerResult_narrow htype, hnarrow, Family.integerResult_narrow htype]

/-- Both instructions compute the same result. -/
theorem result_eq (s : State) (a : Cell) : s.result d a = s.result d' a := by
  have hfloatB {family : Family} (hfamily : d.family = family)
      (hb : family.signature.b = some .float) : s.floatB d = s.floatB d' :=
    h.floatB_eq hd hd' (hfamily ▸ hb) s
  unfold State.result
  rw [← h.family]
  split
  · next hfamily => rw [hfloatB hfamily rfl]
  · next hfamily => rw [hfloatB hfamily rfl]
  · next hfamily => rw [hfloatB hfamily rfl]
  · next hfamily => rw [hfloatB hfamily rfl]
  · rfl
  · rfl
  · dsimp only
    cases hb : d.family.signature.b with
    | none => rfl
    | some type =>
      dsimp only
      rw [h.integerResult_eq hd hd' hb]

end Parts

section Steps

variable {m m' : Machine} (hsettings : m.settings = m'.settings) {s : State} {d d' : Instruction}

include hsettings

/-- A call has the same effect for both instructions. -/
theorem call_eq (h : SameTexts m.settings s.slot d d') (hfamily : d.family = .call)
    (value : UInt64) : m.call d value s = m'.call d' value s := by
  unfold Machine.call
  rw [← hsettings, h.target hfamily]

/-- Both instructions do the same once operand A has been read. -/
theorem execute_eq (h : SameTexts m.settings s.slot d d') (hd : d.InRange) (hd' : d'.InRange)
    (a : Cell) : m.execute d a s = m'.execute d' a s := by
  unfold Machine.execute
  rw [← h.family, ← hsettings]
  split
  · next hfamily =>
    -- A call that is not taken has a condition, so its place is printed.
    have hstores (hpass : s.condition d' ≠ true) : d.family = .call → d.branchCondition ≠ none := by
      intro _ hnone
      rw [← h.condition_eq hd hd' (.inl hfamily)] at hpass
      exact hpass (condition_of_branchCondition_eq_none hnone s)
    rw [h.condition_eq hd hd' (.inl hfamily)]
    split
    · exact call_eq hsettings h hfamily a.bits
    · next hpass =>
      rw [h.store_eq hd hd' (hstores hpass)]
      rw [hfamily]
      rfl
  · next hfamily =>
    have hstores : d.family = .call → d.branchCondition ≠ none := by
      intro hcall
      rw [hfamily] at hcall
      cases hcall
    have hstore (s : State) (word : UInt64) :
        s.store d (.uint64 word) = s.store d' (.uint64 word) := by
      apply h.store_eq hd hd' hstores
      rw [hfamily]
      rfl
    rw [h.condition_eq hd hd' (.inr hfamily)]
    split <;> rw [hstore]
  · next hcall hret =>
    have hstores : d.family = .call → d.branchCondition ≠ none := fun h => absurd h hcall
    dsimp only
    rw [h.store_eq hd hd' hstores s (s.type_result hcall hret a), h.result_eq hd hd',
      h.nextMode_eq]

/-- Both instructions make the same step. -/
theorem step_eq (hslot : m.instruction s.slot = d) (hslot' : m'.instruction s.slot = d')
    (h : SameTexts m.settings s.slot d d') (hd : d.InRange) (hd' : d'.InRange) :
    m.step s = m'.step s := by
  by_cases hbudget : s.budget = 0
  · rw [m.step_of_budget_zero s hbudget, m'.step_of_budget_zero s hbudget]
  have hfetch : m.fetch s = m'.fetch s := by
    unfold Machine.fetch
    rw [hslot, hslot', h.mixAddress_eq, h.readA_eq]
  rw [m.step_of_budget_ne_zero s hbudget, m'.step_of_budget_ne_zero s hbudget, ← hfetch, hslot,
    hslot']
  rw [← m.fetch_slot s] at h
  exact execute_eq hsettings h hd hd' _

end Steps

end Instruction.SameTexts

/-! ### Blocks of one text -/

namespace Machine

variable {m m' : Machine}

/-- Machines under the same settings that differ in the instruction of one slot make the same step
there, from every state, if the blocks of the two instructions have the same text. -/
theorem step_eq_of_block {word word' : BitVec 128} (hsettings : m.settings = m'.settings)
    {s : State} (hslot : m.instruction s.slot = .ofWord word)
    (hslot' : m'.instruction s.slot = .ofWord word')
    (htext : ofLines (block m.settings s.slot (.ofWord word)) =
      ofLines (block m.settings s.slot (.ofWord word'))) : m.step s = m'.step s :=
  Instruction.SameTexts.step_eq hsettings hslot hslot' (.of_block htext)
    (Instruction.inRange_ofWord word) (Instruction.inRange_ofWord word')

/-- Two words of one block whose fields differ in the opcode, the place of operand A, and the
register and short immediate that an addition of an immediate does not use. -/
theorem step_eq_of_block_unused :
    (Instruction.ofWord 0x00000005000000070003000206010000).toWord ≠
        (Instruction.ofWord 0x0000000500000007FF0300050701010D).toWord ∧
      ofLines (block {} 0 (.ofWord 0x00000005000000070003000206010000)) =
        ofLines (block {} 0 (.ofWord 0x0000000500000007FF0300050701010D)) ∧
      step ⟨{}, #[.ofWord 0x00000005000000070003000206010000]⟩ zeroState =
        step ⟨{}, #[.ofWord 0x0000000500000007FF0300050701010D]⟩ zeroState :=
  ⟨by decide, rfl, step_eq_of_block rfl rfl rfl rfl⟩

/-- Machines under the same settings run alike if their blocks have the same texts in every slot. -/
theorem run_eq_of_blocks (hsettings : m.settings = m'.settings)
    (hd : ∀ slot, (m.instruction slot).InRange) (hd' : ∀ slot, (m'.instruction slot).InRange)
    (htext : ∀ slot, ofLines (block m.settings slot (m.instruction slot)) =
      ofLines (block m.settings slot (m'.instruction slot))) (s : State) : m.run s = m'.run s := by
  have hstep (s : State) : m.step s = m'.step s :=
    Instruction.SameTexts.step_eq hsettings rfl rfl (.of_block (htext s.slot)) (hd _) (hd' _)
  unfold run
  generalize s.budget.toNat = fuel
  induction fuel generalizing s with
  | zero => rfl
  | succ fuel ih =>
    rw [runFor, runFor, hstep]
    split
    · exact ih _
    · rfl

end Machine
end RandomMachine
