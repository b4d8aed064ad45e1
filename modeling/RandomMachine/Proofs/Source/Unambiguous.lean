import RandomMachine.Proofs.Source.Lines

/-!
# Unambiguous blocks

Blocks of one slot under one configuration that have the same lines come from instructions that
have the same family and the same texts of operands, places and conditions. The listing in the
comment of the first line is not used for this: the family is read off the shape of the code, the
types of its variables and the expression that is assigned.
-/

namespace RandomMachine

open Source

/-! ### Families -/

/-- The shapes that the code of a family can have. -/
inductive Shape
  | plain
  | root
  | rounding
  | call
  | ret
  deriving DecidableEq, Repr

namespace Family

/-- The shape of a family's code. -/
def shape : Family → Shape
  | .fsqrt => .root
  | .fround => .rounding
  | .call => .call
  | .ret => .ret
  | _ => .plain

/-- What the code of a plain family shows of it: the types of its variables and its expression. -/
def key (family : Family) : String × Option String × String :=
  (family.signature.a.cType, family.signature.b.map OperandType.cType,
    (resultText family).getD "")

/-- A plain family is found by its key. -/
theorem find?_key {family : Family} (h : family.shape = .plain) :
    (all.find? fun other => other.key == family.key) = some family := by
  cases family <;> first | decide +kernel | cases h

/-- Plain families with one key are one family. -/
theorem key_inj {family family' : Family} (h : family.shape = .plain) (h' : family'.shape = .plain)
    (hkey : family.key = family'.key) : family = family' := by
  have hfound := find?_key h
  rw [hkey, find?_key h'] at hfound
  exact (Option.some.inj hfound).symm

/-- Families of one shape are one family, unless they are plain and have different keys. -/
theorem eq_of_shape {family family' : Family} (h : family.shape = family'.shape)
    (hkey : family.shape = .plain → family.key = family'.key) : family = family' := by
  by_cases hplain : family.shape = .plain
  · exact key_inj hplain (h ▸ hplain) (hkey hplain)
  · cases family <;> first | exact absurd rfl hplain | (cases family' <;> first | rfl | cases h)

/-- A plain family has an operand B. -/
theorem exists_signature_b {family : Family} (h : family.shape = .plain) :
    ∃ type, family.signature.b = some type := by
  cases family <;> first | exact ⟨_, rfl⟩ | cases h

/-- No other family has one. -/
theorem signature_b_eq_none {family : Family} (h : family.shape ≠ .plain) :
    family.signature.b = none := by
  cases family <;> first | rfl | exact absurd rfl h

end Family

namespace Source

/-- The code of a plain family with its operand B. -/
theorem familyLines_of_shape {settings : Settings} {slot : UInt64} {d : Instruction}
    {type : OperandType} (h : d.family.shape = .plain) (hb : d.family.signature.b = some type) :
    familyLines settings slot d =
      declareA d d.family.signature.a :: declareB d type :: (divisorGuard d.family ++
        [assignAndClose d d.family.signature.c ((resultText d.family).getD "")]) := by
  unfold familyLines
  split
  · next heq => rw [heq] at h; cases h
  · next heq => rw [heq] at h; cases h
  · next heq => rw [heq] at h; cases h
  · next heq => rw [heq] at h; cases h
  · rw [plainLines, hb]
    rfl

/-- A divisor is guarded by one line, or not at all. -/
theorem divisorGuard_eq_or (family : Family) :
    divisorGuard family = [] ∨ ∃ line, divisorGuard family = [line] := by
  unfold divisorGuard
  split
  · exact .inr ⟨_, rfl⟩
  · exact .inr ⟨_, rfl⟩
  · exact .inl rfl

/-- The shape of lines. Lines of the same number are told apart by a character at which only one
of the shapes has it. -/
def shapeOf (lines : List String) : Shape :=
  match lines with
  | [_, _] => .root
  | [_, _, last] => if last.toList[2]? = some '_' then .rounding else .plain
  | [_, _, _, _] => .plain
  | [_, test, _, _, _, _, _, _] => if test.toList[5]? = some '!' then .ret else .call
  | _ => .call

/-- No place begins like the statement that sets the rounding mode. -/
theorem getElem?_assignAndClose (d : Instruction) (type : OperandType) (value : String) :
    (assignAndClose d type value).toList[2]? ≠ some '_' := by
  unfold assignAndClose indented
  cases d.place type with
  | register number => simp [Place.text, registerName]
  | floatRegister number => simp [Place.text, floatRegisterName]
  | cell window base address part => cases window <;> simp [Place.text, memberText, windowMacro]

/-- The test of a call begins with its condition. -/
theorem getElem?_callTest (condition : Condition) :
    (indented 2 ("if(" ++ condition.text ++ ") \x7b")).toList[5]? ≠ some '!' := by
  simp [indented, Condition.text]

/-- The test of a return begins with the test of the stack. -/
theorem getElem?_returnTest (condition : String) :
    (indented 2 ("if(!STACK_IS_EMPTY()" ++ condition ++ ") \x7b")).toList[5]? = some '!' := by
  simp [indented]

/-- The code of a family has its shape. -/
theorem shapeOf_familyLines (settings : Settings) (slot : UInt64) (d : Instruction) :
    shapeOf (familyLines settings slot d) = d.family.shape := by
  by_cases hplain : d.family.shape = .plain
  · obtain ⟨type, htype⟩ := Family.exists_signature_b hplain
    rw [familyLines_of_shape hplain htype, hplain]
    rcases divisorGuard_eq_or d.family with hguard | ⟨line, hguard⟩
    · rw [hguard]
      exact if_neg (getElem?_assignAndClose d _ _)
    · rw [hguard]
      rfl
  unfold familyLines
  cases hfamily : d.family with
  | fsqrt => rfl
  | fround => rfl
  | ret => exact if_pos (getElem?_returnTest _)
  | call =>
    unfold callLines pushLines
    cases d.branchCondition with
    | none => cases settings.stackOverflow <;> rfl
    | some condition =>
      cases settings.stackOverflow with
      | fault => exact if_neg (getElem?_callTest condition)
      | unchecked => rfl
  | _ =>
    rw [hfamily] at hplain
    exact absurd rfl hplain

/-! ### Lines and their parts -/

/-- Lines that end alike are the same before their end. -/
theorem indented_append_inj {depth : Nat} {text text' ending : String}
    (h : indented depth (text ++ ending) = indented depth (text' ++ ending)) : text = text' :=
  (String.append_left_inj _).mp ((String.append_right_inj _).mp h)

/-- Types of variables are single words. -/
theorem avoids_space_cType (type : OperandType) : Avoids ' ' type.cType := by
  cases type <;> decide

/-- Names of registers are single words. -/
theorem avoids_space_registerName (number : UInt8) : Avoids ' ' (registerName number) :=
  Avoids.append_iff.mpr ⟨by decide, Avoids.decimal rfl _⟩

/-- No place contains an assignment. -/
theorem avoids_equals_placeText (place : Place) : Avoids '=' place.text := by
  have hregister (number : UInt8) : Avoids '=' (registerName number) :=
    Avoids.append_iff.mpr ⟨by decide, Avoids.decimal rfl _⟩
  cases place with
  | register number => exact hregister number
  | floatRegister number =>
    simp +decide [Place.text, floatRegisterName, Avoids.decimal]
  | cell window base address part =>
    have hwindow : Avoids '=' (windowMacro window) := by cases window <;> decide
    have hname : Avoids '=' part.name := by cases part <;> decide
    simp +decide [Place.text, memberText, hwindow, hname, hregister, Avoids.decimal]

/-- The name of a register determines its number. -/
theorem registerName_inj {number number' : UInt8} (h : registerName number = registerName number') :
    number = number' :=
  UInt8.toNat_inj.mp (Numeral.decimal_inj ((String.append_right_inj _).mp h))

/-- A label determines its slot. -/
theorem slotLabel_inj {slot slot' : UInt64} (h : slotLabel slot = slotLabel slot') : slot = slot' :=
  UInt64.toNat_inj.mp (Numeral.decimal_inj ((String.append_right_inj _).mp h))

section Parts

variable {d d' : Instruction} {type type' : OperandType}

/-- A declaration of operand A determines the type of the variable and the text of the operand. -/
theorem declareA_inj (h : declareA d type = declareA d' type') :
    type.cType = type'.cType ∧
      (d.operandA type).text sourceText = (d'.operandA type').text sourceText :=
  Avoids.append_inj " A = " (by decide) (avoids_space_cType type) (avoids_space_cType type')
    (indented_append_inj h)

/-- A declaration of operand B determines the type of the variable and the text of the operand. -/
theorem declareB_inj (h : declareB d type = declareB d' type') :
    type.cType = type'.cType ∧
      (d.operandB type).text sourceText = (d'.operandB type').text sourceText :=
  Avoids.append_inj " B = " (by decide) (avoids_space_cType type) (avoids_space_cType type')
    (indented_append_inj h)

/-- An assignment determines its place and its expression. -/
theorem assignAndClose_inj {value value' : String}
    (h : assignAndClose d type value = assignAndClose d' type' value') :
    (d.place type).text = (d'.place type').text ∧ value = value' :=
  Avoids.append_inj " = " (by decide) (avoids_equals_placeText _) (avoids_equals_placeText _)
    (indented_append_inj h)

end Parts

/-! ### The code of each shape -/

section Code

variable {settings : Settings} {slot : UInt64} {d d' : Instruction}

/-- What plain code determines. -/
theorem lines_of_plain {type type' : OperandType} (h : d.family.shape = .plain)
    (hb : d.family.signature.b = some type) (h' : d'.family.shape = .plain)
    (hb' : d'.family.signature.b = some type')
    (hcode : familyLines settings slot d = familyLines settings slot d') :
    declareA d d.family.signature.a = declareA d' d'.family.signature.a ∧
      declareB d type = declareB d' type' ∧
      assignAndClose d d.family.signature.c ((resultText d.family).getD "") =
        assignAndClose d' d'.family.signature.c ((resultText d'.family).getD "") := by
  rw [familyLines_of_shape h hb, familyLines_of_shape h' hb'] at hcode
  obtain ⟨hdeclareA, hcode⟩ := List.cons.inj hcode
  obtain ⟨hdeclareB, hcode⟩ := List.cons.inj hcode
  exact ⟨hdeclareA, hdeclareB, List.singleton_inj.mp (List.append_inj' hcode rfl).2⟩

/-- Code determines its family. -/
theorem family_eq_of_familyLines
    (hcode : familyLines settings slot d = familyLines settings slot d') :
    d.family = d'.family := by
  have hshape : d.family.shape = d'.family.shape := by
    rw [← shapeOf_familyLines settings slot d, hcode, shapeOf_familyLines]
  apply Family.eq_of_shape hshape
  intro h
  have h' := hshape.symm.trans h
  obtain ⟨type, hb⟩ := Family.exists_signature_b h
  obtain ⟨type', hb'⟩ := Family.exists_signature_b h'
  obtain ⟨hdeclareA, hdeclareB, hassign⟩ := lines_of_plain h hb h' hb' hcode
  unfold Family.key
  rw [hb, hb', (declareA_inj hdeclareA).1, Option.map_some, Option.map_some,
    (declareB_inj hdeclareB).1, (assignAndClose_inj hassign).2]

/-- As many lines push a frame for one instruction as for another. -/
theorem length_pushLines (settings : Settings) (slot : UInt64) (d d' : Instruction) :
    (pushLines settings slot d).length = (pushLines settings slot d').length := by
  unfold pushLines
  cases settings.stackOverflow <;> rfl

/-- The lines that push a frame determine the slot that is called. -/
theorem callTarget_eq_of_pushLines
    (h : pushLines settings slot d = pushLines settings slot d') :
    settings.callTarget slot d.shortImmediate = settings.callTarget slot d'.shortImmediate := by
  obtain ⟨-, -, hjump, -⟩ := by simpa only [List.cons.injEq] using List.append_cancel_left h
  exact slotLabel_inj ((String.append_right_inj _).mp (indented_append_inj hjump))

/-- A call with a condition has two more lines than one without. -/
theorem length_callLines (settings : Settings) (slot : UInt64) (d : Instruction) :
    (callLines settings slot d).length =
      (pushLines settings slot d).length + if d.branchCondition.isSome then 4 else 2 := by
  unfold callLines
  cases d.branchCondition with
  | none => simp
  | some condition => simp

/-- What the code of a call determines. The place is printed with a condition only. -/
theorem texts_of_callLines (hcode : callLines settings slot d = callLines settings slot d') :
    (d.operandA .uint64).text sourceText = (d'.operandA .uint64).text sourceText ∧
      d.branchCondition.map Condition.text = d'.branchCondition.map Condition.text ∧
      (d.branchCondition ≠ none → (d.place .uint64).text = (d'.place .uint64).text) ∧
      settings.callTarget slot d.shortImmediate = settings.callTarget slot d'.shortImmediate := by
  have hpushes := length_pushLines settings slot d d'
  have hlength := congrArg List.length hcode
  rw [length_callLines, length_callLines, hpushes] at hlength
  unfold callLines at hcode
  obtain ⟨hdeclareA, hcode⟩ := List.cons.inj hcode
  refine ⟨(declareA_inj hdeclareA).2, ?_⟩
  cases hcondition : d.branchCondition with
  | none =>
    cases hcondition' : d'.branchCondition with
    | none =>
      rw [hcondition, hcondition'] at hcode
      have hpush := (List.append_inj hcode hpushes).1
      exact ⟨rfl, fun h => absurd rfl h, callTarget_eq_of_pushLines hpush⟩
    | some condition' =>
      rw [hcondition, hcondition'] at hlength
      simp at hlength
  | some condition =>
    cases hcondition' : d'.branchCondition with
    | none =>
      rw [hcondition, hcondition'] at hlength
      simp at hlength
    | some condition' =>
      rw [hcondition, hcondition'] at hcode
      obtain ⟨htest, hcode⟩ := List.cons.inj hcode
      obtain ⟨hpush, hend⟩ := List.append_inj hcode hpushes
      obtain ⟨-, hassign⟩ := List.cons.inj hend
      have htext : condition.text = condition'.text :=
        (String.append_right_inj _).mp (indented_append_inj htest)
      exact ⟨congrArg some htext, fun _ => (assignAndClose_inj (List.singleton_inj.mp hassign)).1,
        callTarget_eq_of_pushLines hpush⟩

/-- What the code of a return determines. -/
theorem texts_of_returnLines (hcode : returnLines d = returnLines d') :
    (d.operandA .uint64).text sourceText = (d'.operandA .uint64).text sourceText ∧
      d.branchCondition.map Condition.text = d'.branchCondition.map Condition.text ∧
      (d.place .uint64).text = (d'.place .uint64).text := by
  unfold returnLines at hcode
  obtain ⟨hdeclareA, htest, -, -, -, -, -, hassign, -⟩ := by
    simpa only [List.cons.injEq] using hcode
  refine ⟨(declareA_inj hdeclareA).2, ?_, (assignAndClose_inj hassign).1⟩
  have htext := (String.append_right_inj _).mp (indented_append_inj htest)
  have hne (text : String) : "" ≠ " && " ++ text := by
    intro h
    have hlist := congrArg String.toList h
    rw [String.toList_append] at hlist
    cases hlist
  cases hcondition : d.branchCondition with
  | none =>
    rw [hcondition] at htext
    cases hcondition' : d'.branchCondition with
    | none => rfl
    | some condition' =>
      rw [hcondition'] at htext
      exact absurd htext (hne _)
  | some condition =>
    rw [hcondition] at htext
    cases hcondition' : d'.branchCondition with
    | none =>
      rw [hcondition'] at htext
      exact absurd htext.symm (hne _)
    | some condition' =>
      rw [hcondition'] at htext
      exact congrArg some ((String.append_right_inj _).mp htext)

/-- What the code of a square root determines. -/
theorem texts_of_rootLines (hcode : rootLines d = rootLines d') :
    (d.operandA .float).text sourceText = (d'.operandA .float).text sourceText ∧
      (d.place .float).text = (d'.place .float).text := by
  unfold rootLines at hcode
  obtain ⟨hdeclareA, hassign, -⟩ := by simpa only [List.cons.injEq] using hcode
  exact ⟨(String.append_right_inj _).mp (indented_append_inj hdeclareA),
    (assignAndClose_inj hassign).1⟩

/-- What the code of an instruction that sets the rounding mode determines. -/
theorem texts_of_roundingLines (hcode : roundingLines d = roundingLines d') :
    (d.operandA .int64).text sourceText = (d'.operandA .int64).text sourceText ∧
      (d.place .float).text = (d'.place .float).text := by
  unfold roundingLines at hcode
  obtain ⟨hdeclareA, hassign, -⟩ := by simpa only [List.cons.injEq] using hcode
  exact ⟨(declareA_inj hdeclareA).2, indented_append_inj hassign⟩

end Code

end Source

/-! ### Texts of an instruction -/

namespace Instruction

/-- What it means that two instructions in one slot have the same texts, as far as their code shows
them. -/
structure SameTexts (settings : Settings) (slot : UInt64) (d d' : Instruction) : Prop where
  registerA : d.registerA = d'.registerA
  addressA : d.addressA = d'.addressA
  family : d.family = d'.family
  operandA : (d.operandA d.family.signature.a).text sourceText =
    (d'.operandA d.family.signature.a).text sourceText
  operandB : ∀ type, d.family.signature.b = some type →
    (d.operandB type).text sourceText = (d'.operandB type).text sourceText
  /-- A call without a condition assigns no result. -/
  place : (d.family = .call → d.branchCondition ≠ none) →
    (d.place d.family.signature.c).text = (d'.place d.family.signature.c).text
  condition : d.family = .call ∨ d.family = .ret →
    d.branchCondition.map Condition.text = d'.branchCondition.map Condition.text
  target : d.family = .call →
    settings.callTarget slot d.shortImmediate = settings.callTarget slot d'.shortImmediate

variable {settings : Settings} {slot : UInt64} {d d' : Instruction}

/-- An instruction that is neither a call nor a return has no texts but its operands and its place.
-/
theorem SameTexts.of_operands (registerA : d.registerA = d'.registerA)
    (addressA : d.addressA = d'.addressA) (family : d.family = d'.family)
    (hcall : d.family ≠ .call) (hret : d.family ≠ .ret)
    (operandA : (d.operandA d.family.signature.a).text sourceText =
      (d'.operandA d.family.signature.a).text sourceText)
    (operandB : ∀ type, d.family.signature.b = some type →
      (d.operandB type).text sourceText = (d'.operandB type).text sourceText)
    (place : (d.place d.family.signature.c).text = (d'.place d.family.signature.c).text) :
    SameTexts settings slot d d' where
  registerA := registerA
  addressA := addressA
  family := family
  operandA := operandA
  operandB := operandB
  place _ := place
  condition h := (h.elim hcall hret).elim
  target h := absurd h hcall

/-- Instructions of a plain family with the same address and the same code have the same texts. -/
theorem SameTexts.of_plain (registerA : d.registerA = d'.registerA)
    (addressA : d.addressA = d'.addressA) (family : d.family = d'.family)
    (hplain : d.family.shape = .plain)
    (hcode : familyLines settings slot d = familyLines settings slot d') :
    SameTexts settings slot d d' := by
  obtain ⟨type, hb⟩ := Family.exists_signature_b hplain
  obtain ⟨hdeclareA, hdeclareB, hassign⟩ :=
    lines_of_plain hplain hb (family ▸ hplain) (family ▸ hb) hcode
  rw [← family] at hdeclareA hassign
  apply of_operands registerA addressA family
  · intro h
    rw [h] at hplain
    cases hplain
  · intro h
    rw [h] at hplain
    cases hplain
  · exact (declareA_inj hdeclareA).2
  · intro other hother
    rw [← Option.some.inj (hb.symm.trans hother)]
    exact (declareB_inj hdeclareB).2
  · exact (assignAndClose_inj hassign).1

/-- Instructions with the same address and the same code have the same texts. -/
theorem SameTexts.of_familyLines (registerA : d.registerA = d'.registerA)
    (addressA : d.addressA = d'.addressA)
    (hcode : familyLines settings slot d = familyLines settings slot d') :
    SameTexts settings slot d d' := by
  have family := family_eq_of_familyLines hcode
  by_cases hplain : d.family.shape = .plain
  · exact of_plain registerA addressA family hplain hcode
  have operandB : ∀ type, d.family.signature.b = some type →
      (d.operandB type).text sourceText = (d'.operandB type).text sourceText := by
    intro type h
    rw [Family.signature_b_eq_none hplain] at h
    cases h
  unfold familyLines at hcode
  rw [← family] at hcode
  cases hfamily : d.family with
  | fsqrt =>
    rw [hfamily] at hcode
    obtain ⟨hoperandA, hplace⟩ := texts_of_rootLines hcode
    apply of_operands registerA addressA family _ _ _ operandB <;> rw [hfamily]
    · exact hplace
    · decide
    · decide
    · exact hoperandA
  | fround =>
    rw [hfamily] at hcode
    obtain ⟨hoperandA, hplace⟩ := texts_of_roundingLines hcode
    apply of_operands registerA addressA family _ _ _ operandB <;> rw [hfamily]
    · exact hplace
    · decide
    · decide
    · exact hoperandA
  | call =>
    rw [hfamily] at hcode
    obtain ⟨hoperandA, hcondition, hplace, htarget⟩ := texts_of_callLines hcode
    exact
      { registerA, addressA, family, operandB
        operandA := by rwa [hfamily]
        place := by rw [hfamily]; exact fun h => hplace (h rfl)
        condition := fun _ => hcondition
        target := fun _ => htarget }
  | ret =>
    rw [hfamily] at hcode
    obtain ⟨hoperandA, hcondition, hplace⟩ := texts_of_returnLines hcode
    exact
      { registerA, addressA, family, operandB
        operandA := by rwa [hfamily]
        place := fun _ => by rwa [hfamily]
        condition := fun _ => hcondition
        target := by rw [hfamily]; intro h; cases h }
  | _ =>
    rw [hfamily] at hplain
    exact absurd rfl hplain

/-- Instructions whose blocks have the same text have the same texts. -/
theorem SameTexts.of_block
    (h : ofLines (block settings slot d) = ofLines (block settings slot d')) :
    SameTexts settings slot d d' := by
  obtain ⟨hheader, hcode⟩ := List.append_inj (block_inj h) rfl
  obtain ⟨-, -, hmix, -⟩ := by simpa only [blockHeader, List.cons.injEq] using hheader
  obtain ⟨hregister, haddress⟩ := Avoids.append_inj " ^= " (by decide)
    (avoids_space_registerName d.registerA) (avoids_space_registerName d'.registerA)
    (indented_append_inj hmix)
  exact .of_familyLines (registerName_inj hregister)
    (UInt32.toNat_inj.mp (Numeral.decimal_inj haddress)) hcode

end Instruction
end RandomMachine
