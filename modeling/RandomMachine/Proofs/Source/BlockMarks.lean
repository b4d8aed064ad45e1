import RandomMachine.Proofs.Source.Marks
import RandomMachine.Tally.Basic

/-!
# Marks of blocks

The block of an instruction is marked by what a tally counts of it: operand A is read once; a call
pushes one return address and a return jumps to one; either tests its condition if it has one.
-/

namespace RandomMachine

open Source

/-- The marks of an instruction. -/
def Instruction.marks (d : Instruction) : List Landmark :=
  .read d.sourceA ::
    match d.family with
    | .call => (if d.isConditional then [.callTest] else []) ++ [.push]
    | .ret => (if d.isConditional then [.returnTest] else []) ++ [.jump]
    | _ => []

namespace Source

/-! ### Names -/

/-- What begins with a decimal numeral begins a name. -/
theorem beginsName_decimal (n : Nat) (rest : String) : BeginsName (Numeral.decimal n ++ rest) := by
  obtain ⟨c, digits, hdigits⟩ := List.exists_cons_of_ne_nil (Nat.toDigits_ne_nil (b := 10) (n := n))
  have hdigit : c.isDigit = true :=
    Nat.isDigit_of_mem_toDigits (by decide : 10 > 0) (by decide : 10 ≤ 10)
      (hdigits ▸ List.mem_cons_self)
  refine ⟨c, ?_, by rw [isNameStart, hdigit]; rfl⟩
  rw [String.toList_append, Numeral.toList_decimal, hdigits]
  rfl

/-- What begins with the name of a register begins a name. -/
theorem beginsName_registerName (number : UInt8) (rest : String) :
    BeginsName (registerName number ++ rest) := by
  refine ⟨'r', ?_, rfl⟩
  rw [registerName, String.toList_append, String.toList_append]
  rfl

/-- What begins with the label of a slot begins a name. -/
theorem beginsName_slotLabel (slot : UInt64) (rest : String) :
    BeginsName (slotLabel slot ++ rest) := by
  refine ⟨'i', ?_, rfl⟩
  rw [slotLabel, String.toList_append, String.toList_append]
  rfl

namespace Marked

variable {d : Instruction} {text : String}

/-! ### Lines of operands and results -/

/-- A member of the cell that operand A is read from reads it, whatever is done with it. -/
theorem member {before : String} (hbefore : before ∈ [" ", " (", " (double)", " fabs((double)"])
    (source : SourceA) {rest : String} (hrest : Plain rest) :
    Marked (before ++ (sourceText source ++ "." ++ rest)) [.read source] := by
  have hsource : Marked (before ++ sourceText source) [.read source] := by
    revert before
    cases source with
    | dram => decide
    | scratchpad window => cases window <;> decide
  exact separated (c := '.') (by decide) hsource (of_plain hrest) (by simp)

/-- Declarations of operand A read it. -/
theorem declareA (d : Instruction) (type : OperandType) :
    Marked (declareA d type) [.read d.sourceA] := by
  have htype : Plain (type.cType ++ " A ") := by cases type <;> decide
  have hmember {before : String} (hbefore : before ∈ [" ", " (", " (double)", " fabs((double)"])
      (part : Member) {after : String} (hafter : Plain (part.name ++ after)) :
      Marked (before ++ (memberText (sourceText d.sourceA) part ++ after)) [.read d.sourceA] := by
    rw [memberText, String.append_assoc]
    exact member hbefore d.sourceA hafter
  have hoperand : Marked (" " ++ ((d.operandA type).text sourceText ++ ";")) [.read d.sourceA] := by
    cases type with
    | int32 => exact hmember (by decide) .int32 (by decide)
    | uint32 => exact hmember (by decide) .uint32 (by decide)
    | int64 => exact hmember (by decide) .int64 (by decide)
    | uint64 => exact hmember (by decide) .uint64 (by decide)
    | float =>
      have htext (cell : String) :
          " " ++ ("(double)" ++ cell ++ ";") = " (double)" ++ (cell ++ ";") :=
        String.toList_inj.mp (by simp)
      change Marked (" " ++ ("(double)" ++ memberText _ .int64 ++ ";")) _
      rw [htext]
      exact hmember (by decide) .int64 (by decide)
    | shift =>
      have htext (cell : String) : " " ++ ("(" ++ cell ++ " & 63)" ++ ";") =
          " (" ++ (cell ++ " & 63);") :=
        String.toList_inj.mp (by simp)
      change Marked (" " ++ ("(" ++ memberText _ .uint64 ++ " & 63)" ++ ";")) _
      rw [htext]
      exact hmember (by decide) .uint64 (by decide)
  exact .indented 2 (separated (c := '=') (by decide) (of_plain htype) hoperand (by simp))

/-- Operand B has no marks. -/
theorem operandB (d : Instruction) (type : OperandType) :
    Marked (" " ++ ((d.operandB type).text sourceText ++ ";")) [] := by
  unfold Instruction.operandB
  cases d.sourceB with
  | register number =>
    have hcast : Marked (" " ++ ("(int64_t)" ++ registerName number ++ ";")) [] := by
      have htext : " " ++ ("(int64_t)" ++ registerName number ++ ";") =
          " (int64_t)r" ++ (Numeral.decimal number.toNat ++ ";") :=
        String.toList_inj.mp (by simp [registerName])
      rw [htext]
      exact append_name (x := 'r') (by decide) (by decide) (by decide)
        ((Plain.decimal _).append (by decide)) (beginsName_decimal _ _)
    have hregister : Marked (" " ++ (registerName number ++ ";")) [] :=
      of_plain ((by decide : Plain " ").append ((Plain.registerName _).append (by decide)))
    cases type with
    | int32 => exact hcast
    | int64 => exact hcast
    | uint32 => exact hregister
    | uint64 => exact hregister
    | float =>
      exact of_plain ((by decide : Plain " ").append
        ((Plain.floatRegisterName number).append (by decide)))
    | shift =>
      have htext : " " ++ ("(" ++ registerName number ++ " & 63)" ++ ";") =
          " (" ++ (registerName number ++ " & 63);") :=
        String.toList_inj.mp (by simp)
      change Marked (" " ++ ("(" ++ registerName number ++ " & 63)" ++ ";")) []
      rw [htext]
      exact append_name (x := '(') (by decide) (by decide) (by decide)
        ((Plain.registerName _).append (by decide)) (beginsName_registerName _ _)
  | immediate =>
    have hsigned (value : Int) (suffix : Suffix) :
        Marked (" " ++ (Numeral.signed value ++ suffix.text ++ ";")) [] := by
      have hsuffix : Plain suffix.text := by cases suffix <;> decide
      exact of_plain ((by decide : Plain " ").append
        (((Plain.signed value).append hsuffix).append (by decide)))
    change Marked (" " ++ ((ofScalar (d.immediateAs type) : Expression SourceA).text sourceText ++
      ";")) []
    cases d.immediateAs type with
    | double value =>
      -- The equals sign of the compound literal parts it from its digits.
      have hcast : Marked " ((convertible_t)\x7b .u64 " [] := by decide
      have hbits : Plain (" 0x" ++ Numeral.hexDigits 16 value.bits.toNat ++ "ULL \x7d).f64;") :=
        ((by decide : Plain " 0x").append (.hexDigits 16 _)).append (by decide)
      change Marked (" " ++ ("((convertible_t)\x7b .u64 = 0x" ++ _ ++ "ULL \x7d).f64" ++ ";")) []
      exact separated (c := '=') (by decide) hcast (of_plain hbits) (by simp)
    | _ => exact hsigned _ _

/-- Declarations of operand B have no marks. -/
theorem declareB (d : Instruction) (type : OperandType) : Marked (declareB d type) [] := by
  have htype : Plain (type.cType ++ " B ") := by cases type <;> decide
  exact .indented 2 (separated (c := '=') (by decide) (of_plain htype) (operandB d type) (by simp))

/-- Places have no marks. -/
theorem placeText (place : Place) : Marked (place.text ++ " ") [] := by
  cases place with
  | register number => exact of_plain ((Plain.registerName number).append (by decide))
  | floatRegister number => exact of_plain ((Plain.floatRegisterName number).append (by decide))
  | cell window base address part =>
    have htext : (Place.cell window base address part).text ++ " " =
        windowMacro window ++ "(" ++ (registerName base ++
          (" ^ " ++ Numeral.decimal address.toNat ++ "U)." ++ (part.name ++ " "))) :=
      String.toList_inj.mp (by simp [Place.text, memberText])
    have hname : Plain (part.name ++ " ") := by cases part <;> decide
    have haddress : Plain (" ^ " ++ Numeral.decimal address.toNat ++ "U)." ++ (part.name ++ " ")) :=
      (((by decide : Plain " ^ ").append (.decimal _)).append (by decide)).append hname
    have hwindow : Marked (windowMacro window ++ "(") [] := by cases window <;> decide
    have hlast : (windowMacro window ++ "(").toList.getLast? = some '(' := by
      cases window <;> decide
    rw [htext]
    exact hwindow.append_name (by decide) hlast ((Plain.registerName base).append haddress)
      (beginsName_registerName _ _)

/-- An assignment is marked by its value. -/
theorem assigned (place : Place) {value : String} {marks : List Landmark}
    (h : Marked (" " ++ value) marks) : Marked (place.text ++ " = " ++ value) marks :=
  separated (c := '=') (by decide) (placeText place) h (by simp)

/-- The last line of a block is marked by the value that it assigns. -/
theorem assignAndClose (d : Instruction) (type : OperandType) {value : String}
    (h : Marked (" " ++ (value ++ "; \x7d")) []) : Marked (assignAndClose d type value) [] := by
  have := assigned (d.place type) h
  rw [← String.append_assoc] at this
  exact this.indented 2

/-! ### Blocks -/

/-- The first lines of a block have no marks. -/
theorem blockHeader (slot : UInt64) (d : Instruction) :
    Marked (ofLines (blockHeader slot d)) [] := by
  apply ofLines_of_forall
  simp only [Source.blockHeader, List.forall_mem_cons]
  refine ⟨?_, ?_, ?_, ?_, ?_⟩
  · exact .indented 1 (of_plain (((Plain.slotLabel slot).append (by decide)).append (.listing d)))
  · decide
  · exact .indented 2 (of_plain ((((Plain.registerName _).append (by decide)).append
      (.decimal _)).append (by decide)))
  · exact .indented 2 (of_plain (((by decide : Plain ("addr_t " ++ addressVariable ++ " = ")).append
      (.registerName _)).append (by decide)))
  · exact fun _ h => absurd h List.not_mem_nil

/-- The results of families have no marks. -/
theorem resultText (family : Family) :
    Marked (" " ++ ((resultText family).getD "" ++ "; \x7d")) [] := by
  -- Most results are plain; products, wide products and rotations are not.
  cases family <;> first | exact of_plain (by decide) | decide

/-- A family without control flow reads operand A. -/
theorem plainLines (d : Instruction) (family : Family) :
    Marked (ofLines (plainLines d family ((Source.resultText family).getD "")))
      [.read d.sourceA] := by
  have hguard : Marked (ofLines (divisorGuard family)) [] := by
    unfold divisorGuard
    split <;> first | exact ofLines_nil | decide
  have hclose := (assignAndClose d family.signature.c (resultText family)).ofLines_cons ofLines_nil
  cases htype : family.signature.b with
  | none =>
    have hdeclared := (declareA d family.signature.a).ofLines_cons ofLines_nil
    rw [Source.plainLines, htype]
    exact (hdeclared.ofLines_append hguard).ofLines_append hclose
  | some type =>
    have hdeclared := (declareA d family.signature.a).ofLines_cons
      ((declareB d type).ofLines_cons ofLines_nil)
    rw [Source.plainLines, htype]
    exact (hdeclared.ofLines_append hguard).ofLines_append hclose

/-- A square root reads operand A. -/
theorem rootLines (d : Instruction) : Marked (ofLines (rootLines d)) [.read d.sourceA] := by
  have hmember : Marked (" fabs((double)" ++ (sourceText d.sourceA ++ "." ++ "i64);"))
      [.read d.sourceA] :=
    member (by decide) d.sourceA (by decide)
  have hvariable : Plain "double A " := by decide
  have hdeclared : Marked ("double A = fabs(" ++ ("(double)" ++ (sourceText d.sourceA ++ "." ++
      "i64")) ++ ");") [.read d.sourceA] :=
    separated (c := '=') (by decide) (of_plain hvariable) hmember (by simp)
  have hclose : Marked (Source.assignAndClose d .float
      "_mm_cvtsd_f64(_mm_sqrt_sd(_mm_setzero_pd(), _mm_set_sd(A)))") [] :=
    assignAndClose d .float (by decide)
  exact (hdeclared.indented 2).ofLines_cons (hclose.ofLines_cons ofLines_nil)

/-- An instruction that sets the rounding mode reads operand A. -/
theorem roundingLines (d : Instruction) : Marked (ofLines (roundingLines d)) [.read d.sourceA] := by
  have hassigned : Marked (Source.indented 2 ((d.place .float).text ++ " = A;")) [] :=
    .indented 2 (separated (c := '=') (by decide) (placeText (d.place .float))
      (by decide : Marked " A;" []) (by simp))
  exact (declareA d .int64).ofLines_cons (hassigned.ofLines_cons
    ((by decide : Marked _ []).ofLines_cons ofLines_nil))

/-- The lines of a call push one return address. -/
theorem pushLines (settings : Settings) (slot : UInt64) (d : Instruction) :
    Marked (ofLines (pushLines settings slot d)) [.push] := by
  have hroom : Marked
      (ofLines [Source.indented 3 ("if(sp + 2 > STACK_LENGTH) goto " ++ overflowLabel ++ ";")])
      [] := by
    decide
  have hvalue : Marked (Source.indented 3 "PUSH_VALUE(A);") [] := by decide
  have haddress : Marked (Source.indented 3
      ("PUSH_ADDRESS(&&" ++ slotLabel (settings.nextSlot slot) ++ ");")) [.push] := by
    rw [String.append_assoc]
    exact .indented 3 ((by decide : Marked "PUSH_ADDRESS(&&" [.push]).append_name (x := '&')
      (by decide) (by decide) ((Plain.slotLabel _).append (by decide)) (beginsName_slotLabel _ _))
  have hjump : Marked (Source.indented 3
      ("goto " ++ slotLabel (settings.callTarget slot d.shortImmediate) ++ ";")) [] :=
    .indented 3 (of_plain (((by decide : Plain "goto ").append (.slotLabel _)).append (by decide)))
  have hpush := hvalue.ofLines_cons (haddress.ofLines_cons (hjump.ofLines_cons ofLines_nil))
  unfold Source.pushLines
  cases settings.stackOverflow with
  | fault => exact hroom.ofLines_append hpush
  | unchecked => exact hpush

/-- A condition behind a phrase that begins with it. -/
theorem condition {before after : String} {mark : Landmark} (condition : Condition)
    (hbefore : Marked (before ++ "(uint32_t)r") [mark]) (hafter : Plain after) :
    Marked (before ++ condition.text ++ after) [mark] := by
  have htext : before ++ condition.text ++ after = before ++ "(uint32_t)r" ++
      (Numeral.decimal condition.register.toNat ++
        (" <= " ++ Numeral.decimal condition.bound.toNat ++ "U" ++ after)) :=
    String.toList_inj.mp (by simp [Condition.text, registerName])
  have hbound : Plain (" <= " ++ Numeral.decimal condition.bound.toNat ++ "U" ++ after) :=
    (((by decide : Plain " <= ").append (.decimal _)).append (by decide)).append hafter
  have hlast : (before ++ "(uint32_t)r").toList.getLast? = some 'r' := by simp
  rw [htext]
  exact hbefore.append_name (by decide) hlast ((Plain.decimal _).append hbound)
    (beginsName_decimal _ _)

/-- A call reads operand A, tests its condition if it has one, and pushes one return address. -/
theorem callLines (settings : Settings) (slot : UInt64) (d : Instruction) :
    Marked (ofLines (callLines settings slot d))
      (.read d.sourceA :: ((if d.isConditional then [.callTest] else []) ++ [.push])) := by
  have hpush := pushLines settings slot d
  have hend : Marked (Source.indented 2 "\x7d") [] := by decide
  refine (declareA d .uint64).ofLines_cons ?_
  unfold Instruction.branchCondition Instruction.isConditional
  cases d.sourceB with
  | register number =>
    have htest := (condition ⟨number, d.immediate⟩ (by decide : Marked ("if(" ++ _) [.callTest])
      (by decide : Plain ") \x7b")).indented 2
    have hclose : Marked (Source.assignAndClose d .uint64 "A") [] := assignAndClose d _ (by decide)
    exact (htest.ofLines_cons hpush).ofLines_append
      (hend.ofLines_cons (hclose.ofLines_cons ofLines_nil))
  | immediate => exact hpush.ofLines_append (hend.ofLines_cons ofLines_nil)

/-- A return reads operand A, tests its condition if it has one, and jumps to one address. -/
theorem returnLines (d : Instruction) :
    Marked (ofLines (returnLines d))
      (.read d.sourceA :: ((if d.isConditional then [.returnTest] else []) ++ [.jump])) := by
  have hclose : Marked (Source.assignAndClose d .uint64 "A") [] := assignAndClose d _ (by decide)
  have hpopped : Marked (ofLines [Source.indented 3 "void* target = POP_ADDRESS();",
      Source.indented 3 "uint64_t C = POP_VALUE();"]) [] := by
    decide
  have hstored : Marked (Source.indented 3 ((d.place .uint64).text ++ " = A ^ C;")) [] :=
    .indented 3 (separated (c := '=') (by decide) (placeText (d.place .uint64))
      (by decide : Marked " A ^ C;" []) (by simp))
  have hjump : Marked (ofLines [Source.indented 3 "goto *target;", Source.indented 2 "\x7d"])
      [.jump] := by
    decide
  have hrest := (hpopped.ofLines_append (hstored.ofLines_cons hjump)).ofLines_append
    (hclose.ofLines_cons ofLines_nil)
  refine (declareA d .uint64).ofLines_cons (ofLines_cons ?_ hrest)
  unfold Instruction.branchCondition Instruction.isConditional
  cases d.sourceB with
  | register number =>
    have htest := condition ⟨number, d.immediate⟩
      (by decide : Marked ("if(!STACK_IS_EMPTY()" ++ " && " ++ _) [.returnTest])
      (by decide : Plain ") \x7b")
    have hassoc (text : String) : "if(!STACK_IS_EMPTY()" ++ " && " ++ text =
        "if(!STACK_IS_EMPTY()" ++ (" && " ++ text) :=
      String.append_assoc
    rw [hassoc] at htest
    exact htest.indented 2
  | immediate =>
    have htest : Marked ("if(!STACK_IS_EMPTY()" ++ "" ++ ") \x7b") [] := by decide
    exact htest.indented 2

/-- The lines of what a family does have the marks of the instruction. -/
theorem familyLines (settings : Settings) (slot : UInt64) (d : Instruction) :
    Marked (ofLines (familyLines settings slot d)) d.marks := by
  unfold Source.familyLines Instruction.marks
  cases d.family with
  | fsqrt => exact rootLines d
  | fround => exact roundingLines d
  | call => exact callLines settings slot d
  | ret => exact returnLines d
  | _ => exact plainLines d _

/-- The block of an instruction has its marks. -/
theorem block (settings : Settings) (slot : UInt64) (d : Instruction) :
    Marked (ofLines (block settings slot d)) d.marks :=
  (blockHeader slot d).ofLines_append (familyLines settings slot d)

end Marked
end Source
end RandomMachine
