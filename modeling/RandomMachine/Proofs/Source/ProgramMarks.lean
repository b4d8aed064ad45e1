import Mathlib.Algebra.BigOperators.Group.List.Basic
import RandomMachine.Proofs.Source.BlockMarks
import RandomMachine.Proofs.Source.ControlFlow
import RandomMachine.Proofs.Source.Delivery
import RandomMachine.Proofs.Tally.Counters

/-!
# Marks of programs

The text around the blocks of a program has no marks, so the source of a program is marked by its
instructions alone, and its tally counts the marks.
-/

namespace RandomMachine

namespace Source

/-- Whether characters contain no phrase of a mark. -/
def Unmarked (characters : List Char) : Prop :=
  ∀ mark ∈ Landmark.all, occurrences mark.phrase.toList characters = 0

instance (characters : List Char) : Decidable (Unmarked characters) :=
  inferInstanceAs
    (Decidable (∀ mark ∈ Landmark.all, occurrences mark.phrase.toList characters = 0))

/-- Numerals between commas are plain. -/
theorem Plain.intercalate (numbers : List Nat) :
    Plain (", ".intercalate (numbers.map Numeral.decimal)) := by
  induction numbers with
  | nil => decide
  | cons n rest ih =>
    cases rest with
    | nil => exact .decimal n
    | cons m rest =>
      rw [List.map_cons, List.map_cons, String.intercalate_cons_cons]
      exact ((Plain.decimal n).append (by decide : Plain ", ")).append ih

namespace Marked

/-- Lines whose characters contain no phrase have no marks. -/
theorem of_unmarked {lines : List String} (h : ∀ line ∈ lines, Unmarked line.toList) :
    Marked (ofLines lines) [] :=
  ofLines_of_forall fun line hline mark => h line hline mark mark.mem_all

/-- Texts without marks contain no phrase. -/
theorem unmarked {text : String} (h : Marked text []) : Unmarked text.toList := fun mark _ => h mark

/-! ### In front of the blocks -/

/-- Headers and types have no marks. -/
theorem typeLines : Marked (ofLines typeLines) [] := by
  apply of_unmarked
  simp only [Source.typeLines, List.forall_mem_cons, Source.indented, String.toList_append,
    toList_literal _ rfl, List.not_mem_nil, false_imp_iff, implies_true, and_true]
  decide

/-- Stack macros have no marks. -/
theorem stackLines : Marked (ofLines stackLines) [] := by
  apply of_unmarked
  simp only [Source.stackLines, List.forall_mem_cons, toList_literal _ rfl, List.not_mem_nil,
    false_imp_iff, implies_true, and_true]
  decide

/-- The function that reads memory has no marks. -/
theorem cursorLines : Marked (ofLines cursorLines) [] := by
  apply of_unmarked
  decide +kernel

/-- The function that fills memory has no marks. -/
theorem fillLines : Marked (ofLines fillLines) [] := by
  apply of_unmarked
  simp only [Source.fillLines, List.forall_mem_cons, Source.indented, String.toList_append,
    toList_literal _ rfl, List.not_mem_nil, false_imp_iff, implies_true, and_true]
  decide +kernel

/-- Memory macros have no marks. -/
theorem memoryLines (settings : Settings) : Marked (ofLines (memoryLines settings)) [] := by
  have hstack : Marked (define "STACK_LENGTH"
      ("(" ++ Numeral.decimal settings.stackLength.toNat ++ ")")) [] := by
    have htext : define "STACK_LENGTH" ("(" ++ Numeral.decimal settings.stackLength.toNat ++ ")") =
        "#define STACK_LENGTH (" ++ (Numeral.decimal settings.stackLength.toNat ++ ")") :=
      String.toList_inj.mp (by simp [define])
    rw [htext]
    exact append_name (x := '(') (by decide) (by decide) (by decide)
      ((Plain.decimal _).append (by decide)) (beginsName_decimal _ _)
  apply of_unmarked
  simp only [Source.memoryLines, List.forall_mem_cons]
  refine ⟨?_, ?_, ?_, ?_, ?_, ?_, ?_, hstack.unmarked, ?_⟩
  all_goals
    simp only [define, String.toList_append, toList_literal _ rfl, Numeral.toList_decimal,
      List.not_mem_nil, false_imp_iff, implies_true, and_true]
  all_goals decide

/-- Declarations have no marks. -/
theorem declarationLines : Marked (ofLines declarationLines) [] := by
  apply of_unmarked
  decide

/-- The initial values of registers have no marks. -/
theorem registerLines :
    Marked (ofLines (registerNumbers.map fun n =>
        registerLine ("r" ++ Numeral.decimal n) "uint64_t" (8 * n))) [] ∧
      Marked (ofLines (registerNumbers.map fun n =>
        registerLine ("f" ++ Numeral.decimal n ++ ".f64") "int64_t"
          (8 * (registerCount + n)))) [] := by
  refine ⟨of_unmarked ?_, of_unmarked ?_⟩
  all_goals
    simp only [List.forall_mem_map, registerLine, Source.indented, String.toList_append,
      toList_literal _ rfl, Numeral.toList_decimal]
    decide

/-- The initialization has no marks. -/
theorem initializationLines (settings : Settings) :
    Marked (ofLines (initializationLines settings)) [] := by
  have hbudget : Marked
      (Source.indented 1 ("ic = " ++ Numeral.decimal settings.budget.toNat ++ "ULL;")) [] :=
    .indented 1 (of_plain (((by decide : Plain "ic = ").append (.decimal _)).append (by decide)))
  unfold Source.initializationLines
  refine ofLines_append (ofLines_append (ofLines_append (of_unmarked ?_) registerLines.1)
    registerLines.2) (of_unmarked ?_)
  · simp only [List.forall_mem_cons, Source.indented, String.toList_append, toList_literal _ rfl,
      List.not_mem_nil, false_imp_iff, implies_true, and_true]
    decide
  · simp only [List.forall_mem_cons]
    refine ⟨?_, ?_, ?_, ?_, ?_, hbudget.unmarked, ?_⟩
    all_goals
      simp only [Source.indented, String.toList_append, toList_literal _ rfl, List.not_mem_nil,
        false_imp_iff, implies_true, and_true]
      decide

/-- A constant array has no marks. -/
theorem byteArrayLine {name : String} (bytes : List UInt8)
    (h : Marked ("const byte " ++ name ++ "[" ++ Numeral.decimal bytes.length ++
      "] __attribute__((aligned(16))) ") []) : Marked (byteArrayLine name bytes) [] := by
  have hvalues : Plain (", ".intercalate (bytes.map fun byte => Numeral.decimal byte.toNat)) := by
    have := Plain.intercalate (bytes.map UInt8.toNat)
    rwa [List.map_map] at this
  unfold Source.byteArrayLine
  generalize ", ".intercalate (bytes.map fun byte => Numeral.decimal byte.toNat) = values at *
  have hrest := ((by decide : Plain " \x7b ").append hvalues).append (by decide : Plain " \x7d;")
  exact separated (c := '=') (by decide) h (of_plain hrest) (by simp)

/-- The constants of a program have no marks. -/
theorem constantLines (program : Program) : Marked (ofLines (constantLines program)) [] := by
  have hkey : program.key.toList.length = keyLength := Vector.length_toList
  have himage : program.image.toList.length = imageLength := Vector.length_toList
  refine ofLines_cons (byteArrayLine _ ?_) (ofLines_cons (byteArrayLine _ ?_) ofLines_nil)
  · rw [hkey]
    decide
  · rw [himage]
    decide

/-- What stands in front of the blocks has no marks. -/
theorem openingLines (settings : Settings) (program : Program) :
    Marked (ofLines (openingLines settings program)) [] := by
  have hpreamble : Marked (ofLines (preamble settings)) [] := by
    have hrest {first : List String} (h : Marked (ofLines first) []) :=
      ofLines_append (ofLines_append (ofLines_append (ofLines_append (ofLines_append h
        typeLines) (memoryLines settings)) stackLines) cursorLines) fillLines
    unfold preamble
    cases settings.dram with
    | buffer => exact hrest (by decide)
    | simulated => exact hrest ofLines_nil
  exact ofLines_append (ofLines_append (ofLines_append hpreamble (constantLines program))
    declarationLines) (initializationLines settings)

/-! ### Behind the blocks -/

/-- The release of memory has no marks. -/
theorem cleanupLines : Marked (ofLines cleanupLines) [] := by decide

/-- The end of the main function has no marks. -/
theorem endLines (settings : Settings) : Marked (ofLines (endLines settings)) [] := by
  have hreports : Marked (ofLines (registerNumbers.map registerReportLine)) [] := by
    apply of_unmarked
    simp only [List.forall_mem_map, registerReportLine, Source.indented, String.toList_append,
      toList_literal _ rfl, Numeral.toList_decimal]
    decide
  have hruntime : Marked (ofLines (if settings.reportRuntime then
      [Source.indented 2 ("printf(\"runtime: %f\\n\", (clockEnd - clockStart) / " ++
        "(double)CLOCKS_PER_SEC);")] else [])) [] := by
    cases settings.reportRuntime <;> decide
  exact ofLines_append (ofLines_append (ofLines_append (ofLines_append (ofLines_append
    (of_unmarked (by decide)) hreports) (of_unmarked (by decide))) hruntime) cleanupLines)
      (of_unmarked (by decide))

/-- The end after an overflow has no marks. -/
theorem overflowLines (settings : Settings) : Marked (ofLines (overflowLines settings)) [] := by
  unfold Source.overflowLines
  cases settings.stackOverflow with
  | unchecked => exact ofLines_nil
  | fault =>
    exact ofLines_append (ofLines_append (of_unmarked (by decide)) cleanupLines)
      (of_unmarked (by decide))

/-! ### Programs -/

/-- The blocks of instructions have the marks of these, one after the other. -/
theorem blockLines (settings : Settings) (start : Nat) (instructions : List Instruction) :
    Marked (ofLines (blockLines settings start instructions))
      (instructions.flatMap Instruction.marks) := by
  induction instructions generalizing start with
  | nil => exact ofLines_nil
  | cons d rest ih => exact ofLines_append (block settings (.ofNat start) d) (ih (start + 1))

/-- The source of a program has the marks of its instructions. -/
theorem source (settings : Settings) (program : Program) :
    Marked (program.source settings)
      (program.instructions.toList.flatMap Instruction.marks) := by
  have hjump : Marked (Source.indented 1 ("goto " ++ slotLabel 0 ++ ";")) [] := by decide
  have hclosing : Marked (ofLines (closingLines settings)) [] :=
    ofLines_append (ofLines_append (endLines settings) (overflowLines settings)) (by decide)
  have hlines := ofLines_append (ofLines_append (openingLines settings program)
    (blockLines settings 0 program.instructions.toList)) (ofLines_cons hjump hclosing)
  rw [← programLines_eq, List.append_nil, List.nil_append, List.append_nil] at hlines
  exact hlines

end Marked
end Source

namespace Counter

open Source

/-- Landmarks that each instruction has as often as counters count it occur as often as these have
counted in total. -/
theorem total_recordAll_marks {landmarks : List Landmark} {counters : List Counter}
    (h : ∀ d : Instruction,
      (landmarks.map fun mark => d.marks.count mark).sum = counters.countP (·.counts d))
    (tally : Tally) (instructions : List Instruction) :
    total counters (tally.recordAll instructions) = total counters tally +
      (landmarks.map fun mark => (instructions.flatMap Instruction.marks).count mark).sum := by
  induction instructions generalizing tally with
  | nil => simp [Tally.recordAll]
  | cons d rest ih =>
    have hcons : tally.recordAll (d :: rest) = (tally.record d).recordAll rest := rfl
    simp only [List.flatMap_cons, List.count_append, List.sum_map_add]
    rw [hcons, ih, total_record, h, Nat.add_assoc]

/-- The landmarks of a program's source occur as often as the counters of its tally say that count
its instructions equally often. -/
theorem total_tally {landmarks : List Landmark} {counters : List Counter}
    (h : ∀ d : Instruction,
      (landmarks.map fun mark => d.marks.count mark).sum = counters.countP (·.counts d))
    (program : Program) (settings : Settings) :
    (landmarks.map fun mark => mark.count (program.source settings)).sum =
      total counters (program.tally settings) := by
  have hmarks (mark : Landmark) := Marked.source settings program mark
  simp only [hmarks]
  rw [Program.tally, total_recordAll_marks h, total_new, Nat.zero_add]

/-- Each instruction reads operand A once, from DRAM or from one of the windows. -/
theorem countP_readMarks (d : Instruction) :
    ([Landmark.read .dram].map fun mark => d.marks.count mark).sum =
        [dramReads].countP (·.counts d) ∧
      ([Landmark.read (.scratchpad .l1), .read (.scratchpad .l2)].map
          fun mark => d.marks.count mark).sum =
        [scratchpadReads].countP (·.counts d) := by
  have hread (source : SourceA) :
      d.marks.count (.read source) = if d.sourceA = source then 1 else 0 := by
    unfold Instruction.marks
    rw [List.count_cons]
    split <;> (try cases d.isConditional) <;> simp [BEq.beq]
  simp only [List.map_cons, List.map_nil, hread]
  cases h : d.sourceA with
  | dram => simp [counts, h]
  | scratchpad window => cases window <;> simp [counts, h]

/-- Each call pushes once and each return jumps once, whether they have a condition or not. -/
theorem countP_branchMarks (d : Instruction) :
    ([Landmark.push].map fun mark => d.marks.count mark).sum =
        [calls true, calls false].countP (·.counts d) ∧
      ([Landmark.jump].map fun mark => d.marks.count mark).sum =
        [returns true, returns false].countP (·.counts d) ∧
      ([Landmark.callTest].map fun mark => d.marks.count mark).sum =
        [calls true].countP (·.counts d) ∧
      ([Landmark.returnTest].map fun mark => d.marks.count mark).sum =
        [returns true].countP (·.counts d) := by
  unfold Instruction.marks
  split
  next hfamily => cases hcondition : d.isConditional <;> simp [counts, hfamily, hcondition]
  next hfamily => cases hcondition : d.isConditional <;> simp [counts, hfamily, hcondition]
  next hcall hret =>
    have hcall : d.family ≠ .call := hcall
    have hret : d.family ≠ .ret := hret
    simp [counts, hcall, hret]

end Counter

namespace Program

open Source

/-- The tally that emission returns describes the emitted text. In the text, operand A is read from
DRAM and from the windows of the scratchpad as often as the tally says; return addresses are pushed
as often as there are calls, and jumped to as often as there are returns; and conditions are tested
by the calls and returns that have one. -/
theorem emit_tally_describes_text (program : Program) (settings : Settings) :
    ∃ (tally : Tally) (sink : Sink), program.emit settings {} = (.ok tally, sink) ∧
      sink.accepted = (program.source settings).toUTF8 ∧
      let found (phrase : String) := occurrences phrase.toList (program.source settings).toList
      found "readDram(&mmu, addr)" = tally.dramReads ∧
        found "SCRATCHPAD_16K(addr)" + found "SCRATCHPAD_256K(addr)" = tally.scratchpadReads ∧
        found "PUSH_ADDRESS(&&" = tally.calls.conditional + tally.calls.unconditional ∧
        found "goto *target;" = tally.returns.conditional + tally.returns.unconditional ∧
        found "if((uint32_t)r" = tally.calls.conditional ∧
        found "STACK_IS_EMPTY() && (uint32_t)r" = tally.returns.conditional := by
  obtain ⟨htally, haccepted⟩ := program.emit_unlimited settings
  refine ⟨program.tally settings, (program.emit settings {}).2, ?_, haccepted, ?_⟩
  · rw [← htally]
  have hdram := Counter.total_tally (fun d => (Counter.countP_readMarks d).1) program settings
  have hscratchpad :=
    Counter.total_tally (fun d => (Counter.countP_readMarks d).2) program settings
  have hpush := Counter.total_tally (fun d => (Counter.countP_branchMarks d).1) program settings
  have hjump := Counter.total_tally (fun d => (Counter.countP_branchMarks d).2.1) program settings
  have hcall := Counter.total_tally (fun d => (Counter.countP_branchMarks d).2.2.1) program settings
  have hreturn :=
    Counter.total_tally (fun d => (Counter.countP_branchMarks d).2.2.2) program settings
  simp only [List.map_cons, List.map_nil, List.sum_cons, List.sum_nil, Nat.add_zero,
    Counter.total] at hdram hscratchpad hpush hjump hcall hreturn
  exact ⟨hdram, hscratchpad, hpush, hjump, hcall, hreturn⟩

end Program
end RandomMachine
