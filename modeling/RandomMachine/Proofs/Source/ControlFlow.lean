import RandomMachine.Proofs.Source.BlockLinks
import RandomMachine.Proofs.Source.Unambiguous
import RandomMachine.Source.Text

/-!
# Control flow of emitted programs

The text of a program defines the labels of its slots in their order, then the end and, if calls
check for room on the stack, the end after an overflow. All that it refers to are these labels, and
the code behind the block of a slot leads to the next slot. The text around the blocks defines and
refers to nothing else.
-/

namespace RandomMachine.Source

/-! ### Fixed lines -/

/-- The characters of a literal, for texts that are too long to be evaluated. -/
theorem toList_literal (characters : List Char) {text : String} (h : text = .ofList characters) :
    text.toList = characters := by
  rw [h, String.toList_ofList]

/-- Headers and types define nothing. -/
theorem linked_of_mem_typeLines : ∀ line ∈ typeLines, Linked (line.toList ++ ['\n']) [] [] := by
  simp only [typeLines, List.forall_mem_cons, indented, String.toList_append, toList_literal _ rfl,
    List.not_mem_nil, false_imp_iff, implies_true, and_true]
  decide

/-- Memory macros define nothing. -/
theorem linked_of_mem_memoryLines (settings : Settings) :
    ∀ line ∈ memoryLines settings, Linked (line.toList ++ ['\n']) [] [] := by
  have hstack : Quiet (define "STACK_LENGTH"
      ("(" ++ Numeral.decimal settings.stackLength.toNat ++ ")")) 1 :=
    (by decide : Quiet "#define STACK_LENGTH " 1).append
      (((by decide : Quiet "(" 0).append (.decimal _)).append (by decide : Quiet ")" 0))
  simp only [memoryLines, List.forall_mem_cons]
  refine ⟨?_, ?_, ?_, ?_, ?_, ?_, ?_, hstack.linked _, ?_⟩
  all_goals
    simp only [define, String.toList_append, toList_literal _ rfl, Numeral.toList_decimal,
      List.not_mem_nil, false_imp_iff, implies_true, and_true]
  all_goals decide

/-- Stack macros define nothing. -/
theorem linked_of_mem_stackLines : ∀ line ∈ stackLines, Linked (line.toList ++ ['\n']) [] [] := by
  simp only [stackLines, List.forall_mem_cons, toList_literal _ rfl, List.not_mem_nil,
    false_imp_iff, implies_true, and_true]
  decide

/-- The function that reads memory defines nothing. -/
theorem linked_of_mem_cursorLines : ∀ line ∈ cursorLines, Linked (line.toList ++ ['\n']) [] [] := by
  decide +kernel

/-- The function that fills memory defines nothing. -/
theorem linked_of_mem_fillLines : ∀ line ∈ fillLines, Linked (line.toList ++ ['\n']) [] [] := by
  simp only [fillLines, List.forall_mem_cons, indented, String.toList_append, toList_literal _ rfl,
    List.not_mem_nil, false_imp_iff, implies_true, and_true]
  decide +kernel

/-- Declarations define nothing. -/
theorem linked_of_mem_declarationLines :
    ∀ line ∈ declarationLines, Linked (line.toList ++ ['\n']) [] [] := by
  decide

/-- The reports of registers define nothing. -/
theorem linked_of_mem_registerReportLines :
    ∀ line ∈ registerNumbers.map registerReportLine, Linked (line.toList ++ ['\n']) [] [] := by
  simp only [List.forall_mem_map, registerReportLine, indented, String.toList_append,
    toList_literal _ rfl, Numeral.toList_decimal]
  decide

/-- The release of memory defines nothing. -/
theorem linked_of_mem_cleanupLines :
    ∀ line ∈ cleanupLines, Linked (line.toList ++ ['\n']) [] [] := by
  decide

/-- The initial values of registers define nothing. -/
theorem linked_of_mem_registerLines :
    (∀ line ∈ registerNumbers.map fun n =>
        registerLine ("r" ++ Numeral.decimal n) "uint64_t" (8 * n),
      Linked (line.toList ++ ['\n']) [] []) ∧
    (∀ line ∈ registerNumbers.map fun n =>
        registerLine ("f" ++ Numeral.decimal n ++ ".f64") "int64_t" (8 * (registerCount + n)),
      Linked (line.toList ++ ['\n']) [] []) := by
  simp only [List.forall_mem_map, registerLine, indented, String.toList_append,
    toList_literal _ rfl, Numeral.toList_decimal]
  decide

/-- The initialization defines nothing. -/
theorem linked_of_mem_initializationLines (settings : Settings) :
    ∀ line ∈ initializationLines settings, Linked (line.toList ++ ['\n']) [] [] := by
  have hbudget :
      Quiet (indented 1 ("ic = " ++ Numeral.decimal settings.budget.toNat ++ "ULL;")) 1 :=
    .indented 1 (((by decide : Quiet "ic = " 0).append (.decimal _)).append
      (by decide : Quiet "ULL;" 1))
  unfold initializationLines
  refine List.forall_mem_append.mpr ⟨List.forall_mem_append.mpr ⟨List.forall_mem_append.mpr
    ⟨?_, linked_of_mem_registerLines.1⟩, linked_of_mem_registerLines.2⟩, ?_⟩
  · simp only [List.forall_mem_cons, indented, String.toList_append, toList_literal _ rfl,
      List.not_mem_nil, false_imp_iff, implies_true, and_true]
    decide
  · simp only [List.forall_mem_cons]
    refine ⟨?_, ?_, ?_, ?_, ?_, hbudget.linked _, ?_⟩
    all_goals
      simp only [indented, String.toList_append, toList_literal _ rfl, List.not_mem_nil,
        false_imp_iff, implies_true, and_true]
      decide

/-- Numerals between commas are quiet. -/
theorem Quiet.intercalate (numbers : List Nat) :
    Quiet (", ".intercalate (numbers.map Numeral.decimal)) 0 := by
  induction numbers with
  | nil => decide
  | cons n rest ih =>
    cases rest with
    | nil => exact .decimal n
    | cons m rest =>
      rw [List.map_cons, List.map_cons, String.intercalate_cons_cons]
      exact ((Quiet.decimal n).append (by decide : Quiet ", " 0)).append ih

/-- A constant array defines nothing. -/
theorem linked_byteArrayLine {name : String} (bytes : List UInt8)
    (h : Linked ("const byte " ++ name ++ "[" ++ Numeral.decimal bytes.length ++
      "] __attribute__((aligned(16))) = \x7b ").toList [] []) :
    Linked ((byteArrayLine name bytes).toList ++ ['\n']) [] [] := by
  have hvalues : Quiet (", ".intercalate (bytes.map fun byte => Numeral.decimal byte.toNat)) 0 := by
    have := Quiet.intercalate (bytes.map UInt8.toNat)
    rwa [List.map_map] at this
  have hrest := (hvalues.append (by decide : Quiet " \x7d;" 1)).linked []
  delta byteArrayLine
  rw [String.append_assoc, String.toList_append, List.append_assoc]
  apply h.append_of_breaks hrest
  rw [getLast?_toList_append _ (c := ' ') (by decide)]
  decide

/-- The constants of a program define nothing. -/
theorem linked_of_mem_constantLines (program : Program) :
    ∀ line ∈ constantLines program, Linked (line.toList ++ ['\n']) [] [] := by
  have hkey : program.key.toList.length = keyLength := Vector.length_toList
  have himage : program.image.toList.length = imageLength := Vector.length_toList
  simp only [constantLines, List.forall_mem_cons]
  refine ⟨linked_byteArrayLine _ ?_, linked_byteArrayLine _ ?_, ?_⟩
  · rw [hkey]
    decide
  · rw [himage]
    decide
  · exact fun _ h => absurd h List.not_mem_nil

/-- The end of the main function defines its label. -/
theorem linked_endLines (settings : Settings) :
    Linked (ofLines (endLines settings)).toList [endLabel] [] := by
  have hlabel : Linked ((indented 1 (endLabel ++ ":")).toList ++ ['\n']) [endLabel] [] := by
    decide
  have hruntime : ∀ line ∈ (if settings.reportRuntime then
      [indented 2 ("printf(\"runtime: %f\\n\", (clockEnd - clockStart) / " ++
        "(double)CLOCKS_PER_SEC);")] else []), Linked (line.toList ++ ['\n']) [] [] := by
    cases settings.reportRuntime with
    | true => decide
    | false => exact fun _ h => absurd h List.not_mem_nil
  unfold endLines
  refine linked_ofLines_cons hlabel (linked_ofLines_of_forall ?_)
  refine List.forall_mem_append.mpr ⟨List.forall_mem_append.mpr ⟨List.forall_mem_append.mpr
    ⟨List.forall_mem_append.mpr ⟨List.forall_mem_append.mpr
      ⟨?_, linked_of_mem_registerReportLines⟩, ?_⟩, hruntime⟩, linked_of_mem_cleanupLines⟩, ?_⟩
  · decide
  · decide
  · decide

/-- The end after an overflow defines its label. -/
theorem linked_overflowLines (settings : Settings) :
    Linked (ofLines (overflowLines settings)).toList (overflowLabels settings) [] := by
  unfold overflowLines overflowLabels
  cases settings.stackOverflow with
  | unchecked => exact linked_ofLines_nil []
  | fault =>
    have hlabel : Linked ((indented 1 (overflowLabel ++ ":")).toList ++ ['\n'])
        [overflowLabel] [] := by
      decide
    refine linked_ofLines_cons hlabel (linked_ofLines_of_forall ?_)
    refine List.forall_mem_append.mpr ⟨List.forall_mem_append.mpr
      ⟨?_, linked_of_mem_cleanupLines⟩, ?_⟩
    · decide
    · decide

/-! ### Blocks -/

/-- Blocks of two parts. -/
theorem blockLines_append (settings : Settings) (start : Nat) (first second : List Instruction) :
    blockLines settings start (first ++ second) =
      blockLines settings start first ++ blockLines settings (start + first.length) second := by
  induction first generalizing start with
  | nil => rfl
  | cons d first ih =>
    rw [List.cons_append, blockLines, blockLines, ih, List.append_assoc, List.length_cons,
      Nat.add_right_comm, Nat.add_assoc]

/-- Blocks define the labels of their slots, one after the other. -/
theorem linked_blockLines {settings : Settings} (h : settings.fault? = none) (start : Nat)
    (instructions : List Instruction) :
    Linked (ofLines (blockLines settings start instructions)).toList
      ((List.range' start instructions.length).map fun slot => slotLabel (.ofNat slot))
      (programLabels settings) := by
  induction instructions generalizing start with
  | nil => exact linked_ofLines_nil _
  | cons d rest ih =>
    rw [List.length_cons, List.range'_succ, List.map_cons]
    exact linked_ofLines_append (linked_block h (.ofNat start) d) (ih (start + 1))

/-- The jump behind the last block leads to the first one. -/
theorem linked_firstJump {settings : Settings} (h : settings.fault? = none) :
    Linked ((indented 1 ("goto " ++ slotLabel 0 ++ ";")).toList ++ ['\n']) []
      (programLabels settings) := by
  have hclosed : Linked ((indented 1 ("goto " ++ slotLabel 0 ++ ";")).toList ++ ['\n']) []
      [slotLabel 0] := by
    decide
  have hfirst : (0 : UInt64).toNat < settings.programSize.toNat :=
    Nat.lt_of_lt_of_le (by decide) (Settings.four_le_programSize h)
  refine hclosed.mono fun name hname => ?_
  rw [List.mem_singleton.mp hname]
  exact slotLabel_mem_programLabels hfirst

/-- What stands behind the blocks. -/
def closingLines (settings : Settings) : List String :=
  endLines settings ++ overflowLines settings ++ ["\x7d"]

/-- What stands in front of the blocks. -/
def openingLines (settings : Settings) (program : Program) : List String :=
  preamble settings ++ constantLines program ++ declarationLines ++ initializationLines settings

/-- The parts of a program. -/
theorem programLines_eq (settings : Settings) (program : Program) :
    programLines settings program = openingLines settings program ++
      blockLines settings 0 program.instructions.toList ++
      indented 1 ("goto " ++ slotLabel 0 ++ ";") :: closingLines settings := by
  simp only [programLines, openingLines, closingLines, List.append_assoc, List.cons_append,
    List.nil_append]

/-- What stands in front of the blocks defines nothing. -/
theorem linked_openingLines (settings : Settings) (program : Program) :
    Linked (ofLines (openingLines settings program)).toList [] [] := by
  apply linked_ofLines_of_forall
  simp only [openingLines, preamble, List.forall_mem_append]
  refine ⟨⟨⟨⟨⟨⟨⟨⟨?_, linked_of_mem_typeLines⟩, linked_of_mem_memoryLines settings⟩,
    linked_of_mem_stackLines⟩, linked_of_mem_cursorLines⟩, linked_of_mem_fillLines⟩,
    linked_of_mem_constantLines program⟩, linked_of_mem_declarationLines⟩,
    linked_of_mem_initializationLines settings⟩
  cases settings.dram with
  | buffer => decide
  | simulated => exact fun _ h => absurd h List.not_mem_nil

/-- What stands behind the blocks defines the ends. -/
theorem linked_closingLines (settings : Settings) :
    Linked (ofLines (closingLines settings)).toList (endLabel :: overflowLabels settings) [] := by
  have hbrace : Linked (ofLines ["\x7d"]).toList [] [] := by decide
  have := linked_ofLines_append
    (linked_ofLines_append (linked_endLines settings) (linked_overflowLines settings)) hbrace
  rwa [List.append_nil] at this

/-- A program defines its labels, and refers to no others. -/
theorem linked_source {settings : Settings} (h : settings.fault? = none) {program : Program}
    (hsize : program.instructions.size = settings.programSize.toNat) :
    Linked (program.source settings).toList (programLabels settings) (programLabels settings) := by
  have hblocks := linked_blockLines h 0 program.instructions.toList
  rw [Array.length_toList, hsize, ← List.range_eq_range'] at hblocks
  have hclosing := linked_ofLines_cons (linked_firstJump h) (linked_closingLines settings).of_nil
  rw [Program.source, programLines_eq]
  exact linked_ofLines_append
    (linked_ofLines_append (linked_openingLines settings program).of_nil hblocks) hclosing

/-! ### Code behind a block -/

/-- A line in code is cut on its own. -/
theorem runs_ofLines_cons {line : String} (rest : List String)
    (h : Region.code.after (line.toList ++ ['\n']) = .code) :
    runs (ofLines (line :: rest)).toList =
      runs (line.toList ++ ['\n']) ++ runs (ofLines rest).toList := by
  rw [toList_ofLines_cons, ← List.singleton_append, ← List.append_assoc, runs_append h]
  intro c hc next _
  have hend : c = '\n' := by
    rw [List.getLast?_concat] at hc
    exact (Option.mem_some.mp hc).symm
  have hbreaks : breaks '\n' = true := by decide
  rw [hend, joins, hbreaks, Bool.not_true, Bool.and_false]

/-- Lines are cut part by part, if the first part is linked. -/
theorem runs_ofLines_append {first : List String} (second : List String)
    (h : Region.code.after (ofLines first).toList = .code) :
    runs (ofLines (first ++ second)).toList =
      runs (ofLines first).toList ++ runs (ofLines second).toList := by
  rw [toList_ofLines_append, runs_append h]
  intro c hc next _
  have hbreaks : breaks '\n' = true := by decide
  rw [getLast?_ofLines hc, joins, hbreaks, Bool.not_true, Bool.and_false]

/-- Code that begins with a block leads to the slot of the block. -/
theorem entry_block (settings : Settings) (slot : UInt64) (d : Instruction) (rest : List String) :
    entry (runs (ofLines (block settings slot d ++ rest)).toList) = some (slotLabel slot) := by
  obtain ⟨hafter, hruns⟩ := runs_blockHeader slot d
  have hgoto : (slotLabel slot).toList ≠ ['g', 'o', 't', 'o'] := by
    rw [toList_slotLabel]
    intro h
    exact absurd (List.cons.inj h).1 (by decide)
  rw [block, blockHeader, List.cons_append, List.cons_append, runs_ofLines_cons _ hafter, hruns,
    List.cons_append, List.cons_append, entry, if_neg hgoto]
  change some (String.ofList (slotLabel slot).toList) = _
  rw [String.ofList_toList]

/-- Code that begins with the jump behind the last block leads to the first slot. -/
theorem entry_firstJump (rest : List String) :
    entry (runs (ofLines (indented 1 ("goto " ++ slotLabel 0 ++ ";") :: rest)).toList) =
      some (slotLabel 0) := by
  have hafter : Region.code.after
      ((indented 1 ("goto " ++ slotLabel 0 ++ ";")).toList ++ ['\n']) = .code := by
    decide
  have hruns : runs ((indented 1 ("goto " ++ slotLabel 0 ++ ";")).toList ++ ['\n']) =
      [['g', 'o', 't', 'o'], ['i', '_', '0'], [';']] := by
    decide
  rw [runs_ofLines_cons _ hafter, hruns, List.cons_append, List.cons_append, entry, if_pos rfl]
  decide

/-- The code behind the blocks in front of a slot leads to the slot, and to the first one if there
is none of that number. -/
theorem entry_blockLines {settings : Settings} (h : settings.fault? = none) {slot : UInt64}
    {instructions : List Instruction}
    (hlength : slot.toNat + 1 + instructions.length = settings.programSize.toNat)
    (rest : List String) :
    entry (runs (ofLines (blockLines settings (slot.toNat + 1) instructions ++
      indented 1 ("goto " ++ slotLabel 0 ++ ";") :: rest)).toList) =
        some (slotLabel (settings.nextSlot slot)) := by
  have hnext := settings.toNat_nextSlot h slot
  cases instructions with
  | nil =>
    rw [← hlength, List.length_nil, Nat.add_zero, Nat.mod_self] at hnext
    rw [UInt64.toNat_inj.mp (hnext.trans (UInt64.toNat_zero).symm)]
    exact entry_firstJump rest
  | cons d instructions =>
    rw [List.length_cons] at hlength
    rw [Nat.mod_eq_of_lt (by omega)] at hnext
    rw [blockLines, List.append_assoc, entry_block, ← hnext, UInt64.ofNat_toNat]

/-! ### Distinct labels -/

/-- No two slots of a program have one label. -/
theorem nodup_slotLabels (settings : Settings) : (slotLabels settings).Nodup := by
  rw [slotLabels, List.Nodup, List.pairwise_map]
  refine List.nodup_range.imp_of_mem fun {m n} hm hn hne heq => hne ?_
  have hlt := settings.programSize.toNat_lt
  have hnat := congrArg UInt64.toNat (slotLabel_inj heq)
  rw [List.mem_range] at hm hn
  rwa [UInt64.toNat_ofNat_of_lt' (Nat.lt_trans hm hlt),
    UInt64.toNat_ofNat_of_lt' (Nat.lt_trans hn hlt)] at hnat

/-- The labels of slots begin with a letter that the ends do not begin with. -/
theorem head?_of_mem_slotLabels {settings : Settings} {name : String}
    (h : name ∈ slotLabels settings) : name.toList.head? = some 'i' := by
  obtain ⟨slot, -, rfl⟩ := List.mem_map.mp h
  rw [toList_slotLabel]
  rfl

/-- The ends have labels of their own. -/
theorem nodup_programLabels (settings : Settings) : (programLabels settings).Nodup := by
  have hends : (endLabel :: overflowLabels settings).Nodup ∧
      ∀ name ∈ endLabel :: overflowLabels settings, name.toList.head? ≠ some 'i' := by
    unfold overflowLabels
    cases settings.stackOverflow <;> decide
  rw [programLabels, List.nodup_append]
  refine ⟨nodup_slotLabels settings, hends.1, fun name hname other hother heq => ?_⟩
  exact hends.2 other hother (heq ▸ head?_of_mem_slotLabels hname)

/-! ### Programs -/

/-- The block of a slot and what stands around it. -/
theorem exists_source_eq {settings : Settings} (h : settings.fault? = none) {program : Program}
    (hsize : program.instructions.size = settings.programSize.toNat) {slot : UInt64}
    {d : Instruction} (hd : program.instructions[slot.toNat]? = some d) :
    ∃ before after : String,
      program.source settings = before ++ ofLines (block settings slot d) ++ after ∧
      runs (program.source settings).toList = runs before.toList ++
        runs (ofLines (block settings slot d)).toList ++ runs after.toList ∧
      entry (runs after.toList) = some (slotLabel (settings.nextSlot slot)) := by
  obtain ⟨hlt, hget⟩ := Array.getElem?_eq_some_iff.mp hd
  -- The instructions in front of the slot, its own, and those behind it.
  have hparts : program.instructions.toList = program.instructions.toList.take slot.toNat ++
      d :: program.instructions.toList.drop (slot.toNat + 1) := by
    rw [← hget, ← Array.getElem_toList, ← List.drop_eq_getElem_cons, List.take_append_drop]
  have hfirst : (program.instructions.toList.take slot.toNat).length = slot.toNat := by
    rw [List.length_take, Array.length_toList, Nat.min_eq_left (Nat.le_of_lt hlt)]
  have hlast : slot.toNat + 1 + (program.instructions.toList.drop (slot.toNat + 1)).length =
      settings.programSize.toNat := by
    rw [List.length_drop, Array.length_toList, hsize]
    omega
  generalize program.instructions.toList.take slot.toNat = first at hparts hfirst
  generalize program.instructions.toList.drop (slot.toNat + 1) = last at hparts hlast
  have hlines : programLines settings program =
      (openingLines settings program ++ blockLines settings 0 first) ++ (block settings slot d ++
        (blockLines settings (slot.toNat + 1) last ++
          indented 1 ("goto " ++ slotLabel 0 ++ ";") :: closingLines settings)) := by
    rw [programLines_eq, hparts, blockLines_append, hfirst, Nat.zero_add, blockLines,
      UInt64.ofNat_toNat]
    simp only [List.append_assoc]
  have hbefore := (linked_ofLines_append (linked_openingLines settings program).of_nil
    (linked_blockLines h 0 first)).code
  refine ⟨ofLines (openingLines settings program ++ blockLines settings 0 first), _, ?_, ?_,
    entry_blockLines h hlast (closingLines settings)⟩
  · apply String.toList_inj.mp
    simp only [Program.source, hlines, String.toList_append, toList_ofLines_append,
      List.append_assoc]
  · rw [Program.source, hlines, runs_ofLines_append _ hbefore,
      runs_ofLines_append _ (linked_block h slot d).code, List.append_assoc]

end RandomMachine.Source

namespace RandomMachine.Program

open Source

/-- The control flow of a program is closed. Its text defines the labels of its slots in their
order, then the end and, if calls check for it, the end after an overflow, each of them once. It
refers to no other labels. The code behind the block of a slot leads to the next slot. -/
theorem controlFlow_closed {settings : Settings} (h : settings.fault? = none) {program : Program}
    (hsize : program.instructions.size = settings.programSize.toNat) :
    let text := runs (program.source settings).toList
    (labels text = slotLabels settings ++ endLabel :: overflowLabels settings ∧
        (labels text).Nodup) ∧
      (∀ name ∈ references text, name ∈ labels text) ∧
      (settings.stackOverflow = .unchecked →
        overflowLabel ∉ labels text ∧ overflowLabel ∉ references text) ∧
      ∀ (slot : UInt64) (d : Instruction), program.instructions[slot.toNat]? = some d →
        ∃ before after : String,
          program.source settings = before ++ ofLines (block settings slot d) ++ after ∧
          text = runs before.toList ++ runs (ofLines (block settings slot d)).toList ++
            runs after.toList ∧
          entry (runs after.toList) = some (slotLabel (settings.nextSlot slot)) := by
  have hlinked := linked_source h hsize
  have hoverflow : settings.stackOverflow = .unchecked →
      overflowLabel ∉ programLabels settings := by
    intro hpolicy hmem
    rw [programLabels, overflowLabels, hpolicy, List.mem_append, List.mem_singleton] at hmem
    rcases hmem with hmem | hmem
    · exact absurd (head?_of_mem_slotLabels hmem) (by decide)
    · exact absurd hmem (by decide)
  refine ⟨⟨hlinked.labels, ?_⟩, ?_, ?_, fun slot d hd => exists_source_eq h hsize hd⟩
  · rw [hlinked.labels]
    exact nodup_programLabels settings
  · rw [hlinked.labels]
    exact hlinked.references
  · intro hpolicy
    rw [hlinked.labels]
    exact ⟨hoverflow hpolicy, fun hmem => hoverflow hpolicy (hlinked.references _ hmem)⟩

/-- Four calls that check the stack. The code behind the last block leads to the first slot. -/
theorem controlFlow_closed_calls :
    ∃ (settings : Settings) (program : Program) (d : Instruction), settings.fault? = none ∧
      program.instructions.size = settings.programSize.toNat ∧
      labels (runs (program.source settings).toList) =
        ["i_0", "i_1", "i_2", "i_3", "end", "overflow"] ∧
      ∃ before after : String,
        program.source settings = before ++ ofLines (block settings 3 d) ++ after ∧
        entry (runs after.toList) = some "i_0" := by
  have hvalid : ({ programSize := 4, stackOverflow := .fault } : Settings).fault? = none := by
    decide
  obtain ⟨program, hprogram⟩ : ∃ program : Program,
      program.instructions = .replicate 4 (.ofWord 0x060000E0#128) :=
    ⟨⟨0, .replicate keyLength 7, .replicate imageLength 1, _⟩, rfl⟩
  have hsize : program.instructions.size = 4 := by rw [hprogram, Array.size_replicate]
  obtain ⟨⟨hlabels, -⟩, -, -, hblocks⟩ := controlFlow_closed hvalid hsize
  obtain ⟨before, after, hsource, -, hentry⟩ := hblocks 3 (.ofWord 0x060000E0#128) (by
    rw [hprogram, Array.getElem?_replicate]
    rfl)
  exact ⟨_, program, _, hvalid, hsize, hlabels.trans (by decide), before, after, hsource,
    hentry.trans (by decide)⟩

end RandomMachine.Program
