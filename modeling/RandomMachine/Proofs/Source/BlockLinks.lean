import RandomMachine.Proofs.Settings.Slots
import RandomMachine.Proofs.Source.Linked
import RandomMachine.Proofs.Source.Operands

/-!
# Links of blocks

The block of a slot defines the label of the slot and no other one, and refers only to labels that
a program of valid settings has: slots of the program, the end, and the end after an overflow if
calls check for one.
-/

namespace RandomMachine.Source

/-! ### Labels of a program -/

/-- The labels of all slots, in their order. -/
def slotLabels (settings : Settings) : List String :=
  (List.range settings.programSize.toNat).map fun slot => slotLabel (.ofNat slot)

/-- The label behind the regular end, if there is one. -/
def overflowLabels (settings : Settings) : List String :=
  match settings.stackOverflow with
  | .fault => [overflowLabel]
  | .unchecked => []

/-- All labels of a program. -/
def programLabels (settings : Settings) : List String :=
  slotLabels settings ++ endLabel :: overflowLabels settings

/-- A slot of the program has a label. -/
theorem slotLabel_mem_programLabels {settings : Settings} {slot : UInt64}
    (h : slot.toNat < settings.programSize.toNat) : slotLabel slot ∈ programLabels settings := by
  apply List.mem_append_left
  rw [slotLabels, List.mem_map]
  exact ⟨slot.toNat, List.mem_range.mpr h, by rw [UInt64.ofNat_toNat]⟩

/-- The end has a label. -/
theorem endLabel_mem_programLabels (settings : Settings) : endLabel ∈ programLabels settings :=
  List.mem_append_right _ List.mem_cons_self

/-- The characters of a label. -/
theorem toList_slotLabel (slot : UInt64) :
    (slotLabel slot).toList = 'i' :: '_' :: Nat.toDigits 10 slot.toNat := by
  rw [slotLabel, String.toList_append, Numeral.toList_decimal]
  rfl

/-- The characters of a label are word characters. -/
theorem characterKind_of_mem_slotLabel {slot : UInt64} {c : Char}
    (h : c ∈ (slotLabel slot).toList) : characterKind c = .word := by
  rw [toList_slotLabel, List.mem_cons, List.mem_cons] at h
  rcases h with rfl | rfl | h
  · decide
  · decide
  · exact characterKind_of_isHexDigit
      (Numeral.isHexDigit_of_mem_toDigits (by decide) (by decide) h)

/-- A label is not a mark that defines a label. -/
theorem defines_slotLabel (slot : UInt64) : defines (slotLabel slot).toList = false := by
  rw [toList_slotLabel]
  rfl

/-- A label is not a mark that refers to a label. -/
theorem refers_slotLabel (slot : UInt64) : refers (slotLabel slot).toList = false := by
  rw [refers, Bool.or_eq_false_iff, beq_eq_false_iff_ne]
  constructor
  · rw [toList_slotLabel]
    intro h
    exact absurd (List.cons.inj h).1 (by decide)
  · rw [Bool.eq_false_iff, ne_eq, List.isSuffixOf_iff_suffix]
    intro hsuffix
    have hmark : '&' ∈ (slotLabel slot).toList := hsuffix.subset (by decide)
    exact absurd (characterKind_of_mem_slotLabel hmark) (by decide)

/-! ### Words in code -/

/-- A word leaves no code. -/
theorem Region.after_of_word {word : List Char} (h : ∀ c ∈ word, characterKind c = .word) :
    Region.code.after word = .code ∧ blanked .code word = word := by
  induction word with
  | nil => exact ⟨rfl, rfl⟩
  | cons c rest ih =>
    obtain ⟨hafter, hblanked⟩ := ih fun x hx => h x (List.mem_cons_of_mem c hx)
    have hquote : c ≠ '"' := by
      rintro rfl
      exact absurd (h '"' List.mem_cons_self) (by decide)
    have hstroke : c ≠ '/' := by
      rintro rfl
      exact absurd (h '/' List.mem_cons_self) (by decide)
    have hnext : Region.code.next c = .code := by rw [next, if_neg hquote, if_neg hstroke]
    constructor
    · change (Region.code.next c).after rest = .code
      rw [hnext, hafter]
    · rw [blanked, hnext, hblanked, shows, if_pos (bne_iff_ne.mpr hquote)]

/-- A label is a run of its own between marks and blanks. -/
theorem runs_slotLabel (slot : UInt64) {before behind : List Char}
    (hcode : Region.code.after before = .code)
    (hbefore : before.getLast?.any (characterKind · == .word) = false)
    (hbehind : behind.head?.any (characterKind · == .word) = false) :
    runs (before ++ ((slotLabel slot).toList ++ behind)) =
      runs before ++ (slotLabel slot).toList :: runs behind := by
  have hword : ∀ c ∈ (slotLabel slot).toList, characterKind c = .word := fun _ =>
    characterKind_of_mem_slotLabel
  have hne : (slotLabel slot).toList ≠ [] := by
    rw [toList_slotLabel]
    exact List.cons_ne_nil _ _
  obtain ⟨hafter, hblanked⟩ := Region.after_of_word hword
  have hlabel : runs (slotLabel slot).toList = [(slotLabel slot).toList] := by
    rw [runs, hblanked, cut_word hne hword]
  rw [runs_append hcode, runs_append hafter, hlabel]
  · rfl
  · intro c hc next hnext
    rw [Option.mem_def.mp hnext] at hbehind
    have hkind : (characterKind next == .word) = false := hbehind
    rw [joins, hword c (List.mem_of_getLast? hc), BEq.comm, hkind, Bool.false_and]
  · intro c hc next hnext
    rw [Option.mem_def.mp hc] at hbefore
    have hkind : (characterKind c == .word) = false := hbefore
    have hnext : next = 'i' := by
      rw [toList_slotLabel] at hnext
      exact (Option.mem_some.mp hnext).symm
    have hi : characterKind 'i' = .word := by decide
    rw [joins, hnext, hi, hkind, Bool.false_and]

/-! ### Comments -/

/-- Nothing is left of a comment. -/
theorem blanked_comment {text : List Char} (h : '\n' ∉ text) :
    Region.comment.after text = .comment ∧
      blanked .comment text = List.replicate text.length ' ' := by
  induction text with
  | nil => exact ⟨rfl, rfl⟩
  | cons c rest ih =>
    obtain ⟨hafter, hblanked⟩ := ih fun hmem => h (List.mem_cons_of_mem c hmem)
    have hc : c ≠ '\n' := fun heq => h (heq ▸ List.mem_cons_self)
    have hnext : Region.comment.next c = .comment := by rw [Region.next, if_neg hc]
    constructor
    · change (Region.comment.next c).after rest = .comment
      rw [hnext, hafter]
    · rw [blanked, hnext, hblanked]
      rfl

/-- Blanks have no runs. -/
theorem cut_replicate (count : Nat) : cut [] (List.replicate count ' ') = [] := by
  induction count with
  | zero => rfl
  | succ count ih =>
    rw [List.replicate_succ, cut_nil_cons, if_pos (by decide), ih]

/-- All that is left of a comment at the end of a line is its first stroke. -/
theorem runs_comment {text : List Char} (h : '\n' ∉ text) :
    Region.code.after ('/' :: '/' :: (text ++ ['\n'])) = .code ∧
      runs ('/' :: '/' :: (text ++ ['\n'])) = [['/']] := by
  obtain ⟨hafter, hblanked⟩ := blanked_comment h
  constructor
  · change Region.comment.after (text ++ ['\n']) = .code
    rw [Region.after_append, hafter]
    rfl
  · change cut [] ('/' :: ' ' :: blanked .comment (text ++ ['\n'])) = _
    rw [blanked_append, hafter, hblanked]
    change cut [] ('/' :: ([' '] ++ (List.replicate text.length ' ' ++ [' ']))) = _
    rw [← List.replicate_succ', List.singleton_append, ← List.replicate_succ, cut_nil_cons,
      if_neg (by decide), cut_eq_of_not_joins, cut_replicate]
    · rfl
    · intro c _ next hnext
      rw [List.replicate_succ] at hnext
      rw [← Option.mem_some.mp hnext, (joins_blank c).1]

/-! ### Quiet parts of lines -/

/-- A condition is a cast and the comparison behind it. -/
theorem conditionText_eq (condition : Condition) :
    condition.text = "(uint32_t)" ++ (registerName condition.register ++ " <= " ++
      Numeral.decimal condition.bound.toNat ++ "U") := by
  simp only [Condition.text, String.append_assoc]

namespace Quiet

variable {text : String} {n : Nat}

/-- More paired characters may be allowed than there are. -/
theorem mono {m : Nat} (h : Quiet text m) (hle : m ≤ n) : Quiet text n :=
  ⟨h.loud, Nat.le_trans h.paired hle⟩

/-- The names of registers are quiet. -/
theorem registerName (number : UInt8) : Quiet (registerName number) 0 :=
  (by decide : Quiet "r" 0).append (.decimal _)

/-- The names of float registers are quiet. -/
theorem floatRegisterName (number : UInt8) : Quiet (floatRegisterName number) 0 :=
  ((by decide : Quiet "f" 0).append (.decimal _)).append (by decide : Quiet ".f64" 0)

/-- Members are as quiet as their cells. -/
theorem memberText {cell : String} (h : Quiet cell n) (part : Member) :
    Quiet (memberText cell part) n := by
  have hname : Quiet part.name 0 := by cases part <;> decide
  exact (h.append (by decide : Quiet "." 0)).append hname

/-- The names of types are quiet. -/
theorem cType (type : OperandType) : Quiet type.cType 0 := by cases type <;> decide

/-- The cells that operand A is read from are quiet. -/
theorem sourceText (cell : SourceA) : Quiet (sourceText cell) 1 := by
  cases cell with
  | dram => decide
  | scratchpad window => cases window <;> decide

/-- Operand A is quiet. -/
theorem operandA (d : Instruction) {type : OperandType} (h : type ≠ .shift) :
    Quiet ((d.operandA type).text Source.sourceText) 1 := by
  have hmember := memberText (sourceText d.sourceA)
  cases type with
  | float => exact (by decide : Quiet "(double)" 0).append (hmember .int64)
  | shift => exact absurd rfl h
  | _ => exact hmember _

/-- The literals of scalars are quiet. -/
theorem ofScalar (value : Scalar) :
    Quiet ((Source.ofScalar value : Expression SourceA).text Source.sourceText) 0 := by
  have hsuffix (suffix : Suffix) : Quiet suffix.text 0 := by cases suffix <;> decide
  cases value with
  | double value =>
    exact ((by decide : Quiet "((convertible_t)\x7b .u64 = 0x" 0).append (.hexDigits 16 _)).append
      (by decide : Quiet "ULL \x7d).f64" 0)
  | _ => exact (Quiet.signed _).append (hsuffix _)

/-- Operand B is quiet. -/
theorem operandB (d : Instruction) (type : OperandType) :
    Quiet ((d.operandB type).text Source.sourceText) 1 := by
  have hregister (number : UInt8) := registerName number
  unfold Instruction.operandB
  cases d.sourceB with
  | register number =>
    cases type with
    | int32 => exact (by decide : Quiet "(int64_t)" 1).append (hregister number)
    | int64 => exact (by decide : Quiet "(int64_t)" 1).append (hregister number)
    | uint32 => exact (hregister number).mono (by decide)
    | uint64 => exact (hregister number).mono (by decide)
    | float => exact (floatRegisterName number).mono (by decide)
    | shift =>
      exact ((by decide : Quiet "(" 0).append (hregister number)).append
        (by decide : Quiet " & 63)" 1)
  | immediate => exact (ofScalar _).mono (by decide)

/-- Places are quiet. -/
theorem placeText (place : Place) : Quiet place.text 0 := by
  cases place with
  | register number => exact registerName number
  | floatRegister number => exact floatRegisterName number
  | cell window base address part =>
    apply memberText
    have hwindow : Quiet (windowMacro window) 0 := by cases window <;> decide
    exact ((((hwindow.append (by decide : Quiet "(" 0)).append (registerName base)).append
      (by decide : Quiet " ^ " 0)).append (.decimal _)).append (by decide : Quiet "U)" 0)

/-- Conditions are quiet behind their cast. -/
theorem conditionTail (condition : Condition) :
    Quiet (Source.registerName condition.register ++ " <= " ++
      Numeral.decimal condition.bound.toNat ++ "U") 0 :=
  (((registerName _).append (by decide : Quiet " <= " 0)).append (.decimal _)).append
    (by decide : Quiet "U" 0)

/-- Declarations of operand A are quiet. -/
theorem declareA (d : Instruction) {type : OperandType} (h : type ≠ .shift) :
    Quiet (declareA d type) 1 :=
  .indented 2 ((((cType type).append (by decide : Quiet " A = " 0)).append
    (operandA d h)).append (by decide : Quiet ";" 0))

/-- Declarations of operand B are quiet. -/
theorem declareB (d : Instruction) (type : OperandType) : Quiet (declareB d type) 1 :=
  .indented 2 ((((cType type).append (by decide : Quiet " B = " 0)).append
    (operandB d type)).append (by decide : Quiet ";" 0))

/-- Assignments are as quiet as their values. -/
theorem assignAndClose (d : Instruction) (type : OperandType) {value : String}
    (h : Quiet value 1) : Quiet (assignAndClose d type value) 1 :=
  .indented 2 ((((placeText _).append (by decide : Quiet " = " 0)).append h).append
    (by decide : Quiet "; \x7d" 0))

end Quiet

/-! ### Lines of blocks -/

/-- What the first line of a block is cut into. -/
theorem runs_blockHeader (slot : UInt64) (d : Instruction) :
    let line := (indented 1 (slotLabel slot ++ ": \x7b //" ++ d.listing)).toList ++ ['\n']
    Region.code.after line = .code ∧
      runs line = [(slotLabel slot).toList, [':'], ['\x7b'], ['/']] := by
  obtain ⟨hafter, hruns⟩ := runs_comment d.oneLine_listing
  have hline : (indented 1 (slotLabel slot ++ ": \x7b //" ++ d.listing)).toList ++ ['\n'] =
      ['\t'] ++ ((slotLabel slot).toList ++ ([':', ' ', '\x7b', ' '] ++
        ('/' :: '/' :: (d.listing.toList ++ ['\n'])))) := by
    simp [indented]
  have hopen : runs [':', ' ', '\x7b', ' '] = [[':'], ['\x7b']] := by decide
  have htab : runs ['\t'] = [] := by decide
  rw [hline]
  constructor
  · rw [Region.after_append, Region.after_append,
      show Region.code.after ['\t'] = .code by rfl,
      (Region.after_of_word fun _ => characterKind_of_mem_slotLabel).1, Region.after_append]
    exact hafter
  · have hcolon : (characterKind ':' == .word) = false := by decide
    have hbefore : (['\t'].getLast?.any (characterKind · == .word)) = false := by decide
    rw [runs_slotLabel slot rfl hbefore, runs_append rfl, hopen, hruns, htab]
    · rfl
    · intro c hc next _
      have hblank : c = ' ' := (Option.mem_some.mp hc).symm
      rw [hblank, (joins_blank next).2]
    · exact hcolon

/-- The first line of a block defines the label of its slot. -/
theorem linked_blockHeader (slot : UInt64) (d : Instruction) (targets : List String) :
    Linked ((indented 1 (slotLabel slot ++ ": \x7b //" ++ d.listing)).toList ++ ['\n'])
      [slotLabel slot] targets := by
  obtain ⟨hcode, hruns⟩ := runs_blockHeader slot d
  refine ⟨hcode, ?_, ?_, ?_, ?_⟩
  · rw [hruns]
    exact defines_slotLabel slot
  · rw [hruns]
    exact (by decide : refers ['/'] = false)
  · rw [hruns]
    change [String.ofList (slotLabel slot).toList] = _
    rw [String.ofList_toList]
  · rw [hruns, references, refers_slotLabel, Bool.false_and, if_neg Bool.false_ne_true]
    exact fun name hname => absurd hname List.not_mem_nil

/-- Between closed parts that refer to nothing else, a label is all that is referred to. -/
theorem linked_reference {slot : UInt64} {before behind : List Char} {targets : List String}
    (hmem : slotLabel slot ∈ targets) (hbehind : Linked behind [] targets)
    (hseam : before.getLast?.any (characterKind · == .word) = false ∧
      behind.head?.any (characterKind · == .word) = false)
    (hcode : Region.code.after before = .code)
    (hbefore : (runs before).head?.any defines = false ∧ labels (runs before) = [] ∧
      references (runs before) = []) :
    Linked (before ++ ((slotLabel slot).toList ++ behind)) [] targets := by
  obtain ⟨hhead, hlabels, hreferences⟩ := hbefore
  have hruns := runs_slotLabel slot hcode hseam.1 hseam.2
  have hlabel : labels ((slotLabel slot).toList :: runs behind) = [] := by
    have hdefines : ∀ run ∈ (runs behind).head?, defines run = false := by
      intro run hrun
      have := hbehind.head
      rw [Option.mem_def.mp hrun] at this
      exact this
    rw [← List.singleton_append, labels_append hdefines, hbehind.labels]
    rfl
  refine ⟨?_, ?_, ?_, ?_, ?_⟩
  · rw [Region.after_append, hcode, Region.after_append,
      (Region.after_of_word fun _ => characterKind_of_mem_slotLabel).1, hbehind.code]
  · rw [hruns]
    cases hfirst : runs before with
    | nil => exact defines_slotLabel slot
    | cons run rest =>
      rw [hfirst] at hhead
      exact hhead
  · rw [hruns, List.getLast?_append, List.getLast?_cons, Option.some_or]
    cases hlast : (runs behind).getLast? with
    | none => exact refers_slotLabel slot
    | some run =>
      have := hbehind.last
      rw [hlast] at this
      exact this
  · rw [hruns, labels_append, hlabels, hlabel]
    · rfl
    · intro run hrun
      rw [← Option.mem_some.mp hrun]
      exact defines_slotLabel slot
  · intro name hname
    rw [hruns] at hname
    rcases mem_references_append hname with hname | hname | hname
    · rw [hreferences] at hname
      cases hname
    · have heq : name = slotLabel slot := by
        rw [← String.ofList_toList (s := slotLabel slot)]
        exact Option.some.inj hname
      rwa [heq]
    · rw [← List.singleton_append, references_append] at hname
      · exact hbehind.references name hname
      · intro run hrun
        rw [← Option.mem_some.mp hrun]
        exact refers_slotLabel slot

section Lines

variable {settings : Settings} {targets : List String}

/-- The rest of the first lines of a block refers to the end. -/
theorem linked_of_mem_tail_blockHeader (hend : endLabel ∈ targets) (slot : UInt64)
    (d : Instruction) : ∀ line ∈ (blockHeader slot d).tail,
      Linked (line.toList ++ ['\n']) [] targets := by
  have hclosed : Linked ((indented 2 ("if(0 == ic--) goto " ++ endLabel ++ ";")).toList ++ ['\n'])
      [] [endLabel] := by
    decide
  intro line hline
  rcases List.mem_cons.mp hline with rfl | hline
  · refine hclosed.mono fun name hname => ?_
    rwa [List.mem_singleton.mp hname]
  rcases List.mem_cons.mp hline with rfl | hline
  · exact Quiet.linked (.indented 2 ((((Quiet.registerName _).append
      (by decide : Quiet " ^= " 0)).append (.decimal _)).append (by decide : Quiet "U;" 1))) _
  rw [List.mem_singleton.mp hline]
  exact Quiet.linked (.indented 2 ((((by decide : Quiet "addr_t " 0).append
    (by decide : Quiet addressVariable 0)).append (by decide : Quiet " = " 0)).append
      (Quiet.registerName _) |>.append (by decide : Quiet ";" 1))) _

/-- The lines of a plain family refer to nothing. -/
theorem linked_of_mem_plainLines (d : Instruction) (family : Family) :
    ∀ line ∈ plainLines d family ((resultText family).getD ""),
      Linked (line.toList ++ ['\n']) [] targets := by
  have hvalue : Quiet ((resultText family).getD "") 1 := by cases family <;> decide
  have hguard : ∀ line ∈ divisorGuard family, Quiet line 1 := by cases family <;> decide
  intro line hline
  apply Quiet.linked
  unfold plainLines at hline
  rcases List.mem_append.mp hline with hline | hline
  · rcases List.mem_append.mp hline with hline | hline
    · rcases List.mem_cons.mp hline with rfl | hline
      · exact .declareA d (Instruction.signature_a_ne_shift family)
      · split at hline
        · rw [List.mem_singleton.mp hline]
          exact .declareB d _
        · cases hline
    · exact hguard line hline
  · rw [List.mem_singleton.mp hline]
    exact .assignAndClose d _ hvalue

/-- The lines that push a frame refer to the next slot and the called one, and to the end after an
overflow if they check for it. -/
theorem linked_of_mem_pushLines {slot : UInt64} {d : Instruction}
    (hoverflow : ∀ name ∈ overflowLabels settings, name ∈ targets)
    (hnext : slotLabel (settings.nextSlot slot) ∈ targets)
    (htarget : slotLabel (settings.callTarget slot d.shortImmediate) ∈ targets) :
    ∀ line ∈ pushLines settings slot d, Linked (line.toList ++ ['\n']) [] targets := by
  intro line hline
  unfold pushLines at hline
  rcases List.mem_append.mp hline with hline | hline
  · unfold overflowLabels at hoverflow
    split at hline
    · next hpolicy =>
      rw [hpolicy] at hoverflow
      have hclosed : Linked ((indented 3 ("if(sp + 2 > STACK_LENGTH) goto " ++ overflowLabel ++
          ";")).toList ++ ['\n']) [] [overflowLabel] := by
        decide
      rw [List.mem_singleton.mp hline]
      exact hclosed.mono hoverflow
    · cases hline
  rcases List.mem_cons.mp hline with rfl | hline
  · exact Quiet.linked (by decide) _
  rcases List.mem_cons.mp hline with rfl | hline
  · have hline : (indented 3 ("PUSH_ADDRESS(&&" ++ slotLabel (settings.nextSlot slot) ++
        ");")).toList ++ ['\n'] = "\t\t\tPUSH_ADDRESS(&&".toList ++
        ((slotLabel (settings.nextSlot slot)).toList ++ ");\n".toList) := by
      simp [indented]
    rw [hline]
    exact linked_reference hnext (.of_nil (by decide)) (by decide) (by decide) (by decide)
  · have hline' : (indented 3 ("goto " ++ slotLabel (settings.callTarget slot d.shortImmediate) ++
        ";")).toList ++ ['\n'] = "\t\t\tgoto ".toList ++
        ((slotLabel (settings.callTarget slot d.shortImmediate)).toList ++ ";\n".toList) := by
      simp [indented]
    rw [List.mem_singleton.mp hline, hline']
    exact linked_reference htarget (.of_nil (by decide)) (by decide) (by decide) (by decide)

/-- The lines of a call refer to what its pushing lines refer to. -/
theorem linked_of_mem_callLines {slot : UInt64} {d : Instruction}
    (hpush : ∀ line ∈ pushLines settings slot d, Linked (line.toList ++ ['\n']) [] targets) :
    ∀ line ∈ callLines settings slot d, Linked (line.toList ++ ['\n']) [] targets := by
  have hclose : Quiet (indented 2 "\x7d") 1 := by decide
  intro line hline
  unfold callLines at hline
  rcases List.mem_cons.mp hline with rfl | hline
  · exact Quiet.linked (.declareA d (by decide)) _
  cases hcondition : d.branchCondition with
  | none =>
    rw [hcondition] at hline
    rcases List.mem_append.mp hline with hline | hline
    · exact hpush line hline
    · rw [List.mem_singleton.mp hline]
      exact hclose.linked _
  | some condition =>
    rw [hcondition] at hline
    rcases List.mem_cons.mp hline with rfl | hline
    · have htest : Quiet condition.text 0 := by
        rw [conditionText_eq]
        exact (by decide : Quiet "(uint32_t)" 0).append (.conditionTail condition)
      exact Quiet.linked (.indented 2 (((by decide : Quiet "if(" 0).append htest).append
        (by decide : Quiet ") \x7b" 1))) _
    rcases List.mem_append.mp hline with hline | hline
    · exact hpush line hline
    rcases List.mem_cons.mp hline with rfl | hline
    · exact hclose.linked _
    · rw [List.mem_singleton.mp hline]
      exact Quiet.linked (.assignAndClose d _ (by decide)) _

/-- The test of a return refers to nothing: behind its conjunction stands a parenthesis. -/
theorem linked_returnTest (condition : Condition) :
    Linked ((indented 2 ("if(!STACK_IS_EMPTY()" ++ (" && " ++ condition.text) ++
      ") \x7b")).toList ++ ['\n']) [] targets := by
  have hstart : Linked "\t\tif(!STACK_IS_EMPTY() && (uint32_t)".toList [] [] := by decide
  have hrest := ((Quiet.conditionTail condition).append
    (by decide : Quiet ") \x7b" 1)).linked targets
  have hline : (indented 2 ("if(!STACK_IS_EMPTY()" ++ (" && " ++ condition.text) ++
      ") \x7b")).toList ++ ['\n'] = "\t\tif(!STACK_IS_EMPTY() && (uint32_t)".toList ++
      ((registerName condition.register ++ " <= " ++ Numeral.decimal condition.bound.toNat ++
        "U" ++ ") \x7b").toList ++ ['\n']) := by
    simp [indented, conditionText_eq]
  rw [hline]
  exact hstart.of_nil.append_of_breaks hrest (by decide)

/-- The lines of a return refer to nothing. -/
theorem linked_of_mem_returnLines (d : Instruction) :
    ∀ line ∈ returnLines d, Linked (line.toList ++ ['\n']) [] targets := by
  have hjump : Linked ((indented 3 "goto *target;").toList ++ ['\n']) [] [] := by decide
  have htarget : Linked ((indented 3 "void* target = POP_ADDRESS();").toList ++ ['\n']) [] [] := by
    decide
  have hassign : Quiet (indented 3 ((d.place .uint64).text ++ " = A ^ C;")) 1 :=
    .indented 3 ((Quiet.placeText _).append (by decide : Quiet " = A ^ C;" 1))
  unfold returnLines
  simp only [List.forall_mem_cons]
  refine ⟨(Quiet.declareA d (by decide)).linked _, ?_, htarget.of_nil,
    Quiet.linked (by decide) _, hassign.linked _, hjump.of_nil, Quiet.linked (by decide) _,
    Quiet.linked (.assignAndClose d _ (by decide)) _, fun _ h => absurd h List.not_mem_nil⟩
  cases d.branchCondition with
  | none => exact .of_nil (by decide)
  | some condition => exact linked_returnTest condition

/-- The lines of a square root refer to nothing. -/
theorem linked_of_mem_rootLines (d : Instruction) :
    ∀ line ∈ rootLines d, Linked (line.toList ++ ['\n']) [] targets := by
  intro line hline
  apply Quiet.linked
  rcases List.mem_cons.mp hline with rfl | hline
  · exact .indented 2 (((by decide : Quiet "double A = fabs(" 0).append
      (.operandA d (by decide))).append (by decide : Quiet ");" 0))
  · rw [List.mem_singleton.mp hline]
    exact .assignAndClose d _ (by decide)

/-- The lines that set the rounding mode refer to nothing. -/
theorem linked_of_mem_roundingLines (d : Instruction) :
    ∀ line ∈ roundingLines d, Linked (line.toList ++ ['\n']) [] targets := by
  intro line hline
  apply Quiet.linked
  rcases List.mem_cons.mp hline with rfl | hline
  · exact .declareA d (by decide)
  rcases List.mem_cons.mp hline with rfl | hline
  · exact .indented 2 ((Quiet.placeText _).append (by decide : Quiet " = A;" 1))
  · rw [List.mem_singleton.mp hline]
    decide

end Lines

/-! ### Blocks -/

section Block

variable {settings : Settings} (h : settings.fault? = none)

include h

/-- The lines of what a family does refer to labels of the program. -/
theorem linked_of_mem_familyLines (slot : UInt64) (d : Instruction) :
    ∀ line ∈ familyLines settings slot d,
      Linked (line.toList ++ ['\n']) [] (programLabels settings) := by
  have hoverflow : ∀ name ∈ overflowLabels settings, name ∈ programLabels settings :=
    fun name hname => List.mem_append_right _ (List.mem_cons_of_mem _ hname)
  have hpush := linked_of_mem_pushLines hoverflow
    (slotLabel_mem_programLabels (settings.toNat_nextSlot_lt h slot))
    (slotLabel_mem_programLabels (settings.toNat_callTarget_lt h slot d.shortImmediate))
  unfold familyLines
  split
  · exact linked_of_mem_rootLines d
  · exact linked_of_mem_roundingLines d
  · exact linked_of_mem_callLines hpush
  · exact linked_of_mem_returnLines d
  · exact linked_of_mem_plainLines d _

/-- The block of a slot defines the label of the slot. -/
theorem linked_block (slot : UInt64) (d : Instruction) :
    Linked (ofLines (block settings slot d)).toList [slotLabel slot] (programLabels settings) := by
  have hheader := linked_ofLines_cons (linked_blockHeader slot d (programLabels settings))
    (linked_ofLines_of_forall
      (linked_of_mem_tail_blockHeader (endLabel_mem_programLabels settings) slot d))
  exact linked_ofLines_append hheader
    (linked_ofLines_of_forall (linked_of_mem_familyLines h slot d))

end Block

end RandomMachine.Source
