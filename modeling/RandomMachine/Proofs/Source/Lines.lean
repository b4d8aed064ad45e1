import RandomMachine.Proofs.Numeral
import RandomMachine.Source.Block

/-!
# Lines of blocks

No line of a block contains a line end, the listing in its first line included, so the text of a
block determines its lines. A line that is put together around a character which its first part
avoids determines both parts.
-/

namespace RandomMachine

/-- Whether a character does not occur in a text. -/
def Avoids (c : Char) (text : String) : Prop := c ∉ text.toList

instance (c : Char) (text : String) : Decidable (Avoids c text) :=
  inferInstanceAs (Decidable (c ∉ text.toList))

namespace Avoids

variable {c : Char}

/-- A text that is put together avoids a character exactly if both parts do. -/
@[simp]
theorem append_iff {first second : String} :
    Avoids c (first ++ second) ↔ Avoids c first ∧ Avoids c second := by
  unfold Avoids
  rw [String.toList_append, List.mem_append, not_or]

/-- Texts of characters avoid what is none of them. -/
theorem ofList_iff {characters : List Char} :
    Avoids c (String.ofList characters) ↔ c ∉ characters := by
  unfold Avoids
  rw [String.toList_ofList]

/-- Decimal numerals consist of digits. -/
theorem decimal (h : c.isDigit = false) (n : Nat) : Avoids c (Numeral.decimal n) := by
  refine ofList_iff.mpr fun hmem => ?_
  have hdigit := Nat.isDigit_of_mem_toDigits (by decide : 10 > 0) (by decide : 10 ≤ 10) hmem
  rw [h] at hdigit
  exact Bool.false_ne_true hdigit

/-- Numerals with a sign consist of digits and the sign. -/
theorem signed (h : c.isDigit = false) (hsign : Avoids c "-") (value : Int) :
    Avoids c (Numeral.signed value) := by
  unfold Numeral.signed
  split
  · exact append_iff.mpr ⟨hsign, decimal h _⟩
  · exact decimal h _

/-- Hexadecimal numerals consist of hexadecimal digits. -/
theorem hexDigits (h : Numeral.isHexDigit c = false) (width n : Nat) :
    Avoids c (Numeral.hexDigits width n) := by
  refine ofList_iff.mpr fun hmem => ?_
  have hdigit : Numeral.isHexDigit c = true := by
    rcases List.mem_append.mp hmem with hmem | hmem
    · rw [List.eq_of_mem_replicate hmem]
      rfl
    · exact Numeral.isHexDigit_of_mem_toDigits (by decide) (by decide) hmem
  rw [h] at hdigit
  exact Bool.false_ne_true hdigit

end Avoids

/-! ### Taking texts apart -/

/-- Two texts that agree around the first occurrence of a character agree before and behind it. -/
theorem append_cons_inj {c : Char} {first first' second second' : List Char} (h : c ∉ first)
    (h' : c ∉ first') (heq : first ++ c :: second = first' ++ c :: second') :
    first = first' ∧ second = second' := by
  induction first generalizing first' with
  | nil =>
    cases first' with
    | nil => exact ⟨rfl, (List.cons.inj heq).2⟩
    | cons x first' =>
      exact absurd ((List.cons.inj heq).1 ▸ List.mem_cons_self) h'
  | cons x first ih =>
    cases first' with
    | nil => exact absurd ((List.cons.inj heq).1 ▸ List.mem_cons_self) h
    | cons y first' =>
      obtain ⟨hhead, htail⟩ := List.cons.inj heq
      obtain ⟨hfirst, hsecond⟩ := ih (fun hmem => h (List.mem_cons_of_mem _ hmem))
        (fun hmem => h' (List.mem_cons_of_mem _ hmem)) htail
      exact ⟨by rw [hhead, hfirst], hsecond⟩

/-- Two texts that agree around a separator agree before and behind it, if what stands before it
avoids one of its characters. -/
theorem Avoids.append_inj {c : Char} {first first' rest rest' : String} (separator : String)
    (hc : c ∈ separator.toList) (h : Avoids c first) (h' : Avoids c first')
    (heq : first ++ separator ++ rest = first' ++ separator ++ rest') :
    first = first' ∧ rest = rest' := by
  obtain ⟨before, behind, hseparator, hbefore⟩ := List.eq_append_cons_of_mem hc
  have hlist := congrArg String.toList heq
  simp only [String.toList_append, hseparator, List.append_assoc, List.cons_append] at hlist
  rw [← List.append_assoc, ← List.append_assoc first'.toList] at hlist
  have havoid {text : String} (htext : Avoids c text) : c ∉ text.toList ++ before := by
    intro hmem
    exact (List.mem_append.mp hmem).elim htext hbefore
  obtain ⟨hfirst, hrest⟩ := append_cons_inj (havoid h) (havoid h') hlist
  exact ⟨String.toList_inj.mp (List.append_cancel_right hfirst),
    String.toList_inj.mp (List.append_cancel_left hrest)⟩

/-! ### Texts of one line -/

/-- Whether a text has no line end. -/
abbrev OneLine (text : String) : Prop := Avoids '\n' text

namespace OneLine

/-- Decimal numerals have one line. -/
@[simp]
theorem decimal (n : Nat) : OneLine (Numeral.decimal n) := Avoids.decimal rfl n

/-- Numerals with a sign have one line. -/
@[simp]
theorem signed (value : Int) : OneLine (Numeral.signed value) :=
  Avoids.signed rfl (by decide) value

/-- Indenting a text keeps it on its line. -/
@[simp]
theorem indented {depth : Nat} {text : String} (h : OneLine text) :
    OneLine (Source.indented depth text) := by
  refine Avoids.append_iff.mpr ⟨Avoids.ofList_iff.mpr fun hmem => ?_, h⟩
  exact absurd (List.eq_of_mem_replicate hmem) (by decide)

end OneLine

/-! ### Listings -/

/-- Characters that no listing contains: the line end and the characters around what is called or
read through a pointer. -/
def unlisted : List Char := ['\n', '(', '*']

section Listings

variable {c : Char}

/-- The shortest decimal of a double consists of digits. -/
theorem isDigit_of_mem_shortest {tie : Tie} {magnitude : Nat}
    (h : c ∈ (Decimal.shortest tie magnitude).digits) : c.isDigit = true := by
  have hpoint (point : Nat) (exponent : Int)
      (hmem : c ∈ (Decimal.ofPoint point exponent).digits) : c.isDigit = true := by
    have hdigits : c ∈ Nat.toDigits 10 point :=
      List.mem_reverse.mp ((List.dropWhile_sublist _).subset (List.mem_reverse.mp hmem))
    exact Nat.isDigit_of_mem_toDigits (by decide : 10 > 0) (by decide : 10 ≤ 10) hdigits
  unfold Decimal.shortest at h
  dsimp only at h
  generalize hfound : List.findSome? _ (List.range 17) = found at h
  cases found with
  | none =>
    rw [List.mem_singleton.mp h]
    rfl
  | some found =>
    obtain ⟨digits, -, hmap⟩ := List.exists_of_findSome?_eq_some hfound
    obtain ⟨point, -, hpointed⟩ := Option.map_eq_some_iff.mp hmap
    exact hpoint point _ (hpointed ▸ h)

/-- A literal without unlisted characters avoids each of them. -/
theorem Avoids.literal (hc : c ∈ unlisted) {text : String}
    (h : unlisted.all fun c => Avoids c text) : Avoids c text :=
  of_decide_eq_true (List.all_eq_true.mp h c hc)

/-- No unlisted character is a digit or a point. -/
theorem not_digit_of_mem_unlisted (hc : c ∈ unlisted) :
    Numeral.isHexDigit c = false ∧ c.isDigit = false ∧ c ≠ '.' := by
  have hall : unlisted.all fun c =>
      Numeral.isHexDigit c = false ∧ c.isDigit = false ∧ c ≠ '.' := by
    decide
  exact of_decide_eq_true (List.all_eq_true.mp hall c hc)

/-- Listed doubles have no unlisted characters. -/
theorem avoids_write_floatLayout (hc : c ∈ unlisted) (x : Binary64) :
    Avoids c (Listing.floatLayout.write x) := by
  obtain ⟨-, hdigit, hpoint⟩ := not_digit_of_mem_unlisted hc
  have hformat (d : Decimal) (h : c ∉ d.digits) : Avoids c (Listing.floatLayout.format d) := by
    have hpointed : c ∉ Decimal.pointed d.digits := by
      unfold Decimal.pointed
      split
      next heq =>
        rw [heq] at h
        simpa [hpoint] using h
      next => exact h
    have hexponent := Avoids.signed hdigit (.literal hc (by decide)) d.exponent
    change Avoids c (String.ofList (Decimal.pointed d.digits) ++ "e" ++ "" ++
      Numeral.signed d.exponent)
    simp only [Avoids.append_iff, and_assoc]
    exact ⟨Avoids.ofList_iff.mpr hpointed, .literal hc (by decide), .literal hc (by decide),
      hexponent⟩
  unfold Decimal.Layout.write
  split
  · exact .literal hc (by decide)
  refine Avoids.append_iff.mpr ⟨.literal hc (by split <;> decide), ?_⟩
  split
  · exact .literal hc (by decide)
  apply hformat
  split
  · intro hmem
    rw [List.mem_singleton.mp hmem] at hdigit
    cases hdigit
  · intro hmem
    rw [isDigit_of_mem_shortest hmem] at hdigit
    cases hdigit

/-- Listings have no unlisted characters. -/
theorem Instruction.avoids_listing (hc : c ∈ unlisted) (d : Instruction) : Avoids c d.listing := by
  obtain ⟨hhexDigit, hdigit, -⟩ := not_digit_of_mem_unlisted hc
  have hdecimal (n : Nat) : Avoids c (Numeral.decimal n) := .decimal hdigit n
  have hsigned (value : Int) : Avoids c (Numeral.signed value) :=
    .signed hdigit (.literal hc (by decide)) value
  have hhex (n : Nat) : Avoids c (Numeral.hex n) :=
    Avoids.append_iff.mpr ⟨.literal hc (by decide), .hexDigits hhexDigit 1 n⟩
  have hregister {letter : String} (h : Avoids c letter) (number : UInt8) :
      Avoids c (registerText letter number) :=
    Avoids.append_iff.mpr ⟨h, hdecimal _⟩
  have hr : Avoids c "r" := .literal hc (by decide)
  have harea {area : String} (h : Avoids c area) (register : UInt8) (address : UInt32) :
      Avoids c (areaText area register address) := by
    simp only [areaText, Avoids.append_iff, and_assoc]
    exact ⟨.literal hc (by decide), h, .literal hc (by decide), hregister hr register,
      .literal hc (by decide), hhex _, .literal hc (by decide)⟩
  have hwindow (window : Window) : Avoids c window.name :=
    .literal hc (by cases window <;> decide)
  have hletter (type : OperandType) : Avoids c (fileLetter type) :=
    .literal hc (by cases type <;> decide)
  have hcomma : Avoids c ", " := .literal hc (by decide)
  have himmediate (value : Scalar) : Avoids c (immediateText value) := by
    cases value with
    | int32 value => exact hsigned _
    | int64 value => exact hsigned _
    | uint32 value => exact hhex _
    | uint64 value => exact hhex _
    | double value => exact avoids_write_floatLayout hc value
    | shift value => exact Avoids.append_iff.mpr ⟨.literal hc (by decide), hsigned _⟩
  have hcondition : Avoids c d.conditionText := by
    unfold conditionText
    split
    · simp only [Avoids.append_iff, and_assoc]
      exact ⟨.literal hc (by decide), hregister hr _, .literal hc (by decide), hhex _⟩
    · exact .literal hc (by decide)
  have hmnemonic : Avoids c d.family.mnemonic := .literal hc (by cases d.family <;> decide)
  have hdestination : Avoids c (d.destinationText d.family.signature.c) := by
    unfold destinationText
    split
    · exact hregister (hletter _) _
    · exact harea (hwindow _) _ _
  have hoperandA : Avoids c d.operandAText := by
    unfold operandAText
    split
    · exact harea (.literal hc (by decide)) _ _
    · exact harea (hwindow _) _ _
  have hoperandB (type : OperandType) : Avoids c (d.operandBText type) := by
    unfold operandBText
    split
    · exact hregister (hletter _) _
    · exact himmediate _
  simp only [listing, Avoids.append_iff, and_assoc]
  refine ⟨hmnemonic, .literal hc (by decide), hdestination, hcomma, hoperandA, ?_⟩
  split
  · simp only [Avoids.append_iff, and_assoc]
    exact ⟨.literal hc (by decide), hdecimal _, hcondition⟩
  · exact hcondition
  · split
    · exact Avoids.append_iff.mpr ⟨hcomma, hoperandB _⟩
    · exact .literal hc (by decide)

end Listings

/-- Listings have one line. -/
theorem Instruction.oneLine_listing (d : Instruction) : OneLine d.listing :=
  d.avoids_listing (by decide)

namespace Source

/-! ### Lines of blocks -/

/-- The characters of lines, a line end behind each. -/
theorem toList_ofLines_cons (line : String) (rest : List String) :
    (ofLines (line :: rest)).toList = line.toList ++ '\n' :: (ofLines rest).toList := by
  rw [ofLines, List.map_cons, String.join_cons, String.toList_append, String.toList_append,
    List.append_assoc]
  rfl

/-- A text determines its lines. -/
theorem ofLines_inj {lines lines' : List String} (h : ∀ line ∈ lines, OneLine line)
    (h' : ∀ line ∈ lines', OneLine line) (heq : ofLines lines = ofLines lines') :
    lines = lines' := by
  have hnil (line : String) (rest : List String) : ofLines (line :: rest) ≠ ofLines [] := by
    intro heq
    have hlist := congrArg String.toList heq
    rw [toList_ofLines_cons] at hlist
    exact List.append_ne_nil_of_right_ne_nil _ (List.cons_ne_nil _ _) hlist
  induction lines generalizing lines' with
  | nil =>
    cases lines' with
    | nil => rfl
    | cons line rest => exact absurd heq.symm (hnil line rest)
  | cons line rest ih =>
    cases lines' with
    | nil => exact absurd heq (hnil line rest)
    | cons line' rest' =>
      have hlist := congrArg String.toList heq
      rw [toList_ofLines_cons, toList_ofLines_cons] at hlist
      obtain ⟨hline, hrest⟩ := append_cons_inj (h line List.mem_cons_self)
        (h' line' List.mem_cons_self) hlist
      rw [String.toList_inj.mp hline, ih (fun x hx => h x (List.mem_cons_of_mem _ hx))
        (fun x hx => h' x (List.mem_cons_of_mem _ hx)) (String.toList_inj.mp hrest)]

/-- The names of registers have one line. -/
@[simp]
theorem oneLine_registerName (number : UInt8) : OneLine (registerName number) := by
  simp +decide [registerName]

/-- The names of float registers have one line. -/
@[simp]
theorem oneLine_floatRegisterName (number : UInt8) : OneLine (floatRegisterName number) := by
  simp +decide [floatRegisterName]

/-- Members of cells have one line. -/
@[simp]
theorem oneLine_memberText {cell : String} (h : OneLine cell) (part : Member) :
    OneLine (memberText cell part) := by
  have hname : OneLine part.name := by cases part <;> decide
  simp +decide [memberText, h, hname]

/-- Labels have one line. -/
@[simp]
theorem oneLine_slotLabel (slot : UInt64) : OneLine (slotLabel slot) := by
  simp +decide [slotLabel]

/-- The names of types have one line. -/
@[simp]
theorem oneLine_cType (type : OperandType) : OneLine type.cType := by
  cases type <;> decide

/-- The texts of expressions have one line. -/
@[simp]
theorem oneLine_text (operand : Expression SourceA) : OneLine (operand.text sourceText) := by
  induction operand with
  | member cell part =>
    apply oneLine_memberText
    cases cell with
    | dram => decide
    | scratchpad window => cases window <;> decide
  | register number => exact oneLine_registerName number
  | floatRegister number => exact oneLine_floatRegisterName number
  | toDouble operand ih => exact Avoids.append_iff.mpr ⟨by decide, ih⟩
  | toInt64 operand ih => exact Avoids.append_iff.mpr ⟨by decide, ih⟩
  | lowSixBits operand ih =>
    exact Avoids.append_iff.mpr ⟨Avoids.append_iff.mpr ⟨by decide, ih⟩, by decide⟩
  | literal value suffix =>
    refine Avoids.append_iff.mpr ⟨OneLine.signed value, ?_⟩
    cases suffix <;> decide
  | doubleOfBits bits =>
    exact Avoids.append_iff.mpr
      ⟨Avoids.append_iff.mpr ⟨by decide, Avoids.hexDigits rfl 16 _⟩, by decide⟩

/-- The texts of places have one line. -/
@[simp]
theorem oneLine_placeText (place : Place) : OneLine place.text := by
  cases place with
  | register number => exact oneLine_registerName number
  | floatRegister number => exact oneLine_floatRegisterName number
  | cell window base address part =>
    apply oneLine_memberText
    have hwindow : OneLine (windowMacro window) := by cases window <;> decide
    simp +decide [hwindow]

/-- The texts of conditions have one line. -/
@[simp]
theorem oneLine_conditionText (condition : Condition) : OneLine condition.text := by
  simp +decide [Condition.text]

/-- The first lines of a block have one line each. -/
theorem oneLine_blockHeader (slot : UInt64) (d : Instruction) :
    ∀ line ∈ blockHeader slot d, OneLine line := by
  simp +decide [blockHeader, d.oneLine_listing]

/-- Declarations of operand A have one line. -/
@[simp]
theorem oneLine_declareA (d : Instruction) (type : OperandType) : OneLine (declareA d type) := by
  simp +decide [declareA]

/-- Declarations of operand B have one line. -/
@[simp]
theorem oneLine_declareB (d : Instruction) (type : OperandType) : OneLine (declareB d type) := by
  simp +decide [declareB]

/-- Assignments of one line have one line. -/
@[simp]
theorem oneLine_assignAndClose (d : Instruction) (type : OperandType) {value : String}
    (h : OneLine value) : OneLine (assignAndClose d type value) := by
  simp +decide [assignAndClose, h]

/-- The lines of a family without control flow have one line each. -/
theorem oneLine_plainLines (d : Instruction) (family : Family) :
    ∀ line ∈ plainLines d family ((resultText family).getD ""), OneLine line := by
  have hvalue : OneLine ((resultText family).getD "") := by cases family <;> decide
  have hguard : ∀ line ∈ divisorGuard family, OneLine line := by cases family <;> decide
  intro line hline
  unfold plainLines at hline
  rcases List.mem_append.mp hline with hline | hline
  · rcases List.mem_append.mp hline with hline | hline
    · rcases List.mem_cons.mp hline with rfl | hline
      · exact oneLine_declareA d _
      · split at hline
        · rw [List.mem_singleton.mp hline]
          exact oneLine_declareB d _
        · cases hline
    · exact hguard line hline
  · rw [List.mem_singleton.mp hline]
    exact oneLine_assignAndClose d _ hvalue

/-- The lines that push a frame have one line each. -/
theorem oneLine_pushLines (settings : Settings) (slot : UInt64) (d : Instruction) :
    ∀ line ∈ pushLines settings slot d, OneLine line := by
  unfold pushLines
  split <;> simp +decide

/-- The lines of what a family does have one line each. -/
theorem oneLine_familyLines (settings : Settings) (slot : UInt64) (d : Instruction) :
    ∀ line ∈ familyLines settings slot d, OneLine line := by
  have hpush := oneLine_pushLines settings slot d
  unfold familyLines
  split
  · simp +decide [rootLines]
  · simp +decide [roundingLines]
  · unfold callLines
    split
    · simpa +decide [or_imp, forall_and] using hpush
    · simpa +decide [or_imp, forall_and] using hpush
  · unfold returnLines
    split <;> simp +decide
  · exact oneLine_plainLines d _

/-- Every line of a block has one line. -/
theorem oneLine_of_mem_block {settings : Settings} {slot : UInt64} {d : Instruction} {line : String}
    (h : line ∈ block settings slot d) : OneLine line := by
  rcases List.mem_append.mp h with h | h
  · exact oneLine_blockHeader slot d line h
  · exact oneLine_familyLines settings slot d line h

/-- The text of a block determines its lines. -/
theorem block_inj {settings settings' : Settings} {slot slot' : UInt64} {d d' : Instruction}
    (h : ofLines (block settings slot d) = ofLines (block settings' slot' d')) :
    block settings slot d = block settings' slot' d' :=
  ofLines_inj (fun _ => oneLine_of_mem_block) (fun _ => oneLine_of_mem_block) h

end Source
end RandomMachine
