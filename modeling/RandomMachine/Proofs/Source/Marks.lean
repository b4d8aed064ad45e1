import RandomMachine.Proofs.Source.Occurrences

/-!
# Marks in a text

Some phrases of C stand for what a tally counts: a read of operand A, a pushed return address, a
jump to a popped one, and the tests of calls and returns that have a condition. A text is marked by
the phrases that occur in it, each as often as it occurs. All of them contain an opening parenthesis
or an asterisk, so the parts of a line that have neither add no marks.
-/

namespace RandomMachine.Source

/-- A phrase of C that stands for something a tally counts. -/
inductive Landmark
  | read (source : SourceA)
  | push
  | jump
  | callTest
  | returnTest
  deriving DecidableEq, Repr

namespace Landmark

/-- All marks. -/
def all : List Landmark :=
  [.read .dram, .read (.scratchpad .l1), .read (.scratchpad .l2), .push, .jump, .callTest,
    .returnTest]

/-- The phrase of a mark. -/
def phrase : Landmark → String
  | .read .dram => "readDram(&mmu, addr)"
  | .read (.scratchpad .l1) => "SCRATCHPAD_16K(addr)"
  | .read (.scratchpad .l2) => "SCRATCHPAD_256K(addr)"
  | .push => "PUSH_ADDRESS(&&"
  | .jump => "goto *target;"
  | .callTest => "if((uint32_t)r"
  | .returnTest => "STACK_IS_EMPTY() && (uint32_t)r"

/-- How often the phrase of a mark occurs in a text. -/
def count (mark : Landmark) (text : String) : Nat := occurrences mark.phrase.toList text.toList

/-- Every mark is listed. -/
theorem mem_all (mark : Landmark) : mark ∈ all := by
  cases mark with
  | read source =>
    cases source with
    | dram => decide
    | scratchpad window => cases window <;> decide
  | _ => decide

/-- No phrase is empty. -/
theorem phrase_ne_nil (mark : Landmark) : mark.phrase.toList ≠ [] :=
  (by decide : ∀ mark ∈ all, mark.phrase.toList ≠ []) mark mark.mem_all

/-- Characters of C that are in no phrase. -/
def separators : List Char := ['\n', '\t', '=', '.']

/-- Separators are in no phrase. -/
theorem not_mem_phrase {c : Char} (hc : c ∈ separators) (mark : Landmark) :
    c ∉ mark.phrase.toList := by
  have hall : ∀ mark ∈ all, separators.all fun c => c ∉ mark.phrase.toList := by decide
  exact of_decide_eq_true (List.all_eq_true.mp (hall mark mark.mem_all) c hc)

end Landmark

/-- Whether a text is marked by these marks, and no others. -/
def Marked (text : String) (marks : List Landmark) : Prop :=
  ∀ mark, mark.count text = marks.count mark

instance (text : String) (marks : List Landmark) : Decidable (Marked text marks) :=
  decidable_of_iff (∀ mark ∈ Landmark.all, mark.count text = marks.count mark)
    ⟨fun h mark => h mark mark.mem_all, fun h mark _ => h mark⟩

/-- Whether a text has no character that every phrase has one of. -/
def Plain (text : String) : Prop := Avoids '(' text ∧ Avoids '*' text

instance (text : String) : Decidable (Plain text) :=
  inferInstanceAs (Decidable (Avoids '(' text ∧ Avoids '*' text))

namespace Plain

variable {first second : String}

/-- Plain texts are put together of plain texts. -/
theorem append (h : Plain first) (h' : Plain second) : Plain (first ++ second) :=
  ⟨Avoids.append_iff.mpr ⟨h.1, h'.1⟩, Avoids.append_iff.mpr ⟨h.2, h'.2⟩⟩

/-- Decimal numerals are plain. -/
theorem decimal (n : Nat) : Plain (Numeral.decimal n) := ⟨.decimal rfl n, .decimal rfl n⟩

/-- Numerals with a sign are plain. -/
theorem signed (value : Int) : Plain (Numeral.signed value) :=
  ⟨.signed rfl (by decide) value, .signed rfl (by decide) value⟩

/-- Hexadecimal numerals are plain. -/
theorem hexDigits (width n : Nat) : Plain (Numeral.hexDigits width n) :=
  ⟨.hexDigits rfl width n, .hexDigits rfl width n⟩

/-- Names of registers are plain. -/
theorem registerName (number : UInt8) : Plain (registerName number) :=
  (by decide : Plain "r").append (decimal _)

/-- Names of float registers are plain. -/
theorem floatRegisterName (number : UInt8) : Plain (floatRegisterName number) :=
  ((by decide : Plain "f").append (decimal _)).append (by decide)

/-- Labels of slots are plain. -/
theorem slotLabel (slot : UInt64) : Plain (slotLabel slot) :=
  (by decide : Plain "i_").append (decimal _)

/-- Listings are plain. -/
theorem listing (d : Instruction) : Plain d.listing :=
  ⟨d.avoids_listing (by decide), d.avoids_listing (by decide)⟩

end Plain

/-- Whether the name of a register or slot or a numeral can begin with a character. -/
def isNameStart (c : Char) : Bool := c.isDigit || c == 'r' || c == 'i'

/-- Whether a text begins with the name of a register or slot, or with a numeral. -/
def BeginsName (text : String) : Prop := ∃ c ∈ text.toList.head?, isNameStart c = true

namespace Marked

variable {text first second : String} {marks marks' : List Landmark}

/-- Plain texts have no marks. -/
theorem of_plain (h : Plain text) : Marked text [] := by
  intro mark
  rw [List.count_nil]
  have hmem : ∀ mark ∈ Landmark.all, '(' ∈ mark.phrase.toList ∨ '*' ∈ mark.phrase.toList := by
    decide
  rcases hmem mark mark.mem_all with hmem | hmem
  · exact occurrences_eq_zero hmem h.1
  · exact occurrences_eq_zero hmem h.2

/-- Marks are counted part by part, if no phrase lies across the seam. -/
theorem append (h : Marked first marks) (h' : Marked second marks')
    (hseam : ∀ mark : Landmark, Apart mark.phrase.toList first.toList second.toList) :
    Marked (first ++ second) (marks ++ marks') := by
  intro mark
  rw [Landmark.count, String.toList_append, occurrences_append (hseam mark), List.count_append,
    ← h mark, ← h' mark]
  rfl

/-- No name adds a mark behind one of these characters. -/
theorem append_name (h : Marked first marks) {x : Char} (hx : x ∈ ['(', '&', 'r'])
    (hlast : first.toList.getLast? = some x) (hsecond : Plain second) (hname : BeginsName second) :
    Marked (first ++ second) marks := by
  rw [← List.append_nil marks]
  refine h.append (.of_plain hsecond) fun mark => ?_
  intro z hz y hy hfollows
  obtain ⟨c, hc, hname⟩ := hname
  rw [hlast] at hz
  rw [← Option.mem_some.mp hz] at hfollows
  rw [Option.mem_unique hy hc] at hfollows
  have hfollowers : ∀ mark ∈ Landmark.all, ['(', '&', 'r'].all fun x =>
      (followers x mark.phrase.toList).all fun c => !isNameStart c := by
    decide
  have hnot := List.all_eq_true.mp (List.all_eq_true.mp (hfollowers mark mark.mem_all) x hx) c
    hfollows
  rw [hname] at hnot
  cases hnot

/-- A text around a separator is marked by what stands before it and behind it. -/
theorem separated {c : Char} (hc : c ∈ Landmark.separators) (h : Marked first marks)
    (h' : Marked second marks') (htext : text.toList = first.toList ++ c :: second.toList) :
    Marked text (marks ++ marks') := by
  intro mark
  rw [Landmark.count, htext, occurrences_separated mark.phrase_ne_nil (mark.not_mem_phrase hc),
    List.count_append, ← h mark, ← h' mark]
  rfl

/-- Indenting a line adds no marks. -/
theorem indented (depth : Nat) (h : Marked text marks) : Marked (indented depth text) marks := by
  induction depth with
  | zero => exact fun mark => (congrArg (occurrences _) (by simp [Source.indented])).trans (h mark)
  | succ depth ih =>
    have hempty : Marked "" [] := by decide
    exact separated (c := '\t') (by decide) hempty ih
      (by simp [Source.indented, List.replicate_succ])

/-! ### Lines -/

/-- Lines are marked one by one. -/
theorem ofLines_cons {line : String} {rest : List String} (h : Marked line marks)
    (h' : Marked (ofLines rest) marks') : Marked (ofLines (line :: rest)) (marks ++ marks') :=
  separated (by decide) h h' (toList_ofLines_cons line rest)

/-- Without lines there are no marks. -/
theorem ofLines_nil : Marked (ofLines []) [] := fun _ => rfl

/-- Lines of two parts are marked part by part. -/
theorem ofLines_append {lines rest : List String} (h : Marked (ofLines lines) marks)
    (h' : Marked (ofLines rest) marks') : Marked (ofLines (lines ++ rest)) (marks ++ marks') := by
  intro mark
  rw [Landmark.count, occurrences_ofLines_append mark.phrase_ne_nil
    (mark.not_mem_phrase (by decide)), List.count_append, ← h mark, ← h' mark]
  rfl

/-- Lines without marks have none together. -/
theorem ofLines_of_forall {lines : List String} (h : ∀ line ∈ lines, Marked line []) :
    Marked (ofLines lines) [] := by
  induction lines with
  | nil => exact ofLines_nil
  | cons line rest ih =>
    exact (h line List.mem_cons_self).ofLines_cons
      (ih fun other hother => h other (List.mem_cons_of_mem _ hother))

end Marked
end RandomMachine.Source
