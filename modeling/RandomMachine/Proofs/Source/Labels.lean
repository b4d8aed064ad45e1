import RandomMachine.Proofs.Source.Lines
import RandomMachine.Proofs.Source.Token

/-!
# Labels and jumps of a text

Which labels a text of emitted C defines and which it refers to. Comments and string constants are
blanked out first, then the text is cut into runs of characters: a colon defines the name in front
of it, and `goto` and `&&` refer to the name behind them. What a text defines and refers to is what
its parts do, as long as no part ends within a comment or a string.
-/

namespace RandomMachine.Source

/-! ### Comments and strings -/

/-- Where in emitted C a character stands. Emitted C has comments to the end of a line, and no
constants of single characters. -/
inductive Region
  | code
  /-- Behind a stroke, which begins a comment if another one follows. -/
  | stroke
  | comment
  | string
  /-- Behind a backslash in a string. -/
  | escape
  deriving DecidableEq, Repr

namespace Region

/-- Where the character behind a character stands. -/
def next : Region → Char → Region
  | .code, c => if c = '"' then .string else if c = '/' then .stroke else .code
  | .stroke, c => if c = '"' then .string else if c = '/' then .comment else .code
  | .comment, c => if c = '\n' then .code else .comment
  | .string, c => if c = '"' then .code else if c = '\\' then .escape else .string
  | .escape, _ => .string

/-- Where the character behind a text stands. -/
def after (region : Region) (text : List Char) : Region := text.foldl next region

/-- Where the character behind two texts stands. -/
theorem after_append (region : Region) (first second : List Char) :
    region.after (first ++ second) = (region.after first).after second :=
  List.foldl_append

/-- Whether a character belongs to the code. -/
def shows : Region → Char → Bool
  | .code, c => c != '"'
  | .stroke, c => c != '"' && c != '/'
  | .comment, _ | .string, _ | .escape, _ => false

end Region

/-- A text with blanks for all that is not code. -/
def blanked : Region → List Char → List Char
  | _, [] => []
  | region, c :: rest => (if region.shows c then c else ' ') :: blanked (region.next c) rest

/-- The runs of the code of a text. -/
def runs (text : List Char) : List (List Char) := cut [] (blanked .code text)

/-! ### Names that are defined or referred to -/

/-- Whether the name in front of a run is defined as a label. -/
def defines (run : List Char) : Bool := run.head? == some ':'

/-- The names in front of colons. -/
def labels : List (List Char) → List String
  | name :: mark :: rest =>
    if defines mark then .ofList name :: labels (mark :: rest) else labels (mark :: rest)
  | _ => []

/-- Whether the name behind a run is referred to as a label. -/
def refers (run : List Char) : Bool :=
  run == ['g', 'o', 't', 'o'] || ['&', '&'].isSuffixOf run

/-- The names behind `goto` and `&&`. A jump to a value and a conjunction have no name there. -/
def references : List (List Char) → List String
  | mark :: name :: rest =>
    if refers mark && name.head?.any (characterKind · == .word) then
      .ofList name :: references (name :: rest)
    else references (name :: rest)
  | _ => []

/-- The label that code leads to at once: one that stands there, or one that it jumps to. -/
def entry : List (List Char) → Option String
  | first :: second :: _ =>
    if first = ['g', 'o', 't', 'o'] then some (.ofList second)
    else if defines second then some (.ofList first)
    else none
  | _ => none

/-! ### Texts in parts -/

/-- Parts of a text are blanked one after the other. -/
theorem blanked_append (region : Region) (first second : List Char) :
    blanked region (first ++ second) =
      blanked region first ++ blanked (region.after first) second := by
  induction first generalizing region with
  | nil => rfl
  | cons c first ih => exact congrArg (_ :: ·) (ih (region.next c))

/-- What stands in a blanked text is a character of the text, or a blank. -/
theorem mem_getLast?_blanked {region : Region} {text : List Char} {c : Char}
    (h : c ∈ (blanked region text).getLast?) : c ∈ text.getLast? ∨ c = ' ' := by
  rcases text.eq_nil_or_concat with rfl | ⟨init, last, rfl⟩
  · cases h
  · rw [List.concat_eq_append] at h ⊢
    rw [blanked_append] at h
    simp only [blanked, List.getLast?_concat, Option.mem_def, Option.some.injEq] at h ⊢
    split at h
    · exact .inl h
    · exact .inr h.symm

/-- What a blanked text begins with is what the text begins with, or a blank. -/
theorem mem_head?_blanked {region : Region} {text : List Char} {c : Char}
    (h : c ∈ (blanked region text).head?) : c ∈ text.head? ∨ c = ' ' := by
  cases text with
  | nil => cases h
  | cons first rest =>
    simp only [blanked, List.head?_cons, Option.mem_def, Option.some.injEq] at h ⊢
    split at h
    · exact .inl h
    · exact .inr h.symm

/-- No run goes on across a blank. -/
theorem joins_blank (c : Char) : joins c ' ' = false ∧ joins ' ' c = false := by
  have hblank : characterKind ' ' = .blank := by decide
  have hbreaks : breaks ' ' = true := by decide
  constructor
  · rw [joins]
    by_cases hkind : characterKind c = .blank
    · rw [breaks, hkind]
      decide
    · rw [hblank, beq_eq_false_iff_ne.mpr hkind, Bool.false_and]
  · rw [joins, hbreaks, Bool.not_true, Bool.and_false]

/-- The runs of a text are those of its parts when the first part ends in code and no run goes on
across the seam. -/
theorem runs_append {first second : List Char} (hcode : Region.code.after first = .code)
    (hseam : ∀ c ∈ first.getLast?, ∀ next ∈ second.head?, joins c next = false) :
    runs (first ++ second) = runs first ++ runs second := by
  rw [runs, blanked_append, hcode]
  apply cut_append
  intro c hc next hnext
  rw [List.nil_append] at hc
  rcases mem_getLast?_blanked hc with hc | rfl
  · rcases mem_head?_blanked hnext with hnext | rfl
    · exact hseam c hc next hnext
    · exact (joins_blank c).1
  · exact (joins_blank next).2

/-- Names in front of colons, part by part. -/
theorem labels_append {first second : List (List Char)}
    (h : ∀ run ∈ second.head?, defines run = false) :
    labels (first ++ second) = labels first ++ labels second := by
  induction first with
  | nil => rfl
  | cons name first ih =>
    cases first with
    | nil =>
      cases second with
      | nil => rfl
      | cons mark rest =>
        have hmark : defines mark = false := h mark rfl
        change (if defines mark then _ else labels (mark :: rest)) = labels (mark :: rest)
        rw [hmark, if_neg Bool.false_ne_true]
    | cons mark first =>
      rw [List.cons_append, List.cons_append, labels, labels, ← List.cons_append, ih]
      split
      · rfl
      · rfl

/-- Names behind `goto` and `&&`, part by part. -/
theorem references_append {first second : List (List Char)}
    (h : ∀ run ∈ first.getLast?, refers run = false) :
    references (first ++ second) = references first ++ references second := by
  induction first with
  | nil => rfl
  | cons mark first ih =>
    cases first with
    | nil =>
      cases second with
      | nil => rfl
      | cons name rest =>
        have hmark : refers mark = false := h mark rfl
        change (if refers mark && _ then _ else references (name :: rest)) =
          references (name :: rest)
        rw [hmark, Bool.false_and, if_neg Bool.false_ne_true]
    | cons name first =>
      rw [List.cons_append, List.cons_append, references, references, ← List.cons_append,
        ih (fun run hrun => h run (by rwa [List.getLast?_cons_cons]))]
      split
      · rfl
      · rfl

/-- Across any seam, only the first name behind it may be referred to besides. -/
theorem mem_references_append {first second : List (List Char)} {name : String}
    (h : name ∈ references (first ++ second)) :
    name ∈ references first ∨ some name = second.head?.map .ofList ∨ name ∈ references second := by
  induction first with
  | nil => exact .inr (.inr h)
  | cons mark first ih =>
    cases first with
    | nil =>
      cases second with
      | nil => cases h
      | cons behind rest =>
        change name ∈ (if refers mark && behind.head?.any (characterKind · == .word) then
          .ofList behind :: references (behind :: rest) else references (behind :: rest)) at h
        split at h
        · rcases List.mem_cons.mp h with rfl | h
          · exact .inr (.inl rfl)
          · exact .inr (.inr h)
        · exact .inr (.inr h)
    | cons behind first =>
      rw [List.cons_append, List.cons_append, references, ← List.cons_append] at h
      rw [references]
      by_cases hrefers : (refers mark && behind.head?.any (characterKind · == .word)) = true
      · rw [if_pos hrefers] at h ⊢
        rcases List.mem_cons.mp h with rfl | h
        · exact .inl List.mem_cons_self
        · exact (ih h).imp_left (List.mem_cons_of_mem _)
      · rw [if_neg hrefers] at h ⊢
        exact ih h

/-- Nothing is defined without a colon. -/
theorem labels_eq_nil {runs : List (List Char)} (h : ∀ run ∈ runs, defines run = false) :
    labels runs = [] := by
  induction runs with
  | nil => rfl
  | cons name rest ih =>
    have hrest := ih fun run hmem => h run (List.mem_cons_of_mem _ hmem)
    cases rest with
    | nil => rfl
    | cons mark rest =>
      rw [labels, h mark (List.mem_cons_of_mem _ List.mem_cons_self), if_neg Bool.false_ne_true,
        hrest]

/-- Nothing is referred to without a mark for it. -/
theorem references_eq_nil {runs : List (List Char)} (h : ∀ run ∈ runs, refers run = false) :
    references runs = [] := by
  induction runs with
  | nil => rfl
  | cons mark rest ih =>
    have hrest := ih fun run hmem => h run (List.mem_cons_of_mem _ hmem)
    cases rest with
    | nil => rfl
    | cons name rest =>
      rw [references, h mark List.mem_cons_self, Bool.false_and, if_neg Bool.false_ne_true, hrest]

end RandomMachine.Source
