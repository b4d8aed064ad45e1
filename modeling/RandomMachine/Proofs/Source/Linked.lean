import RandomMachine.Proofs.Source.Labels

/-!
# Linked texts

The labels that a text defines together with the ones that it may refer to, and how they come from
its lines. Most lines do neither: they have no letter or mark of the kind that it takes.
-/

namespace RandomMachine.Source

/-- Whether a text, read on its own, defines these labels and refers to some of these targets. -/
structure Linked (text : List Char) (defined targets : List String) : Prop where
  /-- What follows the text is code. -/
  code : Region.code.after text = .code
  /-- No name in front of the text is defined by it. -/
  head : (runs text).head?.any defines = false
  /-- No name behind the text is referred to by it. -/
  last : (runs text).getLast?.any refers = false
  labels : labels (runs text) = defined
  references : ∀ name ∈ references (runs text), name ∈ targets

namespace Linked

variable {first second : List Char} {defined defined' targets : List String}

instance (text : List Char) (defined targets : List String) :
    Decidable (Linked text defined targets) :=
  decidable_of_iff
    (Region.code.after text = .code ∧ (runs text).head?.any defines = false ∧
      (runs text).getLast?.any refers = false ∧ Source.labels (runs text) = defined ∧
      ∀ name ∈ Source.references (runs text), name ∈ targets)
    ⟨fun ⟨code, head, last, labels, references⟩ => ⟨code, head, last, labels, references⟩,
      fun h => ⟨h.code, h.head, h.last, h.labels, h.references⟩⟩

/-- More targets may be allowed than are referred to. -/
theorem mono {text : List Char} {targets' : List String} (h : Linked text defined targets)
    (hsub : ∀ name ∈ targets, name ∈ targets') : Linked text defined targets' :=
  { h with references := fun name hname => hsub name (h.references name hname) }

/-- What refers to nothing is linked to any targets. -/
theorem of_nil {text : List Char} (h : Linked text defined []) : Linked text defined targets :=
  h.mono fun _ hname => absurd hname List.not_mem_nil

/-- Texts one after the other, when no run goes on across the seam. -/
theorem append (h : Linked first defined targets) (h' : Linked second defined' targets)
    (hseam : ∀ c ∈ first.getLast?, ∀ next ∈ second.head?, joins c next = false) :
    Linked (first ++ second) (defined ++ defined') targets where
  code := by
    rw [Region.after_append, h.code]
    exact h'.code
  head := by
    rw [runs_append h.code hseam, List.head?_append]
    cases hhead : (runs first).head? with
    | none => exact h'.head
    | some run =>
      rw [Option.some_or, ← hhead]
      exact h.head
  last := by
    rw [runs_append h.code hseam, List.getLast?_append]
    cases hlast : (runs second).getLast? with
    | none => exact h.last
    | some run =>
      rw [Option.some_or, ← hlast]
      exact h'.last
  labels := by
    have hhead : ∀ run ∈ (runs second).head?, defines run = false := by
      intro run hrun
      have := h'.head
      rw [Option.mem_def.mp hrun] at this
      exact this
    rw [runs_append h.code hseam, labels_append hhead, h.labels, h'.labels]
  references := by
    have hlast : ∀ run ∈ (runs first).getLast?, refers run = false := by
      intro run hrun
      have := h.last
      rw [Option.mem_def.mp hrun] at this
      exact this
    intro name hname
    rw [runs_append h.code hseam, references_append hlast] at hname
    rcases List.mem_append.mp hname with hname | hname
    · exact h.references name hname
    · exact h'.references name hname

/-- Texts one after the other, when the first one ends in a blank or bracket. -/
theorem append_of_breaks (h : Linked first defined targets) (h' : Linked second defined' targets)
    (hbreaks : first.getLast?.any breaks = true) :
    Linked (first ++ second) (defined ++ defined') targets := by
  apply h.append h'
  intro c hc next _
  rw [Option.mem_def.mp hc] at hbreaks
  have hc' : breaks c = true := hbreaks
  rw [joins, hc', Bool.not_true, Bool.and_false]

end Linked

/-! ### Lines -/

/-- Lines that are linked one by one, each with its end. -/
theorem linked_ofLines_cons {line : String} {rest : List String} {defined defined' targets}
    (h : Linked (line.toList ++ ['\n']) defined targets)
    (h' : Linked (ofLines rest).toList defined' targets) :
    Linked (ofLines (line :: rest)).toList (defined ++ defined') targets := by
  rw [toList_ofLines_cons, ← List.singleton_append, ← List.append_assoc]
  exact h.append_of_breaks h' (by rw [List.getLast?_concat]; decide)

/-- No lines define nothing. -/
theorem linked_ofLines_nil (targets : List String) : Linked (ofLines []).toList [] targets :=
  Linked.of_nil (by decide)

/-- Lines of two parts. -/
theorem toList_ofLines_append (first second : List String) :
    (ofLines (first ++ second)).toList = (ofLines first).toList ++ (ofLines second).toList := by
  induction first with
  | nil => rfl
  | cons line first ih =>
    rw [List.cons_append, toList_ofLines_cons, toList_ofLines_cons, ih, List.append_assoc]
    rfl

/-- Lines end with a line end. -/
theorem getLast?_ofLines {lines : List String} {c : Char}
    (h : c ∈ (ofLines lines).toList.getLast?) : c = '\n' := by
  rcases lines.eq_nil_or_concat with rfl | ⟨init, last, rfl⟩
  · cases h
  · rw [List.concat_eq_append, toList_ofLines_append, toList_ofLines_cons,
      ← List.append_assoc, show (ofLines []).toList = [] by rfl, List.getLast?_concat] at h
    exact (Option.mem_some.mp h).symm

/-- Two parts of a text of lines. -/
theorem linked_ofLines_append {first second : List String} {defined defined' targets}
    (h : Linked (ofLines first).toList defined targets)
    (h' : Linked (ofLines second).toList defined' targets) :
    Linked (ofLines (first ++ second)).toList (defined ++ defined') targets := by
  rw [toList_ofLines_append]
  apply h.append h'
  intro c hc next _
  rw [getLast?_ofLines hc]
  have hbreaks : breaks '\n' = true := by decide
  rw [joins, hbreaks, Bool.not_true, Bool.and_false]

/-- Lines that define nothing. -/
theorem linked_ofLines_of_forall {lines : List String} {targets : List String}
    (h : ∀ line ∈ lines, Linked (line.toList ++ ['\n']) [] targets) :
    Linked (ofLines lines).toList [] targets := by
  induction lines with
  | nil => exact linked_ofLines_nil targets
  | cons line rest ih =>
    exact linked_ofLines_cons (h line List.mem_cons_self)
      (ih fun other hother => h other (List.mem_cons_of_mem line hother))

/-! ### Quiet lines -/

/-- Every run consists of characters of the text, in their order. -/
theorem sublist_of_mem_cut {run text piece : List Char} (h : piece ∈ cut run text) :
    piece.Sublist (run ++ text) := by
  have hclose {run : List Char} (h : piece ∈ closeRun run) : piece = run := by
    unfold closeRun at h
    split at h
    · cases h
    · exact List.mem_singleton.mp h
  induction text generalizing run with
  | nil =>
    rw [hclose h]
    exact List.sublist_append_left run []
  | cons c rest ih =>
    rw [cut] at h
    split at h
    · rw [List.append_cons]
      exact ih h
    · rcases List.mem_append.mp h with h | h
      · rw [hclose h]
        exact List.sublist_append_left run _
      · refine (ih h).trans (List.Sublist.trans ?_ (List.sublist_append_right run _))
        split
        · exact List.sublist_cons_self c rest
        · exact List.Sublist.refl _

/-- Blanking does not add any characters but blanks. -/
theorem countP_blanked_le {p : Char → Bool} (h : p ' ' = false) (region : Region)
    (text : List Char) : (blanked region text).countP p ≤ text.countP p := by
  induction text generalizing region with
  | nil => exact Nat.le_refl _
  | cons c rest ih =>
    rw [blanked, List.countP_cons, List.countP_cons]
    have hc : (if p (if region.shows c then c else ' ') then 1 else 0) ≤ if p c then 1 else 0 := by
      split
      · exact Nat.le_refl _
      · rw [h]
        exact Nat.zero_le _
    exact Nat.add_le_add (ih _) hc

/-- No run has more characters of a kind than the text. -/
theorem countP_run_le {p : Char → Bool} (h : p ' ' = false) {text run : List Char}
    (hrun : run ∈ runs text) : run.countP p ≤ text.countP p :=
  Nat.le_trans (sublist_of_mem_cut hrun).countP_le (countP_blanked_le h .code text)

/-- Whether a character takes part in colons, strings, and the word `goto`. -/
def isLoud (c : Char) : Bool := c == ':' || c == '"' || c == 'g'

/-- Whether two of a character make a mark of their own: a conjunction, an address of a label, or
the beginning of a comment. -/
def isPaired (c : Char) : Bool := c == '&' || c == '/'

/-- A text without loud characters and with few paired ones. With one of them at most, it defines
no label and refers to none. -/
structure Quiet (text : String) (paired : Nat) : Prop where
  loud : text.toList.countP isLoud = 0
  paired : text.toList.countP isPaired ≤ paired

namespace Quiet

variable {text first second : String} {m n : Nat}

instance (text : String) (n : Nat) : Decidable (Quiet text n) :=
  decidable_of_iff (text.toList.countP isLoud = 0 ∧ text.toList.countP isPaired ≤ n)
    ⟨fun ⟨loud, paired⟩ => ⟨loud, paired⟩, fun h => ⟨h.loud, h.paired⟩⟩

/-- Paired characters add up. -/
theorem append (h : Quiet first m) (h' : Quiet second n) : Quiet (first ++ second) (m + n) where
  loud := by rw [String.toList_append, List.countP_append, h.loud, h'.loud]
  paired := by
    rw [String.toList_append, List.countP_append]
    exact Nat.add_le_add h.paired h'.paired

/-- A text of none of the characters is quiet. -/
theorem of_avoids (h : ∀ c ∈ [':', '"', 'g', '&', '/'], Avoids c text) : Quiet text 0 where
  loud := by
    rw [List.countP_eq_zero]
    intro c hc hloud
    simp only [isLoud, Bool.or_eq_true, beq_iff_eq] at hloud
    rcases hloud with (rfl | rfl) | rfl
    · exact h ':' (by decide) hc
    · exact h '"' (by decide) hc
    · exact h 'g' (by decide) hc
  paired := by
    rw [Nat.le_zero, List.countP_eq_zero]
    intro c hc hpaired
    simp only [isPaired, Bool.or_eq_true, beq_iff_eq] at hpaired
    rcases hpaired with rfl | rfl
    · exact h '&' (by decide) hc
    · exact h '/' (by decide) hc

/-- Decimal numerals are quiet. -/
theorem decimal (n : Nat) : Quiet (Numeral.decimal n) 0 := by
  have hdigit : ∀ c ∈ [':', '"', 'g', '&', '/'], c.isDigit = false := by
    simp only [List.forall_mem_cons, List.not_mem_nil, false_imp_iff, implies_true, and_true]
    decide
  exact of_avoids fun c hc => Avoids.decimal (hdigit c hc) n

/-- Numerals with a sign are quiet. -/
theorem signed (value : Int) : Quiet (Numeral.signed value) 0 := by
  have hdigit : ∀ c ∈ [':', '"', 'g', '&', '/'], c.isDigit = false ∧ Avoids c "-" := by
    simp only [List.forall_mem_cons, List.not_mem_nil, false_imp_iff, implies_true, and_true]
    decide
  exact of_avoids fun c hc => Avoids.signed (hdigit c hc).1 (hdigit c hc).2 value

/-- Hexadecimal numerals are quiet. -/
theorem hexDigits (width n : Nat) : Quiet (Numeral.hexDigits width n) 0 := by
  have hdigit : ∀ c ∈ [':', '"', 'g', '&', '/'], Numeral.isHexDigit c = false := by
    simp only [List.forall_mem_cons, List.not_mem_nil, false_imp_iff, implies_true, and_true]
    decide
  exact of_avoids fun c hc => Avoids.hexDigits (hdigit c hc) width n

/-- Indenting a text keeps it quiet. -/
theorem indented (depth : Nat) (h : Quiet text n) : Quiet (Source.indented depth text) n := by
  have htabs : Quiet (String.ofList (List.replicate depth '\t')) 0 := by
    apply of_avoids
    intro c hc
    refine Avoids.ofList_iff.mpr fun hmem => ?_
    rw [List.eq_of_mem_replicate hmem] at hc
    exact absurd hc (by decide)
  rw [← Nat.zero_add n]
  exact htabs.append h

end Quiet

/-- A line with one stroke at most, and no string, ends in code. -/
theorem Region.after_of_countP {text : List Char} {region : Region}
    (hloud : text.countP isLoud = 0)
    (hregion : region = .code ∧ text.countP isPaired ≤ 1 ∨
      region = .stroke ∧ text.countP isPaired = 0) :
    region.after (text ++ ['\n']) = .code := by
  induction text generalizing region with
  | nil => rcases hregion with ⟨rfl, -⟩ | ⟨rfl, -⟩ <;> rfl
  | cons c rest ih =>
    rw [List.countP_cons] at hloud
    simp only [List.countP_cons] at hregion
    have hquote : c ≠ '"' := by
      rintro rfl
      exact absurd hloud (by simp [isLoud])
    change (region.next c).after (rest ++ ['\n']) = .code
    apply ih (by omega)
    by_cases hstroke : c = '/'
    · subst hstroke
      rcases hregion with ⟨rfl, hcount⟩ | ⟨rfl, hcount⟩
      · refine .inr ⟨rfl, ?_⟩
        simp [isPaired] at hcount
        simpa [isPaired] using hcount
      · simp [isPaired] at hcount
    · left
      constructor
      · rcases hregion with ⟨rfl, -⟩ | ⟨rfl, -⟩
        · rw [next, if_neg hquote, if_neg hstroke]
        · rw [next, if_neg hquote, if_neg hstroke]
      · rcases hregion with ⟨-, hcount⟩ | ⟨-, hcount⟩ <;> omega

/-- A quiet line is linked to nothing. -/
theorem Quiet.linked {text : String} (h : Quiet text 1) (targets : List String) :
    Linked (text.toList ++ ['\n']) [] targets := by
  have hloud {run : List Char} (hrun : run ∈ runs (text.toList ++ ['\n'])) :
      run.countP isLoud = 0 := by
    have := countP_run_le (by decide : isLoud ' ' = false) hrun
    rw [List.countP_append, h.loud] at this
    exact Nat.le_zero.mp this
  have hpaired {run : List Char} (hrun : run ∈ runs (text.toList ++ ['\n'])) :
      run.countP isPaired ≤ 1 := by
    have := countP_run_le (by decide : isPaired ' ' = false) hrun
    rw [List.countP_append] at this
    exact Nat.le_trans this (Nat.add_le_add_right h.paired 0)
  have hdefines : ∀ run ∈ runs (text.toList ++ ['\n']), defines run = false := by
    intro run hrun
    rw [defines, beq_eq_false_iff_ne]
    intro hhead
    exact absurd (List.countP_eq_zero.mp (hloud hrun) ':' (List.mem_of_head? hhead)) (by decide)
  have hrefers : ∀ run ∈ runs (text.toList ++ ['\n']), refers run = false := by
    intro run hrun
    rw [refers, Bool.or_eq_false_iff, beq_eq_false_iff_ne]
    constructor
    · rintro rfl
      exact absurd (hloud hrun) (by decide)
    · rw [Bool.eq_false_iff, ne_eq, List.isSuffixOf_iff_suffix]
      intro hsuffix
      have htwo := hsuffix.sublist.countP_le (p := isPaired)
      exact absurd (Nat.le_trans htwo (hpaired hrun)) (by decide)
  refine ⟨Region.after_of_countP h.loud (.inl ⟨rfl, h.paired⟩), ?_, ?_, labels_eq_nil hdefines, ?_⟩
  · cases hhead : (runs (text.toList ++ ['\n'])).head? with
    | none => rfl
    | some run => exact hdefines run (List.mem_of_head? hhead)
  · cases hlast : (runs (text.toList ++ ['\n'])).getLast? with
    | none => rfl
    | some run => exact hrefers run (List.mem_of_getLast? hlast)
  · rw [references_eq_nil hrefers]
    intro name hname
    exact absurd hname List.not_mem_nil

end RandomMachine.Source
