import RandomMachine.Proofs.Source.Lines

/-!
# Occurrences of a phrase

How often a phrase stands in a text. A text can be counted part by part where no occurrence lies
across the seam, as at the end of each line, and a part without one of the phrase's characters has
no occurrence.
-/

namespace RandomMachine.Source

/-- How often a phrase occurs in a text: the number of positions at which it begins. -/
def occurrences (phrase : List Char) : (text : List Char) → Nat
  | [] => 0
  | c :: rest =>
    if phrase.isPrefixOf (c :: rest) then occurrences phrase rest + 1 else occurrences phrase rest

variable {phrase first second text : List Char}

/-- The characters that stand behind a character somewhere in a phrase. -/
def followers (x : Char) : (phrase : List Char) → List Char
  | y :: z :: rest => if y = x then z :: followers x (z :: rest) else followers x (z :: rest)
  | _ => []

/-- A character behind another one follows it. -/
theorem mem_followers (x y : Char) (before behind : List Char) :
    y ∈ followers x (before ++ x :: y :: behind) := by
  induction before with
  | nil => simp only [List.nil_append, followers, if_true, List.mem_cons_self]
  | cons z before ih =>
    obtain ⟨next, rest, hrest⟩ := List.exists_cons_of_ne_nil
      (List.append_ne_nil_of_right_ne_nil before (List.cons_ne_nil x (y :: behind)))
    rw [List.cons_append, hrest, followers]
    rw [hrest] at ih
    split
    · exact List.mem_cons_of_mem _ ih
    · exact ih

/-- What follows a character in a phrase is part of the phrase. -/
theorem mem_of_mem_followers {x y : Char} (h : y ∈ followers x phrase) : y ∈ phrase := by
  fun_induction followers x phrase with
  | case1 z rest ih =>
    rcases List.mem_cons.mp h with rfl | h
    · exact List.mem_cons_of_mem _ List.mem_cons_self
    · exact List.mem_cons_of_mem _ (ih h)
  | case2 z next rest hne ih => exact List.mem_cons_of_mem _ (ih h)
  | case3 => exact absurd h List.not_mem_nil

/-- Whether no occurrence of a phrase lies across the seam of two texts: in the phrase, the
character behind the seam nowhere follows the one in front of it. -/
def Apart (phrase first second : List Char) : Prop :=
  ∀ x ∈ first.getLast?, ∀ y ∈ second.head?, y ∉ followers x phrase

/-- A phrase that begins in front of a seam ends there. -/
theorem prefix_append_iff (h : Apart phrase first second) (hfirst : first ≠ []) :
    phrase <+: first ++ second ↔ phrase <+: first := by
  refine ⟨fun hphrase => ?_, fun hphrase => hphrase.trans (List.prefix_append _ _)⟩
  rcases Nat.le_total phrase.length first.length with hle | hle
  · exact List.prefix_of_prefix_length_le hphrase (List.prefix_append _ _) hle
  -- The phrase goes on behind the seam, so both characters at the seam are its own.
  obtain ⟨behind, rfl⟩ := List.prefix_of_prefix_length_le (List.prefix_append first second)
    hphrase hle
  cases behind with
  | nil => simp only [List.append_nil, List.prefix_rfl]
  | cons y behind =>
    obtain ⟨rest, hrest⟩ := hphrase
    rw [List.append_assoc] at hrest
    have hsecond : second = y :: behind ++ rest := (List.append_cancel_left hrest).symm
    have hfollows := mem_followers (first.getLast hfirst) y first.dropLast behind
    rw [← List.singleton_append, ← List.append_assoc, List.dropLast_concat_getLast] at hfollows
    refine absurd hfollows (h _ (List.getLast_mem_getLast? hfirst) y ?_)
    rw [hsecond]
    rfl

/-- A text is counted part by part, if no occurrence lies across the seam. -/
theorem occurrences_append (h : Apart phrase first second) :
    occurrences phrase (first ++ second) =
      occurrences phrase first + occurrences phrase second := by
  induction first with
  | nil => exact (Nat.zero_add _).symm
  | cons c rest ih =>
    have hprefix : phrase.isPrefixOf (c :: (rest ++ second)) = phrase.isPrefixOf (c :: rest) := by
      rw [Bool.eq_iff_iff, List.isPrefixOf_iff_prefix, List.isPrefixOf_iff_prefix]
      exact prefix_append_iff h (List.cons_ne_nil c rest)
    have hrest : Apart phrase rest second := fun x hx => h x (by
      rw [List.getLast?_cons, Option.mem_def.mp hx]
      rfl)
    rw [List.cons_append, occurrences, occurrences, ih hrest, hprefix]
    split
    · exact Nat.add_right_comm _ _ _
    · rfl

/-- A text without one of the characters of a phrase does not contain it. -/
theorem occurrences_eq_zero {c : Char} (hc : c ∈ phrase) (h : c ∉ text) :
    occurrences phrase text = 0 := by
  induction text with
  | nil => rfl
  | cons x rest ih =>
    have hprefix : phrase.isPrefixOf (x :: rest) = false := by
      rw [Bool.eq_false_iff, ne_eq, List.isPrefixOf_iff_prefix]
      exact fun hphrase => h (hphrase.subset hc)
    rw [occurrences, hprefix, ih fun hmem => h (List.mem_cons_of_mem _ hmem)]
    rfl

/-- A character that is not in a phrase separates its occurrences. -/
theorem occurrences_separated {c : Char} (hphrase : phrase ≠ []) (hc : c ∉ phrase) :
    occurrences phrase (first ++ c :: second) =
      occurrences phrase first + occurrences phrase second := by
  have hapart : Apart phrase first (c :: second) := by
    intro x _ y hy hfollows
    rw [← Option.mem_some.mp hy] at hfollows
    exact hc (mem_of_mem_followers hfollows)
  have hfirst : phrase.isPrefixOf (c :: second) = false := by
    rw [Bool.eq_false_iff, ne_eq, List.isPrefixOf_iff_prefix]
    intro hprefix
    cases phrase with
    | nil => exact hphrase rfl
    | cons x rest => exact hc ((List.cons_prefix_cons.mp hprefix).1 ▸ List.mem_cons_self)
  rw [occurrences_append hapart, occurrences, hfirst]
  rfl

/-- Lines are counted one by one. -/
theorem occurrences_ofLines_cons (hphrase : phrase ≠ []) (hend : '\n' ∉ phrase) (line : String)
    (rest : List String) :
    occurrences phrase (ofLines (line :: rest)).toList =
      occurrences phrase line.toList + occurrences phrase (ofLines rest).toList := by
  rw [toList_ofLines_cons, occurrences_separated hphrase hend]

/-- Lines of two parts are counted part by part. -/
theorem occurrences_ofLines_append (hphrase : phrase ≠ []) (hend : '\n' ∉ phrase)
    (lines rest : List String) :
    occurrences phrase (ofLines (lines ++ rest)).toList =
      occurrences phrase (ofLines lines).toList + occurrences phrase (ofLines rest).toList := by
  induction lines with
  | nil => exact (Nat.zero_add _).symm
  | cons line lines ih =>
    rw [List.cons_append, occurrences_ofLines_cons hphrase hend,
      occurrences_ofLines_cons hphrase hend, ih, Nat.add_assoc]

end RandomMachine.Source
