import RandomMachine.Json.Value
import RandomMachine.Proofs.Numeral

/-!
# Written JSON

Tokens in every form in which they can be written: blanks of any kind and number, strings whose
characters stand for themselves or are escaped, and natural numbers. Reading a written token gives
what it means, and leaves what stands behind it.
-/

namespace RandomMachine.Json

/-- What stands between tokens. -/
structure Blanks where
  text : List Char
  blank : text.all isBlank = true

/-- Blanks behind blanks. -/
def Blanks.append (first second : Blanks) : Blanks where
  text := first.text ++ second.text
  blank := by rw [List.all_append, first.blank, second.blank, Bool.and_self]

/-- Blanks are skipped. -/
theorem skipBlanks_append (blanks : Blanks) (rest : List Char) :
    skipBlanks (blanks.text ++ rest) = skipBlanks rest :=
  List.dropWhile_append_of_pos (List.all_eq_true.mp blanks.blank)

/-- No more than blanks is skipped. -/
theorem skipBlanks_cons {c : Char} (h : isBlank c = false) (rest : List Char) :
    skipBlanks (c :: rest) = c :: rest := by
  rw [skipBlanks, List.dropWhile_cons, h, if_neg Bool.false_ne_true]

/-- Nothing is left of blanks at the end. -/
theorem skipBlanks_text (blanks : Blanks) : skipBlanks blanks.text = [] := by
  have := skipBlanks_append blanks []
  rwa [List.append_nil] at this

/-- A colon is found behind blanks. -/
theorem readColon_append (blanks : Blanks) (rest : List Char) :
    readColon (blanks.text ++ ':' :: rest) = .ok rest := by
  rw [readColon, skipBlanks_append, skipBlanks_cons rfl]
  rfl

/-! ### Fixed words -/

/-- A fixed word is read from its text. -/
theorem readWord_append (word rest : List Char) : readWord word (word ++ rest) = .ok rest := by
  induction word with
  | nil => rfl
  | cons c word ih => rw [List.cons_append, readWord, if_pos rfl, ih]

/-- Null is read from its word. -/
theorem readValue_null (rest : List Char) :
    readValue ("null".toList ++ rest) = .ok (.null, rest) := by
  change (readWord "ull".toList ("ull".toList ++ rest)).map _ = _
  rw [readWord_append]
  rfl

/-- Truth values are read from their words. -/
theorem readValue_boolean (value : Bool) (rest : List Char) :
    readValue ((if value then "true" else "false").toList ++ rest) =
      .ok (.boolean value, rest) := by
  cases value with
  | true =>
    change (readWord "rue".toList ("rue".toList ++ rest)).map _ = _
    rw [readWord_append]
    rfl
  | false =>
    change (readWord "alse".toList ("alse".toList ++ rest)).map _ = _
    rw [readWord_append]
    rfl

/-! ### Strings -/

/-- A hexadecimal digit of either case. -/
structure HexDigit where
  character : Char
  value : Nat
  reads : hexValue? character = some value

/-- Four digits of a unit of sixteen bits. -/
structure CodeUnit where
  first : HexDigit
  second : HexDigit
  third : HexDigit
  fourth : HexDigit

namespace CodeUnit

/-- The digits of a unit. -/
def text (unit : CodeUnit) : List Char :=
  [unit.first.character, unit.second.character, unit.third.character, unit.fourth.character]

/-- Value of a unit. -/
def value (unit : CodeUnit) : Nat :=
  16 * (16 * (16 * (16 * 0 + unit.first.value) + unit.second.value) + unit.third.value) +
    unit.fourth.value

/-- There is room for a unit where one is written. -/
theorem startUnit_text (unit : CodeUnit) (high : Option Nat) (rest : List Char) :
    startUnit high (unit.text ++ rest) = .ok (.digits 4 0 high) := by
  have hfirst := unit.first.character.utf8Size_pos
  have hsecond := unit.second.character.utf8Size_pos
  have hthird := unit.third.character.utf8Size_pos
  have hfourth := unit.fourth.character.utf8Size_pos
  have htake : (unit.text ++ rest).take 4 = unit.text := List.take_left' rfl
  rw [startUnit, htake, if_neg]
  simp only [text, List.foldl_cons, List.foldl_nil]
  omega

/-- The digits of a unit are read as its value. -/
theorem readStringFrom_text (unit : CodeUnit) (high : Option Nat) (reversed rest : List Char) :
    readStringFrom (.digits 4 0 high) reversed (unit.text ++ rest) =
      match endUnit unit.value high with
      | .error fault => .error fault
      | .ok (.inl meant) => readStringFrom .plain (meant :: reversed) rest
      | .ok (.inr high) => readStringFrom (.pairBackslash high) reversed rest := by
  simp only [text, value, List.cons_append, List.nil_append, readStringFrom, unit.first.reads,
    unit.second.reads, unit.third.reads, unit.fourth.reads, Nat.lt_irrefl, if_false]
  rfl

end CodeUnit

/-- A unit begins with a backslash and its mark. -/
theorem readStringFrom_escape (unit : CodeUnit) (reversed rest : List Char) :
    readStringFrom .plain reversed ('\\' :: 'u' :: (unit.text ++ rest)) =
      readStringFrom (.digits 4 0 none) reversed (unit.text ++ rest) := by
  rw [readStringFrom, if_neg (by decide), if_pos rfl, readStringFrom, if_pos rfl,
    unit.startUnit_text]

/-- Whether a character of a string can stand for itself. -/
def isPlain (c : Char) : Bool := c ≠ '"' ∧ c ≠ '\\' ∧ ¬ c < ' '

/-- A character of a string, as it is written. -/
inductive StringPart
  | plain (c : Char) (h : isPlain c = true)
  | short (mark meant : Char) (h : shortEscape? mark = some meant)
  | escaped (unit : CodeUnit)
    (h : isHighSurrogate unit.value = false ∧ isLowSurrogate unit.value = false)
  | pair (high low : CodeUnit)
    (h : isHighSurrogate high.value = true ∧ isLowSurrogate low.value = true)

namespace StringPart

/-- Text of a character. -/
def text : StringPart → List Char
  | .plain c _ => [c]
  | .short mark _ _ => ['\\', mark]
  | .escaped unit _ => '\\' :: 'u' :: unit.text
  | .pair high low _ => '\\' :: 'u' :: high.text ++ '\\' :: 'u' :: low.text

/-- The character that is meant. -/
def meant : StringPart → Char
  | .plain c _ => c
  | .short _ meant _ => meant
  | .escaped unit _ => .ofNat unit.value
  | .pair high low _ => ofSurrogates high.value low.value

/-- Reading a written character gives the one that is meant. -/
theorem readStringFrom_text (part : StringPart) (reversed rest : List Char) :
    readStringFrom .plain reversed (part.text ++ rest) =
      readStringFrom .plain (part.meant :: reversed) rest := by
  cases part with
  | plain c h =>
    obtain ⟨hquote, hbackslash, hcontrol⟩ := of_decide_eq_true h
    rw [text, List.singleton_append, readStringFrom]
    simp only [hquote, hbackslash, hcontrol, if_false, meant]
  | short mark meant h =>
    have hunit : mark ≠ 'u' := by
      rintro rfl
      cases h
    change readStringFrom .plain reversed ('\\' :: mark :: rest) = _
    simp only [readStringFrom, if_neg hunit, h]
    rfl
  | escaped unit h =>
    have hunit : endUnit unit.value none = .ok (.inl (.ofNat unit.value)) := by
      rw [endUnit, h.1, h.2]
      rfl
    change readStringFrom .plain reversed ('\\' :: 'u' :: (unit.text ++ rest)) = _
    rw [readStringFrom_escape, unit.readStringFrom_text, hunit]
    rfl
  | pair high low h =>
    have hhigh : endUnit high.value none = .ok (.inr high.value) := by
      have hnot : isLowSurrogate high.value = false := by
        have := of_decide_eq_true h.1
        exact decide_eq_false (by omega)
      rw [endUnit, hnot, h.1]
      rfl
    have hlow : endUnit low.value (some high.value) =
        .ok (.inl (ofSurrogates high.value low.value)) := by
      rw [endUnit, h.2]
      rfl
    have htext : (StringPart.pair high low h).text ++ rest =
        '\\' :: 'u' :: (high.text ++ '\\' :: 'u' :: (low.text ++ rest)) := by
      simp only [text, List.cons_append, List.append_assoc]
    have hmark : readStringFrom (.pairBackslash high.value) reversed
        ('\\' :: 'u' :: (low.text ++ rest)) =
          readStringFrom (.digits 4 0 (some high.value)) reversed (low.text ++ rest) := by
      rw [readStringFrom, if_pos rfl, readStringFrom, if_pos rfl, low.startUnit_text]
    rw [htext, readStringFrom_escape, high.readStringFrom_text, hhigh]
    refine hmark.trans ?_
    rw [low.readStringFrom_text, hlow]
    rfl

end StringPart

/-- A string, as it is written. -/
structure WrittenString where
  parts : List StringPart

namespace WrittenString

/-- The string that is meant. -/
def meant (string : WrittenString) : String := .ofList (string.parts.map StringPart.meant)

/-- Text of a string behind its opening quote. -/
def tail (string : WrittenString) : List Char := string.parts.flatMap StringPart.text ++ ['"']

/-- Text of a string. -/
def text (string : WrittenString) : List Char := '"' :: string.tail

/-- A string of characters that all stand for themselves. -/
def ofPlain (text : String) (h : text.toList.all isPlain = true) : WrittenString :=
  ⟨text.toList.attach.map fun c => .plain c.1 (List.all_eq_true.mp h c.1 c.2)⟩

/-- Characters that stand for themselves mean themselves. -/
theorem meant_ofPlain (text : String) (h : text.toList.all isPlain = true) :
    (ofPlain text h).meant = text := by
  rw [meant, ofPlain, List.map_map]
  change String.ofList (text.toList.attach.map Subtype.val) = text
  rw [List.attach_map_subtype_val, String.ofList_toList]

/-- Reading a written string gives the one that is meant. -/
theorem readString_tail (string : WrittenString) (rest : List Char) :
    readString (string.tail ++ rest) = .ok (string.meant, rest) := by
  have hparts (parts : List StringPart) (reversed : List Char) :
      readStringFrom .plain reversed (parts.flatMap StringPart.text ++ ['"'] ++ rest) =
        .ok (String.ofList (reversed.reverse ++ parts.map StringPart.meant), rest) := by
    induction parts generalizing reversed with
    | nil =>
      rw [List.map_nil, List.append_nil]
      rfl
    | cons part parts ih =>
      rw [List.flatMap_cons, List.append_assoc, List.append_assoc, part.readStringFrom_text,
        ← List.append_assoc, ih, List.reverse_cons, List.map_cons, List.append_assoc]
      rfl
  exact hparts string.parts []

end WrittenString

/-! ### Numbers -/

/-- Digits that make up less than the limit are all appended. -/
theorem appendDigits_eq {limit significand taken : Nat} {digits : List Char}
    (hdigits : ∀ c ∈ digits, c.isDigit = true)
    (h : digits.foldl (fun value c => 10 * value + Numeral.digitValue c) significand < limit) :
    appendDigits limit significand taken digits =
      (digits.foldl (fun value c => 10 * value + Numeral.digitValue c) significand,
        taken + digits.length) := by
  have hle (digits : List Char) (start : Nat) :
      start ≤ digits.foldl (fun value c => 10 * value + Numeral.digitValue c) start := by
    induction digits generalizing start with
    | nil => exact Nat.le_refl _
    | cons c digits ih =>
      have := ih (10 * start + Numeral.digitValue c)
      rw [List.foldl_cons]
      omega
  induction digits generalizing significand taken with
  | nil => rfl
  | cons c digits ih =>
    have hvalue : c.toNat - '0'.toNat = Numeral.digitValue c := by
      rw [Numeral.digitValue, if_pos (hdigits c List.mem_cons_self)]
    rw [List.foldl_cons] at h ⊢
    have hnext := Nat.lt_of_le_of_lt (hle digits _) h
    rw [appendDigits, hvalue, if_pos hnext,
      ih (fun x hx => hdigits x (List.mem_cons_of_mem _ hx)) h, List.length_cons]
    congr 1
    omega

/-- Whether a number ends in front of a text. -/
def EndsNumber (rest : List Char) : Prop :=
  ∀ c ∈ rest.head?, c.isDigit = false ∧ c ≠ '.' ∧ isExponentMark c = false

/-- Digits are a number of their value, if they have no leading zeros and it fits 64 bits. -/
theorem readNumber_digits {digits rest : List Char} (hdigits : ∀ c ∈ digits, c.isDigit = true)
    (hne : digits ≠ []) (hzero : ¬ (digits.head? = some '0' ∧ 1 < digits.length))
    (hvalue : Numeral.ofDigits 10 digits < significandLimit) (hrest : EndsNumber rest) :
    readNumber false (digits ++ rest) = .ok (.integer (Numeral.ofDigits 10 digits), rest) := by
  have hstop : rest.takeWhile Char.isDigit = [] ∧ rest.dropWhile Char.isDigit = rest := by
    cases rest with
    | nil => exact ⟨rfl, rfl⟩
    | cons c rest =>
      have hc := (hrest c rfl).1
      simp only [List.takeWhile_cons, List.dropWhile_cons, hc, Bool.false_eq_true, if_false,
        and_self]
  have htake : (digits ++ rest).takeWhile Char.isDigit = digits := by
    rw [List.takeWhile_append_of_pos hdigits, hstop.1, List.append_nil]
  have hdrop : (digits ++ rest).dropWhile Char.isDigit = rest := by
    rw [List.dropWhile_append_of_pos hdigits, hstop.2]
  have hempty : digits.isEmpty = false := List.isEmpty_eq_false_iff.mpr hne
  have hresult : withRest (ofDigits false (Numeral.ofDigits 10 digits)
      (digits.length - (0 + digits.length))) rest =
        .ok (.integer (Numeral.ofDigits 10 digits), rest) := by
    rw [Nat.zero_add, Nat.sub_self]
    rfl
  rw [readNumber, htake, hdrop, appendDigits_eq hdigits hvalue]
  simp only [hempty, Bool.false_eq_true, if_false, if_neg hzero]
  cases rest with
  | nil => exact hresult
  | cons c after =>
    obtain ⟨-, hpoint, hmark⟩ := hrest c rfl
    simp only [if_neg hpoint, hmark, Bool.false_eq_true, if_false]
    exact hresult

/-- A decimal numeral begins with a digit, and has no other characters. -/
theorem exists_decimal_eq (n : Nat) :
    ∃ c tail, (Numeral.decimal n).toList = c :: tail ∧ ∀ x ∈ c :: tail, x.isDigit = true := by
  obtain ⟨c, tail, hcons⟩ := List.exists_cons_of_ne_nil (Nat.toDigits_ne_nil (b := 10) (n := n))
  refine ⟨c, tail, (Numeral.toList_decimal n).trans hcons, fun x hx => ?_⟩
  rw [← hcons] at hx
  exact Nat.isDigit_of_mem_toDigits (by decide : 10 > 0) (by decide : 10 ≤ 10) hx

/-- Digits are not what other values begin with. -/
theorem ne_of_isDigit {c x : Char} (hc : c.isDigit = true) (hx : x.isDigit = false) : c ≠ x := by
  rintro rfl
  rw [hc] at hx
  cases hx

/-- No decimal numeral begins with a blank. -/
theorem skipBlanks_decimal (n : Nat) (rest : List Char) :
    skipBlanks ((Numeral.decimal n).toList ++ rest) = (Numeral.decimal n).toList ++ rest := by
  obtain ⟨c, tail, hcons, hdigits⟩ := exists_decimal_eq n
  have hc := hdigits c List.mem_cons_self
  have hblank : isBlank c = false := by
    have hne (x : Char) (hx : x.isDigit = false) : (c == x) = false :=
      beq_eq_false_iff_ne.mpr (ne_of_isDigit hc hx)
    simp only [isBlank, hne ' ' rfl, hne '\n' rfl, hne '\t' rfl, hne '\r' rfl, Bool.or_self]
  rw [hcons, List.cons_append, skipBlanks_cons hblank]

/-- A natural number of 64 bits is read from its decimal numeral. -/
theorem readValue_decimal {n : Nat} (hn : n < significandLimit) {rest : List Char}
    (hrest : EndsNumber rest) :
    readValue ((Numeral.decimal n).toList ++ rest) = .ok (.integer n, rest) := by
  have hvalue : Numeral.ofDigits 10 (Numeral.decimal n).toList = n := by
    rw [Numeral.toList_decimal]
    exact Numeral.ofDigits_toDigits (by decide) (by decide) n
  have hzero : ¬ ((Numeral.decimal n).toList.head? = some '0' ∧
      1 < (Numeral.decimal n).toList.length) := by
    rw [Numeral.toList_decimal]
    rintro ⟨hhead, hlength⟩
    by_cases h : n = 0
    · subst h
      revert hlength
      decide
    · exact Numeral.head?_toDigits_ne_zero (by decide) (by decide) h hhead
  obtain ⟨c, tail, hcons, hdigits⟩ := exists_decimal_eq n
  have hc := hdigits c List.mem_cons_self
  rw [hcons] at hvalue hzero ⊢
  have hnumber := readNumber_digits hdigits (List.cons_ne_nil c tail) hzero (by rwa [hvalue]) hrest
  rw [hvalue] at hnumber
  rw [List.cons_append] at hnumber ⊢
  rw [readValue, if_neg (ne_of_isDigit hc rfl), if_neg (ne_of_isDigit hc rfl),
    if_neg (ne_of_isDigit hc rfl), if_neg (ne_of_isDigit hc rfl), if_neg (ne_of_isDigit hc rfl),
    if_pos hc, hnumber]

end RandomMachine.Json
