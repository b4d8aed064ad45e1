import RandomMachine.Machine.State
import RandomMachine.Proofs.Numeral
import RandomMachine.Source.Expression

/-!
# Tokens of operand texts

Operand texts are read as C reads them: a text is cut into the longest runs of characters of one
kind, and every run is a name, an integer constant or a mark. Cutting a text that has been put
together from parts gives the runs of the parts, unless a run goes on across the seam.
-/

namespace RandomMachine.Source

/-! ### Kinds of characters -/

/-- What a character can be part of. -/
inductive CharacterKind
  /-- Names and numbers. -/
  | word
  /-- Marks of one or more characters. -/
  | operator
  /-- Marks of exactly one character. -/
  | bracket
  | blank
  deriving DecidableEq, Repr

/-- Kind of a character. -/
def characterKind (c : Char) : CharacterKind :=
  if c.isAlphanum || c == '_' then .word
  else if c == ' ' || c == '\t' || c == '\n' then .blank
  else if ['(', ')', '\x7b', '\x7d', '.', ','].contains c then .bracket
  else .operator

/-- Whether a character always stands at the end of a run. -/
def breaks (c : Char) : Bool :=
  characterKind c == .bracket || characterKind c == .blank

/-- Whether a run goes on from one character to the next. -/
def joins (c next : Char) : Bool := characterKind c == characterKind next && !breaks c

/-! ### Cutting a text -/

/-- The run that has been read so far, if there is one. -/
def closeRun (run : List Char) : List (List Char) := if run = [] then [] else [run]

/-- Cuts characters into runs and drops the blanks between them, where `run` has been read
already. -/
def cut (run : List Char) : List Char → List (List Char)
  | [] => closeRun run
  | c :: rest =>
    if run.getLast?.any (joins · c) then cut (run ++ [c]) rest
    else closeRun run ++ cut (if characterKind c = .blank then [] else [c]) rest

/-- The first character begins a run, unless it is a blank. -/
theorem cut_nil_cons (c : Char) (rest : List Char) :
    cut [] (c :: rest) = cut (if characterKind c = .blank then [] else [c]) rest := rfl

/-- A run ends where the next character does not go on with it. -/
theorem cut_eq_of_not_joins (run rest : List Char)
    (h : ∀ c ∈ run.getLast?, ∀ next ∈ rest.head?, joins c next = false) :
    cut run rest = closeRun run ++ cut [] rest := by
  cases rest with
  | nil =>
    change _ = closeRun run ++ []
    rw [List.append_nil]
    rfl
  | cons next rest =>
    have hlast : run.getLast?.any (joins · next) = false := by
      cases hc : run.getLast? with
      | none => rfl
      | some c => exact h c hc next rfl
    rw [cut, if_neg (by rw [hlast]; exact Bool.false_ne_true), cut_nil_cons]

/-- Parts are cut one by one when no run goes on across the seam. -/
theorem cut_append (run first second : List Char)
    (h : ∀ c ∈ (run ++ first).getLast?, ∀ next ∈ second.head?, joins c next = false) :
    cut run (first ++ second) = cut run first ++ cut [] second := by
  induction first generalizing run with
  | nil =>
    rw [List.append_nil] at h
    exact cut_eq_of_not_joins run second h
  | cons c first ih =>
    rw [List.cons_append, cut, cut]
    split
    · apply ih
      rwa [List.append_assoc]
    · rw [List.append_assoc, ih]
      intro last hlast
      apply h last
      rw [List.getLast?_append, List.getLast?_cons]
      split at hlast
      · rw [List.nil_append] at hlast
        rw [Option.mem_def.mp hlast]
        rfl
      · rw [List.singleton_append, List.getLast?_cons] at hlast
        rw [Option.mem_def.mp hlast]
        rfl

/-- A run of word characters is one piece. -/
theorem cut_word {word : List Char} (hne : word ≠ [])
    (hword : ∀ c ∈ word, characterKind c = .word) : cut [] word = [word] := by
  have hgrow : ∀ (rest run : List Char), run ≠ [] → (∀ c ∈ run, characterKind c = .word) →
      (∀ c ∈ rest, characterKind c = .word) → cut run rest = [run ++ rest] := by
    intro rest
    induction rest with
    | nil =>
      intro run hrun _ _
      rw [cut, closeRun, if_neg hrun, List.append_nil]
    | cons c rest ih =>
      intro run hrun hkind hrest
      have hlast : run.getLast?.any (joins · c) = true := by
        rw [List.getLast?_eq_some_getLast hrun]
        change joins (run.getLast hrun) c = true
        rw [joins, breaks, hkind _ (List.getLast_mem hrun), hrest c List.mem_cons_self]
        rfl
      rw [cut, if_pos hlast, ih (run ++ [c]) (List.append_ne_nil_of_left_ne_nil hrun _),
        List.append_assoc]
      · rfl
      · intro x hx
        rcases List.mem_append.mp hx with hx | hx
        · exact hkind x hx
        · rw [List.mem_singleton.mp hx]
          exact hrest c List.mem_cons_self
      · intro x hx
        exact hrest x (List.mem_cons_of_mem c hx)
  obtain ⟨c, rest, rfl⟩ := List.exists_cons_of_ne_nil hne
  rw [cut_nil_cons, hword c List.mem_cons_self, if_neg (by decide)]
  apply hgrow rest [c] (List.cons_ne_nil c [])
  · intro x hx
    rw [List.mem_singleton.mp hx]
    exact hword c List.mem_cons_self
  · intro x hx
    exact hword x (List.mem_cons_of_mem c hx)

/-! ### Tokens -/

/-- A type of integers of emitted C. -/
inductive IntegerType
  | int32
  | uint32
  | int64
  | uint64
  deriving DecidableEq, Repr

/-- A type of emitted C. -/
inductive CType
  | integer (type : IntegerType)
  | double
  /-- The union that a memory cell is. -/
  | cell
  deriving DecidableEq, Repr

/-- What a name of emitted C stands for. -/
inductive Name
  | register (number : UInt8)
  | floatRegister (number : UInt8)
  /-- The variable that holds the address of operand A. -/
  | address
  /-- The variable that holds the DRAM cursor. -/
  | cursor
  | readDram
  | window (window : Window)
  | type (type : CType)
  | member (part : Member)
  deriving DecidableEq, Repr

/-- A mark of emitted C. -/
inductive Mark
  | openParenthesis
  | closeParenthesis
  | openBrace
  | closeBrace
  | dot
  | comma
  | ampersand
  | caret
  | minus
  | atMost
  | equals
  deriving DecidableEq, Repr

/-- How the digits of an integer constant are written. -/
inductive Radix
  | decimal
  | hexadecimal
  deriving DecidableEq, Repr

/-- Base of a radix. -/
def Radix.base : Radix → Nat
  | .decimal => 10
  | .hexadecimal => 16

/-- A token. -/
inductive Token
  | name (name : Name)
  | mark (mark : Mark)
  | constant (value : Nat) (radix : Radix) (suffix : Suffix)
  /-- Anything that operand texts have no use for. -/
  | unreadable
  deriving DecidableEq, Repr

/-- The names and marks of operand texts. -/
def vocabulary : List (String × Token) :=
  [("(", .mark .openParenthesis), (")", .mark .closeParenthesis), ("\x7b", .mark .openBrace),
    ("\x7d", .mark .closeBrace), (".", .mark .dot), (",", .mark .comma),
    ("&", .mark .ampersand), ("^", .mark .caret), ("-", .mark .minus), ("<=", .mark .atMost),
    ("=", .mark .equals),
    ("addr", .name .address), ("mmu", .name .cursor), ("readDram", .name .readDram),
    ("SCRATCHPAD_16K", .name (.window .l1)), ("SCRATCHPAD_256K", .name (.window .l2)),
    ("int32_t", .name (.type (.integer .int32))), ("uint32_t", .name (.type (.integer .uint32))),
    ("int64_t", .name (.type (.integer .int64))), ("uint64_t", .name (.type (.integer .uint64))),
    ("double", .name (.type .double)), ("convertible_t", .name (.type .cell)),
    ("f64", .name (.member .double)), ("i64", .name (.member .int64)),
    ("u64", .name (.member .uint64)), ("i32", .name (.member .int32)),
    ("u32", .name (.member .uint32))] ++
  (List.range registerCount).map (fun n =>
    ("r" ++ Numeral.decimal n, .name (.register (.ofNat n)))) ++
  (List.range registerCount).map (fun n =>
    ("f" ++ Numeral.decimal n, .name (.floatRegister (.ofNat n))))

/-- The mark that follows the digits of an integer constant. -/
def Suffix.ofCharacters : List Char → Option Suffix
  | [] => some .int
  | ['U'] => some .unsigned
  | ['L', 'L'] => some .longLong
  | ['U', 'L', 'L'] => some .unsignedLongLong
  | _ => none

/-- The constant of a run of digits and the characters that follow it. -/
def Token.ofDigits (radix : Radix) (digits suffix : List Char) : Token :=
  match digits, Suffix.ofCharacters suffix with
  | [], _ | _, none => .unreadable
  | digits, some suffix => .constant (Numeral.ofDigits radix.base digits) radix suffix

/-- The token of a run that begins with a digit. A leading zero that is not all of the digits would
make them octal, which no operand text does. -/
def Token.ofNumber (run : List Char) : Token :=
  if run.take 2 = ['0', 'x'] then
    ofDigits .hexadecimal ((run.drop 2).takeWhile Numeral.isHexDigit)
      ((run.drop 2).dropWhile Numeral.isHexDigit)
  else
    let digits := run.takeWhile Char.isDigit
    if digits.head? = some '0' ∧ digits ≠ ['0'] then .unreadable
    else ofDigits .decimal digits (run.dropWhile Char.isDigit)

/-- The token of a run. -/
def Token.ofRun (run : List Char) : Token :=
  if run.head?.any Char.isDigit then ofNumber run
  else (vocabulary.lookup (String.ofList run)).getD .unreadable

/-- The tokens of a text. -/
def tokens (text : String) : List Token := (cut [] text.toList).map Token.ofRun

/-- The tokens of a text are those of its parts when no run goes on across the seam. -/
theorem tokens_append_of_not_joins {first second : String}
    (h : ∀ c ∈ first.toList.getLast?, ∀ next ∈ second.toList.head?, joins c next = false) :
    tokens (first ++ second) = tokens first ++ tokens second := by
  rw [tokens, String.toList_append, cut_append, List.map_append]
  · rfl
  · intro c hc
    rw [List.nil_append] at hc
    exact h c hc

/-- The tokens of a text are those of its parts when the first part ends in a bracket or blank. -/
theorem tokens_append {first second : String} (h : first.toList.getLast?.any breaks = true) :
    tokens (first ++ second) = tokens first ++ tokens second := by
  apply tokens_append_of_not_joins
  intro c hc next _
  rw [Option.mem_def.mp hc] at h
  have hbreaks : breaks c = true := h
  rw [joins, hbreaks, Bool.not_true, Bool.and_false]

/-- The tokens of a text are those of its parts when the second part begins with a bracket or
blank. -/
theorem tokens_append_of_head {first second : String}
    (h : second.toList.head?.any breaks = true) :
    tokens (first ++ second) = tokens first ++ tokens second := by
  apply tokens_append_of_not_joins
  intro c _ next hnext
  rw [Option.mem_def.mp hnext] at h
  have hbreaks : breaks next = true := h
  rw [joins]
  by_cases hkind : characterKind c = characterKind next
  · rw [show breaks c = breaks next by rw [breaks, breaks, hkind], hbreaks, Bool.not_true,
      Bool.and_false]
  · rw [beq_eq_false_iff_ne.mpr hkind, Bool.false_and]

/-! ### Tokens of numerals and names -/

/-- Hexadecimal digits are word characters. -/
theorem characterKind_of_isHexDigit {c : Char} (h : Numeral.isHexDigit c = true) :
    characterKind c = .word := by
  have hword : c.isAlphanum = true := by
    simp only [Numeral.isHexDigit, Bool.or_eq_true, Bool.and_eq_true, decide_eq_true_eq] at h
    have hupper : c.isUpper = decide ('A'.val ≤ c.val ∧ c.val ≤ 'Z'.val) := rfl
    have hlower : c.isLower = (decide ('a'.val ≤ c.val) && decide (c.val ≤ 'z'.val)) := rfl
    have hkinds : c.isAlphanum = (c.isUpper || c.isLower || c.isDigit) := rfl
    simp only [hkinds, hupper, hlower, Bool.or_eq_true, Bool.and_eq_true, decide_eq_true_eq]
    rcases h with (h | h) | h
    · exact .inr h
    · exact .inl (.inr ⟨h.1, Char.le_trans h.2 (by decide)⟩)
    · exact .inl (.inl ⟨h.1, Char.le_trans h.2 (by decide)⟩)
  rw [characterKind, hword]
  rfl

/-- Reading a mark gives the suffix it was printed for. -/
theorem Suffix.ofCharacters_text (suffix : Suffix) :
    ofCharacters suffix.text.toList = some suffix := by
  cases suffix <;> rfl

/-- The characters of a suffix are word characters. -/
theorem Suffix.characterKind_of_mem_text {suffix : Suffix} {c : Char}
    (h : c ∈ suffix.text.toList) : characterKind c = .word := by
  have hall : suffix.text.toList.all (characterKind · == .word) = true := by
    cases suffix <;> rfl
  exact beq_iff_eq.mp (List.all_eq_true.mp hall c h)

/-- Digits end where a suffix begins. -/
theorem Suffix.span_text (suffix : Suffix) {p : Char → Bool} {digits : List Char}
    (h : ∀ c ∈ digits, p c = true) (hU : p 'U' = false) (hL : p 'L' = false) :
    (digits ++ suffix.text.toList).takeWhile p = digits ∧
      (digits ++ suffix.text.toList).dropWhile p = suffix.text.toList := by
  rw [List.takeWhile_append_of_pos h, List.dropWhile_append_of_pos h]
  cases suffix
  · exact ⟨List.append_nil digits, rfl⟩
  · change digits ++ List.takeWhile p ['U'] = digits ∧ List.dropWhile p ['U'] = ['U']
    rw [List.takeWhile_cons, List.dropWhile_cons, hU]
    exact ⟨List.append_nil digits, rfl⟩
  · change digits ++ List.takeWhile p ['L', 'L'] = digits ∧
      List.dropWhile p ['L', 'L'] = ['L', 'L']
    rw [List.takeWhile_cons, List.dropWhile_cons, hL]
    exact ⟨List.append_nil digits, rfl⟩
  · change digits ++ List.takeWhile p ['U', 'L', 'L'] = digits ∧
      List.dropWhile p ['U', 'L', 'L'] = ['U', 'L', 'L']
    rw [List.takeWhile_cons, List.dropWhile_cons, hU]
    exact ⟨List.append_nil digits, rfl⟩

/-- The constant of the digits of a number is that number. -/
theorem Token.ofDigits_text (radix : Radix) {digits : List Char} (suffix : Suffix)
    (hne : digits ≠ []) :
    ofDigits radix digits suffix.text.toList =
      .constant (Numeral.ofDigits radix.base digits) radix suffix := by
  obtain ⟨c, rest, rfl⟩ := List.exists_cons_of_ne_nil hne
  simp only [ofDigits, Suffix.ofCharacters_text]

/-- A text of word characters is one token. -/
theorem tokens_word {word : List Char} (hne : word ≠ [])
    (hword : ∀ c ∈ word, characterKind c = .word) {text : String} (htext : text.toList = word) :
    tokens text = [Token.ofRun word] := by
  rw [tokens, htext, cut_word hne hword, List.map_singleton]

/-- Digits in front of a suffix begin as the digits do. -/
private theorem head?_digits_append {digits suffix : List Char} (hne : digits ≠ []) :
    (digits ++ suffix).head? = digits.head? := by
  obtain ⟨c, rest, rfl⟩ := List.exists_cons_of_ne_nil hne
  rfl

/-- A decimal numeral with its mark is one constant. -/
theorem tokens_decimal (n : Nat) (suffix : Suffix) :
    tokens (Numeral.decimal n ++ suffix.text) = [.constant n .decimal suffix] := by
  by_cases hzero : n = 0
  · rw [hzero]
    cases suffix <;> rfl
  have hne : Nat.toDigits 10 n ≠ [] := Nat.toDigits_ne_nil
  have hdigit : ∀ c ∈ Nat.toDigits 10 n, c.isDigit = true := fun c hc =>
    Nat.isDigit_of_mem_toDigits (by decide : 10 > 0) (by decide : 10 ≤ 10) hc
  have hlead := Numeral.head?_toDigits_ne_zero (by decide : 1 < 10) (by decide) hzero
  have hspan := suffix.span_text hdigit rfl rfl
  have hhead : (Nat.toDigits 10 n ++ suffix.text.toList).head? = _ := head?_digits_append hne
  have hword : ∀ c ∈ Nat.toDigits 10 n ++ suffix.text.toList, characterKind c = .word := by
    intro c hc
    rcases List.mem_append.mp hc with hc | hc
    · exact characterKind_of_isHexDigit
        (Numeral.isHexDigit_of_mem_toDigits (by decide) (by decide) hc)
    · exact Suffix.characterKind_of_mem_text hc
  have hstart : (Nat.toDigits 10 n ++ suffix.text.toList).head?.any Char.isDigit = true := by
    rw [hhead, List.head?_eq_some_head hne]
    exact hdigit _ (List.head_mem hne)
  have hradix : (Nat.toDigits 10 n ++ suffix.text.toList).take 2 ≠ ['0', 'x'] := by
    intro h
    apply hlead
    have htake := congrArg List.head? h
    rwa [List.head?_take, if_neg (by decide), hhead] at htake
  rw [tokens_word (List.append_ne_nil_of_left_ne_nil hne _) hword
      (by rw [String.toList_append, Numeral.toList_decimal]),
    Token.ofRun, if_pos hstart, Token.ofNumber, if_neg hradix, hspan.1, hspan.2,
    if_neg (fun h => hlead h.1), Token.ofDigits_text .decimal suffix hne]
  rw [Radix.base, Numeral.ofDigits_toDigits (by decide) (by decide)]

/-- A hexadecimal numeral with its mark is one constant. -/
theorem tokens_hexadecimal (width n : Nat) (suffix : Suffix) :
    tokens ("0x" ++ Numeral.hexDigits width n ++ suffix.text) =
      [.constant n .hexadecimal suffix] := by
  have hne : Numeral.pad width (Nat.toDigits 16 n) ≠ [] :=
    List.append_ne_nil_of_right_ne_nil _ Nat.toDigits_ne_nil
  have hdigit : ∀ c ∈ Numeral.pad width (Nat.toDigits 16 n), Numeral.isHexDigit c = true := by
    intro c hc
    rcases List.mem_append.mp hc with hc | hc
    · rw [List.eq_of_mem_replicate hc]
      rfl
    · exact Numeral.isHexDigit_of_mem_toDigits (by decide) (by decide) hc
  have hspan := suffix.span_text hdigit rfl rfl
  have hword : ∀ c ∈ '0' :: 'x' :: (Numeral.pad width (Nat.toDigits 16 n) ++ suffix.text.toList),
      characterKind c = .word := by
    intro c hc
    rcases List.mem_cons.mp hc with rfl | hc
    · rfl
    rcases List.mem_cons.mp hc with rfl | hc
    · rfl
    rcases List.mem_append.mp hc with hc | hc
    · exact characterKind_of_isHexDigit (hdigit c hc)
    · exact Suffix.characterKind_of_mem_text hc
  rw [tokens_word (List.cons_ne_nil _ _) hword]
  · change [Token.ofDigits .hexadecimal
      ((Numeral.pad width (Nat.toDigits 16 n) ++ suffix.text.toList).takeWhile _)
      ((Numeral.pad width (Nat.toDigits 16 n) ++ suffix.text.toList).dropWhile _)] = _
    rw [hspan.1, hspan.2, Token.ofDigits_text .hexadecimal suffix hne, Radix.base,
      Numeral.ofDigits_pad, Numeral.ofDigits_toDigits (by decide) (by decide)]
  · rw [String.toList_append, String.toList_append, Numeral.toList_hexDigits]
    rfl

/-- The name of an integer register is one name. -/
theorem tokens_registerName {number : UInt8} (h : number.toNat < registerCount) :
    tokens (registerName number) = [.name (.register number)] := by
  have hall : ∀ i : Fin registerCount,
      tokens (registerName (.ofNat i)) = [.name (.register (.ofNat i))] := by decide
  have hnumber := hall ⟨number.toNat, h⟩
  rwa [UInt8.ofNat_toNat] at hnumber

/-- The name of a float register is a name and a member. -/
theorem tokens_floatRegisterName {number : UInt8} (h : number.toNat < registerCount) :
    tokens (floatRegisterName number) =
      [.name (.floatRegister number), .mark .dot, .name (.member .double)] := by
  have hall : ∀ i : Fin registerCount, tokens (floatRegisterName (.ofNat i)) =
      [.name (.floatRegister (.ofNat i)), .mark .dot, .name (.member .double)] := by decide
  have hnumber := hall ⟨number.toNat, h⟩
  rwa [UInt8.ofNat_toNat] at hnumber

/-- The name of a member is one name. -/
theorem tokens_memberName (part : Member) : tokens part.name = [.name (.member part)] := by
  cases part <;> rfl

end RandomMachine.Source
