import RandomMachine.Proofs.Source.Phrase

/-!
# Reading operand texts

Printing an expression and reading its text gives the phrase of the expression, so no text of an
operand, a place or a condition can be taken for another one. Registers must have a number that
the register files know.
-/

namespace RandomMachine.Source

/-! ### Phrases of operands -/

/-- The phrase of a cell that operand A is read from. -/
def sourcePhrase : SourceA → Phrase
  | .dram => .readDram .address
  | .scratchpad window => .cell window .address

/-- The phrase of an expression. -/
def Expression.phrase : Expression SourceA → Phrase
  | .member cell part => .member (sourcePhrase cell) part
  | .register number => .register number
  | .floatRegister number => .member (.floatRegister number) .double
  | .toDouble operand => .cast .double operand.phrase
  | .toInt64 operand => .cast (.integer .int64) operand.phrase
  | .lowSixBits operand => .binary .and operand.phrase (.constant 63 .decimal .int)
  | .literal value suffix =>
    if value < 0 then .negate (.constant value.natAbs .decimal suffix)
    else .constant value.natAbs .decimal suffix
  | .doubleOfBits bits =>
    .member (.compound .uint64 (.constant bits.toNat .hexadecimal .unsignedLongLong)) .double

/-- The phrase of a place. -/
def Place.phrase : Place → Phrase
  | .register number => .register number
  | .floatRegister number => .member (.floatRegister number) .double
  | .cell window base address part =>
    .member (.cell window
      (.binary .xor (.register base) (.constant address.toNat .decimal .unsigned))) part

/-- The phrase of a condition. -/
def Condition.phrase (condition : Condition) : Phrase :=
  .binary .atMost (.cast (.integer .uint32) (.register condition.register))
    (.constant condition.bound.toNat .decimal .unsigned)

/-- Whether all registers of an expression exist. -/
def Expression.InRange {Cell : Type} : Expression Cell → Prop
  | .member .. | .literal .. | .doubleOfBits _ => True
  | .register number | .floatRegister number => number.toNat < registerCount
  | .toDouble operand | .toInt64 operand | .lowSixBits operand => operand.InRange

/-- Whether the register of a place exists. -/
def Place.InRange : Place → Prop
  | .register number | .floatRegister number | .cell _ number _ _ => number.toNat < registerCount

/-! ### Tokens of operands -/

/-- The tokens of a cell that operand A is read from. -/
def sourceTokens : SourceA → List Token
  | .dram =>
    [.name .readDram, .mark .openParenthesis, .mark .ampersand, .name .cursor, .mark .comma,
      .name .address, .mark .closeParenthesis]
  | .scratchpad window =>
    [.name (.window window), .mark .openParenthesis, .name .address, .mark .closeParenthesis]

/-- A type in parentheses. -/
def castTokens (type : CType) : List Token :=
  [.mark .openParenthesis, .name (.type type), .mark .closeParenthesis]

/-- The tokens of a cell of which one member is given. -/
def compoundTokens (part : Member) (value : Token) : List Token :=
  castTokens .cell ++
    [.mark .openBrace, .mark .dot, .name (.member part), .mark .equals, value, .mark .closeBrace]

/-- The tokens of an expression. -/
def Expression.tokens : Expression SourceA → List Token
  | .member cell part => sourceTokens cell ++ [.mark .dot, .name (.member part)]
  | .register number => [.name (.register number)]
  | .floatRegister number =>
    [.name (.floatRegister number), .mark .dot, .name (.member .double)]
  | .toDouble operand => castTokens .double ++ operand.tokens
  | .toInt64 operand => castTokens (.integer .int64) ++ operand.tokens
  | .lowSixBits operand =>
    .mark .openParenthesis :: operand.tokens ++
      [.mark .ampersand, .constant 63 .decimal .int, .mark .closeParenthesis]
  | .literal value suffix =>
    if value < 0 then [.mark .minus, .constant value.natAbs .decimal suffix]
    else [.constant value.natAbs .decimal suffix]
  | .doubleOfBits bits =>
    .mark .openParenthesis ::
      compoundTokens .uint64 (.constant bits.toNat .hexadecimal .unsignedLongLong) ++
      [.mark .closeParenthesis, .mark .dot, .name (.member .double)]

/-- The last character of a text that is put together is that of its second part. -/
theorem getLast?_toList_append (first : String) {second : String} {c : Char}
    (h : second.toList.getLast? = some c) : (first ++ second).toList.getLast? = some c := by
  rw [String.toList_append, List.getLast?_append, h]
  rfl

/-- A member of a cell, once the tokens of the cell are known. -/
theorem tokens_memberText (cell : String) (part : Member) :
    Source.tokens (memberText cell part) =
      Source.tokens cell ++ [.mark .dot, .name (.member part)] := by
  have hdot : Source.tokens "." = [.mark .dot] := by decide
  rw [memberText, tokens_append, tokens_append_of_head, tokens_memberName, hdot,
    List.append_assoc]
  · rfl
  · decide
  · rw [getLast?_toList_append cell (c := '.') (by decide)]
    rfl

/-- The text of a cell that operand A is read from has the tokens of the cell. -/
theorem tokens_sourceText (cell : SourceA) :
    Source.tokens (sourceText cell) = sourceTokens cell := by
  have hall : ∀ window, Source.tokens (sourceText (.scratchpad window)) =
      sourceTokens (.scratchpad window) := by
    intro window
    cases window <;> decide
  cases cell with
  | dram => decide
  | scratchpad window => exact hall window

/-- A sign is a mark of its own in front of a numeral. -/
theorem tokens_minus (n : Nat) (suffix : Suffix) :
    Source.tokens ("-" ++ Numeral.decimal n ++ suffix.text) =
      [.mark .minus, .constant n .decimal suffix] := by
  rw [String.append_assoc, tokens_append_of_not_joins, tokens_decimal]
  · rfl
  · intro c hc next hnext
    have hminus : c = '-' := (Option.some.inj hc).symm
    obtain ⟨digit, rest, hcons⟩ :=
      List.exists_cons_of_ne_nil (Nat.toDigits_ne_nil (b := 10) (n := n))
    have hkind : characterKind digit = .word :=
      characterKind_of_isHexDigit
        (Numeral.isHexDigit_of_mem_toDigits (by decide : 1 < 10) (by decide)
          (by rw [hcons]; exact List.mem_cons_self))
    rw [String.toList_append, Numeral.toList_decimal, hcons] at hnext
    have hdigit : next = digit := (Option.some.inj hnext).symm
    rw [hminus, hdigit, joins, hkind]
    rfl

/-- A literal of a double has a hexadecimal numeral between fixed texts. -/
theorem text_doubleOfBits {Cell : Type} (cellText : Cell → String) (bits : UInt64) :
    (Expression.doubleOfBits bits).text cellText =
      "((convertible_t)\x7b .u64 = " ++
        ("0x" ++ Numeral.hexDigits 16 bits.toNat ++ Suffix.unsignedLongLong.text) ++
        " \x7d).f64" := by
  have hstart : "((convertible_t)\x7b .u64 = 0x" = "((convertible_t)\x7b .u64 = " ++ "0x" := by
    decide
  have hend : "ULL \x7d).f64" = Suffix.unsignedLongLong.text ++ " \x7d).f64" := by decide
  change "((convertible_t)\x7b .u64 = 0x" ++ Numeral.hexDigits 16 bits.toNat ++
    "ULL \x7d).f64" = _
  rw [hstart, hend]
  simp only [String.append_assoc]

/-- The text of an expression has the tokens of the expression. -/
theorem Expression.tokens_text {operand : Expression SourceA} (h : operand.InRange) :
    Source.tokens (operand.text sourceText) = operand.tokens := by
  induction operand with
  | member cell part =>
    change Source.tokens (memberText (sourceText cell) part) = _
    rw [tokens_memberText, tokens_sourceText]
    rfl
  | register number => exact tokens_registerName h
  | floatRegister number => exact tokens_floatRegisterName h
  | toDouble operand ih =>
    have hcast : Source.tokens "(double)" = castTokens .double := by decide
    change Source.tokens ("(double)" ++ operand.text sourceText) = _
    rw [tokens_append (by decide), hcast, ih h]
    rfl
  | toInt64 operand ih =>
    have hcast : Source.tokens "(int64_t)" = castTokens (.integer .int64) := by decide
    change Source.tokens ("(int64_t)" ++ operand.text sourceText) = _
    rw [tokens_append (by decide), hcast, ih h]
    rfl
  | lowSixBits operand ih =>
    have hend : Source.tokens " & 63)" =
        [.mark .ampersand, .constant 63 .decimal .int, .mark .closeParenthesis] := by decide
    change Source.tokens ("(" ++ operand.text sourceText ++ " & 63)") = _
    rw [tokens_append_of_head (by decide), tokens_append (by decide), ih h, hend]
    rfl
  | literal value suffix =>
    change Source.tokens (Numeral.signed value ++ suffix.text) = _
    rw [Numeral.signed, Expression.tokens]
    split
    · exact tokens_minus _ _
    · exact tokens_decimal _ _
  | doubleOfBits bits =>
    have hstart : Source.tokens "((convertible_t)\x7b .u64 = " =
        [.mark .openParenthesis] ++ castTokens .cell ++
          [.mark .openBrace, .mark .dot, .name (.member .uint64), .mark .equals] := by decide
    have hend : Source.tokens " \x7d).f64" =
        [.mark .closeBrace, .mark .closeParenthesis, .mark .dot, .name (.member .double)] := by
      decide
    rw [text_doubleOfBits, tokens_append_of_head (by decide), tokens_append (by decide),
      tokens_hexadecimal, hstart, hend]
    rfl

/-! ### Phrases from tokens -/

/-- No member is taken where no dot follows. -/
theorem readMembers_of_head {rest : List Token} (h : rest.head? ≠ some (.mark .dot))
    (object : Phrase) : readMembers object rest = (object, rest) := by
  unfold readMembers
  split
  · exact absurd rfl h
  · rfl

/-- Levels of parentheses and brackets in an expression. -/
def Expression.depth : Expression SourceA → Nat
  | .register _ | .floatRegister _ | .literal .. => 0
  | .member .. => 1
  | .doubleOfBits _ => 2
  | .toDouble operand | .toInt64 operand => operand.depth
  | .lowSixBits operand => operand.depth + 1

/-- The variable of the address is an expression. -/
theorem readExpression_address (fuel : Nat) (rest : List Token) :
    readExpression (fuel + 1) (.name .address :: .mark .closeParenthesis :: rest) =
      some (.address, .mark .closeParenthesis :: rest) :=
  readExpression_of_readUnary rfl (.inr ⟨rest, .inl rfl⟩)

/-- A cell that operand A is read from, with a member, is read in front of anything. -/
theorem readUnary_member (cell : SourceA) (part : Member) (fuel : Nat) (rest : List Token) :
    readUnary (readExpression (fuel + 1))
        (sourceTokens cell ++ .mark .dot :: .name (.member part) :: rest) =
      some (readMembers (.member (sourcePhrase cell) part) rest) := by
  cases cell with
  | dram =>
    change (readEnclosed (readExpression (fuel + 1)) .closeParenthesis .readDram
      (.name .address :: .mark .closeParenthesis :: .mark .dot ::
        .name (.member part) :: rest)).map _ = _
    rw [readEnclosed, readExpression_address]
    rfl
  | scratchpad window =>
    change (readEnclosed (readExpression (fuel + 1)) .closeParenthesis (.cell window)
      (.name .address :: .mark .closeParenthesis :: .mark .dot ::
        .name (.member part) :: rest)).map _ = _
    rw [readEnclosed, readExpression_address]
    rfl

/-- No expression begins with the name of a type. -/
theorem Expression.head?_tokens_ne_type (operand : Expression SourceA) (rest : List Token)
    (type : CType) : (operand.tokens ++ rest).head? ≠ some (.name (.type type)) := by
  cases operand with
  | member cell part => cases cell <;> simp [Expression.tokens, sourceTokens]
  | literal value suffix =>
    rw [Expression.tokens]
    split <;> simp
  | _ => simp [Expression.tokens, castTokens]

/-- A parenthesis that no type follows encloses a phrase. -/
theorem readUnary_parenthesis (inner : Reader) {input : List Token}
    (h : ∀ type, input.head? ≠ some (.name (.type type))) :
    readUnary inner (.mark .openParenthesis :: input) =
      (readEnclosed inner .closeParenthesis id input).map fun p => readMembers p.1 p.2 := by
  cases input with
  | nil => rfl
  | cons token input =>
    cases token with
    | name name =>
      cases name with
      | type type => exact absurd rfl (h type)
      | _ => rfl
    | _ => rfl

/-- A cell of which one member is given by a constant is read in front of a parenthesis. -/
theorem readUnary_compound (part : Member) (value : Nat) (radix : Radix) (suffix : Suffix)
    (fuel : Nat) (rest : List Token) :
    readUnary (readExpression (fuel + 1))
        (compoundTokens part (.constant value radix suffix) ++ .mark .closeParenthesis :: rest) =
      some (.compound part (.constant value radix suffix), .mark .closeParenthesis :: rest) := by
  have hvalue (tail : List Token) : readExpression (fuel + 1)
      (.constant value radix suffix :: .mark .closeBrace :: tail) =
      some (.constant value radix suffix, .mark .closeBrace :: tail) :=
    readExpression_of_readUnary rfl (.inr ⟨tail, .inr rfl⟩)
  change (readEnclosed (readExpression (fuel + 1)) .closeBrace (.compound part)
    (.constant value radix suffix :: .mark .closeBrace ::
      .mark .closeParenthesis :: rest)).map _ = _
  rw [readEnclosed, hvalue]
  rfl

/-- An expression is found at the beginning of its tokens, unless a member of it is taken. -/
theorem Expression.readUnary_tokens (operand : Expression SourceA) {fuel : Nat}
    (hfuel : operand.depth ≤ fuel) {rest : List Token}
    (hrest : rest.head? ≠ some (.mark .dot)) :
    readUnary (readExpression fuel) (operand.tokens ++ rest) = some (operand.phrase, rest) := by
  induction operand generalizing fuel rest with
  | member cell part =>
    obtain ⟨fuel, rfl⟩ := Nat.exists_eq_add_of_le' hfuel
    rw [Expression.tokens, List.append_assoc]
    exact (readUnary_member cell part fuel rest).trans
      (congrArg some (readMembers_of_head hrest _))
  | register number => exact congrArg some (readMembers_of_head hrest _)
  | floatRegister number => exact congrArg some (readMembers_of_head hrest _)
  | toDouble operand ih =>
    change (readUnary (readExpression fuel) (operand.tokens ++ rest)).map _ = _
    rw [ih hfuel hrest]
    rfl
  | toInt64 operand ih =>
    change (readUnary (readExpression fuel) (operand.tokens ++ rest)).map _ = _
    rw [ih hfuel hrest]
    rfl
  | lowSixBits operand ih =>
    obtain ⟨fuel, rfl⟩ := Nat.exists_eq_add_of_le' (Nat.le_of_add_left_le hfuel)
    have hinner : readExpression (fuel + 1) (operand.tokens ++ .mark .ampersand ::
        .constant 63 .decimal .int :: .mark .closeParenthesis :: rest) =
        some (.binary .and operand.phrase (.constant 63 .decimal .int),
          .mark .closeParenthesis :: rest) :=
      readExpression_of_operator .and (ih (Nat.le_of_succ_le_succ hfuel) (by simp)) rfl
        (.inr ⟨rest, .inl rfl⟩)
    rw [Expression.tokens, List.cons_append, List.cons_append, List.append_assoc,
      readUnary_parenthesis _ (operand.head?_tokens_ne_type _)]
    change (readEnclosed _ _ _ (operand.tokens ++ .mark .ampersand ::
      .constant 63 .decimal .int :: .mark .closeParenthesis :: rest)).map _ = _
    rw [readEnclosed, hinner]
    exact congrArg some (readMembers_of_head hrest _)
  | literal value suffix =>
    rw [Expression.tokens, Expression.phrase]
    split
    · change ((some (readMembers _ rest)).map fun p => (Phrase.negate p.1, p.2)) = _
      rw [readMembers_of_head hrest]
      rfl
    · exact congrArg some (readMembers_of_head hrest _)
  | doubleOfBits bits =>
    obtain ⟨fuel, rfl⟩ := Nat.exists_eq_add_of_le' hfuel
    change (readEnclosed (readExpression (fuel + 2)) .closeParenthesis id
      (compoundTokens .uint64 (.constant bits.toNat .hexadecimal .unsignedLongLong) ++
        .mark .closeParenthesis :: .mark .dot :: .name (.member .double) :: rest)).map _ = _
    rw [readEnclosed, readExpression_of_readUnary (readUnary_compound _ _ _ _ _ _)
      (.inr ⟨_, .inl rfl⟩)]
    exact congrArg some (readMembers_of_head hrest _)

/-- Every level of an expression has a token. -/
theorem Expression.depth_le_length (operand : Expression SourceA) :
    operand.depth ≤ operand.tokens.length := by
  induction operand with
  | member cell part =>
    rw [Expression.tokens, List.length_append]
    exact Nat.le_trans (by decide : 1 ≤ 2) (Nat.le_add_left 2 _)
  | literal value suffix => exact Nat.zero_le _
  | register number => exact Nat.zero_le _
  | floatRegister number => exact Nat.zero_le _
  | toDouble operand ih =>
    rw [Expression.tokens, List.length_append]
    exact Nat.le_trans ih (Nat.le_add_left _ _)
  | toInt64 operand ih =>
    rw [Expression.tokens, List.length_append]
    exact Nat.le_trans ih (Nat.le_add_left _ _)
  | lowSixBits operand ih =>
    simp only [Expression.tokens, Expression.depth, List.length_append, List.length_cons]
    omega
  | doubleOfBits bits =>
    simp only [Expression.tokens, Expression.depth, compoundTokens, castTokens,
      List.length_append, List.length_cons]
    omega

/-! ### Phrases from texts -/

/-- The text of an expression is read as the phrase of the expression. -/
theorem read_text {operand : Expression SourceA} (h : operand.InRange) :
    read (operand.text sourceText) = some operand.phrase := by
  have htokens : readUnary (readExpression operand.tokens.length) (operand.tokens ++ []) =
      some (operand.phrase, []) :=
    operand.readUnary_tokens operand.depth_le_length (by simp)
  rw [List.append_nil] at htokens
  rw [read, Expression.tokens_text h]
  exact readTokens_of_readUnary htokens

/-- A decimal constant is a token of its own behind a bracket or blank. -/
theorem tokens_append_decimal {first : String} (h : first.toList.getLast?.any breaks = true)
    (n : Nat) (suffix : Suffix) :
    tokens (first ++ Numeral.decimal n ++ suffix.text) =
      tokens first ++ [.constant n .decimal suffix] := by
  rw [String.append_assoc, tokens_append h, tokens_decimal]

/-- The tokens of the cell that a result is assigned to. -/
def placeTokens (window : Window) (base : UInt8) (address : UInt32) : List Token :=
  [.name (.window window), .mark .openParenthesis, .name (.register base), .mark .caret,
    .constant address.toNat .decimal .unsigned, .mark .closeParenthesis]

/-- The text of the cell that a result is assigned to has the tokens of the cell. -/
theorem tokens_placeText {window : Window} {base : UInt8} {address : UInt32}
    (h : base.toNat < registerCount) :
    tokens (windowMacro window ++ "(" ++ registerName base ++ " ^ " ++
      Numeral.decimal address.toNat ++ "U)") = placeTokens window base address := by
  have hwindow : tokens (windowMacro window ++ "(") =
      [.name (.window window), .mark .openParenthesis] := by
    cases window <;> decide
  have hmark : tokens " ^ " = [.mark .caret] := by decide
  have hclose : tokens ")" = [.mark .closeParenthesis] := by decide
  rw [show "U)" = Suffix.unsigned.text ++ ")" by decide, ← String.append_assoc,
    tokens_append_of_head (by decide), tokens_append_decimal, tokens_append_of_head (by decide),
    tokens_append, tokens_registerName h, hwindow, hmark, hclose]
  · rfl
  · rw [getLast?_toList_append _ (c := '(') (by decide)]
    decide
  · rw [getLast?_toList_append _ (c := ' ') (by decide)]
    decide

/-- The text of a place is read as the phrase of the place. -/
theorem read_placeText {place : Place} (h : place.InRange) :
    read place.text = some place.phrase := by
  cases place with
  | register number => exact @read_text (.register number) h
  | floatRegister number => exact @read_text (.floatRegister number) h
  | cell window base address part =>
    have hcell (fuel : Nat) (rest : List Token) : readExpression (fuel + 1)
        (.name (.register base) :: .mark .caret ::
          .constant address.toNat .decimal .unsigned :: .mark .closeParenthesis :: rest) =
        some (.binary .xor (.register base) (.constant address.toNat .decimal .unsigned),
          .mark .closeParenthesis :: rest) :=
      readExpression_of_operator .xor rfl rfl (.inr ⟨rest, .inl rfl⟩)
    have hread : readUnary (readExpression 8)
        (placeTokens window base address ++ [.mark .dot, .name (.member part)]) =
        some ((Place.cell window base address part).phrase, []) := by
      change (readEnclosed (readExpression 8) .closeParenthesis (.cell window)
        (.name (.register base) :: .mark .caret ::
          .constant address.toNat .decimal .unsigned :: .mark .closeParenthesis ::
          [.mark .dot, .name (.member part)])).map _ = _
      rw [readEnclosed, hcell]
      rfl
    rw [read, Place.text, tokens_memberText, tokens_placeText h]
    exact readTokens_of_readUnary hread

/-- The text of a condition is read as the phrase of the condition. -/
theorem read_conditionText {condition : Condition}
    (h : condition.register.toNat < registerCount) :
    read condition.text = some condition.phrase := by
  have htokens : tokens condition.text = castTokens (.integer .uint32) ++
      [.name (.register condition.register), .mark .atMost,
        .constant condition.bound.toNat .decimal .unsigned] := by
    have hcast : tokens "(uint32_t)" = castTokens (.integer .uint32) := by decide
    have hmark : tokens " <= " = [.mark .atMost] := by decide
    change tokens ("(uint32_t)" ++ registerName condition.register ++ " <= " ++
      Numeral.decimal condition.bound.toNat ++ Suffix.unsigned.text) = _
    rw [tokens_append_decimal, tokens_append_of_head (by decide), tokens_append (by decide),
      tokens_registerName h, hcast, hmark]
    · rfl
    · rw [getLast?_toList_append _ (c := ' ') (by decide)]
      decide
  rw [read, htokens, readTokens, readExpression_of_operator .atMost rfl rfl (.inl rfl)]
  rfl

end RandomMachine.Source
