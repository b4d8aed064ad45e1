import RandomMachine.Proofs.Source.Token

/-!
# Phrases of operand texts

The expressions of C that operand texts are, and a reader that finds them in the precedence of C:
members bind tighter than casts and signs, then comes the comparison, then `&`, then `^`. The text
of every operand, of every place and of every condition is read as the phrase it was meant to be.
-/

namespace RandomMachine.Source

/-- An operator between two operands. -/
inductive Operator
  | and
  | xor
  | atMost
  deriving DecidableEq, Repr

/-- Mark of an operator. -/
def Operator.mark : Operator → Mark
  | .and => .ampersand
  | .xor => .caret
  | .atMost => .atMost

/-- An expression of C, as far as operand texts go. -/
inductive Phrase
  | register (number : UInt8)
  | floatRegister (number : UInt8)
  /-- The variable that holds the address of operand A. -/
  | address
  | constant (value : Nat) (radix : Radix) (suffix : Suffix)
  /-- The macro that selects a cell of a window. -/
  | cell (window : Window) (address : Phrase)
  /-- A call of the function that reads DRAM. -/
  | readDram (address : Phrase)
  /-- A cell of which one member is given. -/
  | compound (part : Member) (value : Phrase)
  | member (object : Phrase) (part : Member)
  | cast (type : CType) (operand : Phrase)
  | negate (operand : Phrase)
  | binary (operator : Operator) (left right : Phrase)
  deriving DecidableEq, Repr

/-! ### Reading phrases -/

/-- Finds a phrase at the beginning of tokens, and the tokens behind it. -/
abbrev Reader := List Token → Option (Phrase × List Token)

/-- Reads a phrase that a closing mark follows. -/
def readEnclosed (inner : Reader) (close : Mark) (wrap : Phrase → Phrase) : Reader := fun tokens =>
  match inner tokens with
  | some (phrase, .mark found :: rest) => if found = close then some (wrap phrase, rest) else none
  | _ => none

/-- Reads a name, a constant, a call, a cell given by a member, or a phrase in parentheses. -/
def readPrimary (inner : Reader) : Reader
  | .name (.register number) :: rest => some (.register number, rest)
  | .name (.floatRegister number) :: rest => some (.floatRegister number, rest)
  | .name .address :: rest => some (.address, rest)
  | .constant value radix suffix :: rest => some (.constant value radix suffix, rest)
  | .name (.window window) :: .mark .openParenthesis :: rest =>
    readEnclosed inner .closeParenthesis (.cell window) rest
  | .name .readDram :: .mark .openParenthesis :: .mark .ampersand :: .name .cursor ::
      .mark .comma :: rest =>
    readEnclosed inner .closeParenthesis .readDram rest
  | .mark .openParenthesis :: .name (.type .cell) :: .mark .closeParenthesis ::
      .mark .openBrace :: .mark .dot :: .name (.member part) :: .mark .equals :: rest =>
    readEnclosed inner .closeBrace (.compound part) rest
  | .mark .openParenthesis :: rest => readEnclosed inner .closeParenthesis id rest
  | _ => none

/-- Reads the members that are taken of a phrase. -/
def readMembers (object : Phrase) : List Token → Phrase × List Token
  | .mark .dot :: .name (.member part) :: rest => readMembers (.member object part) rest
  | rest => (object, rest)

/-- Reads casts and signs in front of a phrase with its members. -/
def readUnary (inner : Reader) : Reader
  | .mark .openParenthesis :: .name (.type (.integer type)) :: .mark .closeParenthesis :: rest =>
    (readUnary inner rest).map fun (phrase, rest) => (.cast (.integer type) phrase, rest)
  | .mark .openParenthesis :: .name (.type .double) :: .mark .closeParenthesis :: rest =>
    (readUnary inner rest).map fun (phrase, rest) => (.cast .double phrase, rest)
  | .mark .minus :: rest =>
    (readUnary inner rest).map fun (phrase, rest) => (.negate phrase, rest)
  | tokens => (readPrimary inner tokens).map fun (phrase, rest) => readMembers phrase rest

/-- Reads further operands of an operator, which groups to the left. -/
def readChain (operand : Reader) (operator : Operator) :
    (fuel : Nat) → (left : Phrase) → Reader
  | fuel + 1, left, .mark mark :: rest =>
    if mark = operator.mark then
      (operand rest).bind fun (right, rest) =>
        readChain operand operator fuel (.binary operator left right) rest
    else some (left, .mark mark :: rest)
  | _, left, rest => some (left, rest)

/-- Reads the operands of an operator. -/
def readBinary (operand : Reader) (operator : Operator) (fuel : Nat) : Reader := fun tokens =>
  (operand tokens).bind fun (left, rest) => readChain operand operator fuel left rest

/-- Reads an expression. Every level of parentheses and every operator takes fuel and at least one
token, so there is enough of it when there is one unit for each token. -/
def readExpression : (fuel : Nat) → Reader
  | 0 => fun _ => none
  | fuel + 1 =>
    let unary := readUnary (readExpression fuel)
    readBinary (readBinary (readBinary unary .atMost (fuel + 1)) .and (fuel + 1)) .xor (fuel + 1)

/-- The phrase that all tokens are. -/
def readTokens (tokens : List Token) : Option Phrase :=
  match readExpression (tokens.length + 1) tokens with
  | some (phrase, []) => some phrase
  | _ => none

/-- The phrase that a text is. -/
def read (text : String) : Option Phrase := readTokens (tokens text)

/-- Whether an expression in front of these tokens must end where they begin. -/
def Ends (rest : List Token) : Prop :=
  rest = [] ∨ ∃ tail, rest = .mark .closeParenthesis :: tail ∨ rest = .mark .closeBrace :: tail

/-- No operator goes on where an expression must end. -/
theorem readChain_of_ends {rest : List Token} (h : Ends rest) (operand : Reader)
    (operator : Operator) (fuel : Nat) (left : Phrase) :
    readChain operand operator fuel left rest = some (left, rest) := by
  obtain rfl | ⟨tail, rfl | rfl⟩ := h
  · cases fuel <;> rfl
  · cases fuel <;> cases operator <;> rfl
  · cases fuel <;> cases operator <;> rfl

/-- A phrase without operators is an expression. -/
theorem readExpression_of_readUnary {fuel : Nat} {input rest : List Token} {phrase : Phrase}
    (h : readUnary (readExpression fuel) input = some (phrase, rest)) (hrest : Ends rest) :
    readExpression (fuel + 1) input = some (phrase, rest) := by
  simp only [readExpression, readBinary, h, Option.bind_some, readChain_of_ends hrest]

/-- Tokens of a phrase without operators are that phrase. -/
theorem readTokens_of_readUnary {tokens : List Token} {phrase : Phrase}
    (h : readUnary (readExpression tokens.length) tokens = some (phrase, [])) :
    readTokens tokens = some phrase := by
  rw [readTokens, readExpression_of_readUnary h (.inl rfl)]

/-- Two phrases without operators and one operator between them are an expression. -/
theorem readExpression_of_operator {fuel : Nat} {input middle rest : List Token}
    {left right : Phrase} (operator : Operator)
    (hleft : readUnary (readExpression fuel) input = some (left, .mark operator.mark :: middle))
    (hright : readUnary (readExpression fuel) middle = some (right, rest)) (hrest : Ends rest) :
    readExpression (fuel + 1) input = some (.binary operator left right, rest) := by
  cases operator <;>
    simp [readExpression, readBinary, readChain, Operator.mark, hleft, hright,
      readChain_of_ends hrest]

end RandomMachine.Source
