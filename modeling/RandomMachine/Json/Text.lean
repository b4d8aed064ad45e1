/-!
# JSON text

The lowest layer of reading JSON in one forward pass: blanks, fixed words and strings. A text is
refused either because it ends too early or because of a character that cannot stand where it is.
-/

namespace RandomMachine.Json

/-- Why a text is not JSON. -/
inductive FormFault
  /-- The text ends where something has to follow. -/
  | truncated
  /-- A character cannot stand where it is. -/
  | malformed
  deriving DecidableEq, Repr

/-- The four blanks of JSON. -/
def isBlank (c : Char) : Bool := c == ' ' || c == '\n' || c == '\t' || c == '\r'

/-- Drops leading blanks. -/
def skipBlanks (text : List Char) : List Char := text.dropWhile isBlank

/-- Reads the rest of a fixed word. -/
def readWord : (word text : List Char) → Except FormFault (List Char)
  | [], text => .ok text
  | _ :: _, [] => .error .truncated
  | w :: word, c :: text => if c = w then readWord word text else .error .malformed

/-- Reads the colon between a key and its value. -/
def readColon (text : List Char) : Except FormFault (List Char) :=
  match skipBlanks text with
  | [] => .error .truncated
  | c :: rest => if c = ':' then .ok rest else .error .malformed

/-- Value of a hexadecimal digit. -/
def hexValue? (c : Char) : Option Nat :=
  if '0' ≤ c ∧ c ≤ '9' then some (c.toNat - '0'.toNat)
  else if 'a' ≤ c ∧ c ≤ 'f' then some (c.toNat - 'a'.toNat + 10)
  else if 'A' ≤ c ∧ c ≤ 'F' then some (c.toNat - 'A'.toNat + 10)
  else none

/-- The character that a backslash and one more character stand for. -/
def shortEscape? : Char → Option Char
  | '"' => some '"'
  | '\\' => some '\\'
  | '/' => some '/'
  | 'b' => some '\x08'
  | 'f' => some '\x0c'
  | 'n' => some '\n'
  | 'r' => some '\r'
  | 't' => some '\t'
  | _ => none

/-- Whether a unit of sixteen bits is the first half of a surrogate pair. -/
def isHighSurrogate (unit : Nat) : Bool := decide (0xD800 ≤ unit ∧ unit < 0xDC00)

/-- Whether a unit of sixteen bits is the second half of a surrogate pair. -/
def isLowSurrogate (unit : Nat) : Bool := decide (0xDC00 ≤ unit ∧ unit < 0xE000)

/-- The character of a surrogate pair. -/
def ofSurrogates (high low : Nat) : Char :=
  Char.ofNat ((high - 0xD800) * 0x400 + (low - 0xDC00) + 0x10000)

/-- Where the reading of a string stands. -/
inductive StringState
  /-- Between characters. -/
  | plain
  /-- After a backslash. -/
  | escape
  /-- Before the digits of a unit, after the first half of a pair if there is one. -/
  | digits (left value : Nat) (high : Option Nat)
  /-- After the first half of a pair, before the backslash of the second one. -/
  | pairBackslash (high : Nat)
  /-- After the first half of a pair and a backslash. -/
  | pairMark (high : Nat)
  deriving DecidableEq, Repr

/-- A unit is written with four digits; a text with fewer than four bytes left ends too early. -/
def startUnit (high : Option Nat) (rest : List Char) : Except FormFault StringState :=
  if (rest.take 4).foldl (fun bytes c => bytes + c.utf8Size) 0 < 4 then .error .truncated
  else .ok (.digits 4 0 high)

/-- What a complete unit gives: a character, or the first half of a pair. Halves that do not meet
are refused. -/
def endUnit (unit : Nat) : (high : Option Nat) → Except FormFault (Char ⊕ Nat)
  | none =>
    if isLowSurrogate unit then .error .malformed
    else if isHighSurrogate unit then .ok (.inr unit)
    else .ok (.inl (.ofNat unit))
  | some high =>
    if isLowSurrogate unit then .ok (.inl (ofSurrogates high unit)) else .error .malformed

/-- Reads a string up to its closing quote, the characters read so far in reverse. -/
def readStringFrom (state : StringState) (reversed : List Char) :
    List Char → Except FormFault (String × List Char)
  | [] => .error .truncated
  | c :: rest =>
    match state with
    | .plain =>
      if c = '"' then .ok (String.ofList reversed.reverse, rest)
      else if c = '\\' then readStringFrom .escape reversed rest
      else if c < ' ' then .error .malformed
      else readStringFrom .plain (c :: reversed) rest
    | .escape =>
      if c = 'u' then
        match startUnit none rest with
        | .ok state => readStringFrom state reversed rest
        | .error fault => .error fault
      else
        match shortEscape? c with
        | some meant => readStringFrom .plain (meant :: reversed) rest
        | none => .error .malformed
    | .digits left value high =>
      match hexValue? c with
      | none => .error .malformed
      | some digit =>
        let value := 16 * value + digit
        if 1 < left then readStringFrom (.digits (left - 1) value high) reversed rest
        else
          match endUnit value high with
          | .error fault => .error fault
          | .ok (.inl meant) => readStringFrom .plain (meant :: reversed) rest
          | .ok (.inr high) => readStringFrom (.pairBackslash high) reversed rest
    | .pairBackslash high =>
      if c = '\\' then readStringFrom (.pairMark high) reversed rest else .error .malformed
    | .pairMark high =>
      if c = 'u' then
        match startUnit (some high) rest with
        | .ok state => readStringFrom state reversed rest
        | .error fault => .error fault
      else .error .malformed

/-- Reads a string after its opening quote. -/
def readString (text : List Char) : Except FormFault (String × List Char) :=
  readStringFrom .plain [] text

end RandomMachine.Json
