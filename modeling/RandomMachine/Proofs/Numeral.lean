import RandomMachine.Numeral

/-!
# Values of numerals

A run of digits has a value in every base up to sixteen. Printing a number and taking the value of
what was printed gives the number back, so two numbers with one text are equal.
-/

namespace RandomMachine.Numeral

/-- Value of a digit. The letters, of either case, continue the ten decimal digits. -/
def digitValue (c : Char) : Nat :=
  if c.isDigit then c.toNat - '0'.toNat
  else if c.isLower then c.toNat - 'a'.toNat + 10
  else c.toNat - 'A'.toNat + 10

/-- Whether a character is a hexadecimal digit, of either case. -/
def isHexDigit (c : Char) : Bool :=
  c.isDigit || ('a' ≤ c && c ≤ 'f') || ('A' ≤ c && c ≤ 'F')

/-- Value of a run of digits in a base, the most significant one first. -/
def ofDigits (base : Nat) (digits : List Char) : Nat :=
  digits.foldl (fun value c => base * value + digitValue c) 0

/-- One more digit at the end scales the value and adds to it. -/
theorem ofDigits_concat (base : Nat) (digits : List Char) (c : Char) :
    ofDigits base (digits ++ [c]) = base * ofDigits base digits + digitValue c := by
  rw [ofDigits, List.foldl_append]
  rfl

/-- The character of a digit has the value of the digit. -/
theorem digitValue_digitChar {k : Nat} (h : k < 16) : digitValue k.digitChar = k := by
  have hall : ∀ i : Fin 16, digitValue (Nat.digitChar i) = i := by decide
  exact hall ⟨k, h⟩

/-- The characters of digits are hexadecimal digits. -/
theorem isHexDigit_digitChar {k : Nat} (h : k < 16) : isHexDigit k.digitChar = true := by
  have hall : ∀ i : Fin 16, isHexDigit (Nat.digitChar i) = true := by decide
  exact hall ⟨k, h⟩

section Digits

variable {base : Nat} (low : 1 < base) (high : base ≤ 16)
include low high

/-- The digits of a number have the number as their value. -/
theorem ofDigits_toDigits (n : Nat) : ofDigits base (Nat.toDigits base n) = n := by
  induction n using Nat.strongRecOn with
  | _ n ih =>
    by_cases h : n < base
    · rw [Nat.toDigits_of_lt_base h]
      change base * 0 + digitValue n.digitChar = n
      rw [digitValue_digitChar (by omega)]
      omega
    · have hmod := Nat.mod_lt n (by omega : base > 0)
      rw [Nat.toDigits_of_base_le low (by omega), ofDigits_concat,
        ih (n / base) (Nat.div_lt_self (by omega) low), digitValue_digitChar (by omega)]
      exact Nat.div_add_mod n base

/-- All digits of a number are hexadecimal digits. -/
theorem isHexDigit_of_mem_toDigits {n : Nat} {c : Char} (h : c ∈ Nat.toDigits base n) :
    isHexDigit c = true := by
  induction n using Nat.strongRecOn with
  | _ n ih =>
    by_cases hlt : n < base
    · rw [Nat.toDigits_of_lt_base hlt, List.mem_singleton] at h
      rw [h]
      exact isHexDigit_digitChar (by omega)
    · have hmod := Nat.mod_lt n (by omega : base > 0)
      rw [Nat.toDigits_of_base_le low (by omega), List.mem_append, List.mem_singleton] at h
      rcases h with h | h
      · exact ih (n / base) (Nat.div_lt_self (by omega) low) h
      · rw [h]
        exact isHexDigit_digitChar (by omega)

/-- No number but zero has a leading zero. -/
theorem head?_toDigits_ne_zero {n : Nat} (h : n ≠ 0) :
    (Nat.toDigits base n).head? ≠ some '0' := by
  induction n using Nat.strongRecOn with
  | _ n ih =>
    by_cases hlt : n < base
    · rw [Nat.toDigits_of_lt_base hlt]
      intro hzero
      exact h (Nat.digitChar_eq_zero.mp (Option.some.inj hzero))
    · have hpos : n / base ≠ 0 := by
        have := Nat.div_pos (by omega : base ≤ n) (by omega)
        omega
      have hrest := ih (n / base) (Nat.div_lt_self (by omega) low) hpos
      obtain ⟨c, rest, hcons⟩ := List.exists_cons_of_ne_nil (Nat.toDigits_ne_nil (b := base))
      rw [hcons] at hrest
      rw [Nat.toDigits_of_base_le low (by omega), hcons]
      exact hrest

end Digits

/-- Zeros in front do not change the value. -/
theorem ofDigits_pad (base width : Nat) (digits : List Char) :
    ofDigits base (pad width digits) = ofDigits base digits := by
  have hzeros : ∀ count, (List.replicate count '0').foldl
      (fun value c => base * value + digitValue c) 0 = 0 := by
    intro count
    induction count with
    | zero => rfl
    | succ count ih =>
      rw [List.replicate_succ, List.foldl_cons]
      exact ih
  rw [pad, ofDigits, List.foldl_append, hzeros]
  rfl

/-- The characters of a decimal text. -/
theorem toList_decimal (n : Nat) : (decimal n).toList = Nat.toDigits 10 n := String.toList_ofList

/-- The characters of a hexadecimal text. -/
theorem toList_hexDigits (width n : Nat) :
    (hexDigits width n).toList = pad width (Nat.toDigits 16 n) := String.toList_ofList

/-- Numbers with one decimal text are equal. -/
theorem decimal_inj {m n : Nat} (h : decimal m = decimal n) : m = n := by
  have hdigits : Nat.toDigits 10 m = Nat.toDigits 10 n := by
    rw [← toList_decimal, ← toList_decimal, h]
  rw [← ofDigits_toDigits (by decide : 1 < 10) (by decide) m, hdigits,
    ofDigits_toDigits (by decide) (by decide)]

end RandomMachine.Numeral
