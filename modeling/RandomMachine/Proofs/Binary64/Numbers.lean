import RandomMachine.Proofs.Binary64.Arithmetic

/-!
# Operations on numbers

What an operation makes of its operands, before anything is said about rounding. A NaN operand is
handed on, an invalid operation returns the default NaN, and a valid one returns an infinity, a zero
or a nearest result that each mode completes. Results are numbers whatever their residuals are.
-/

namespace RandomMachine.Binary64

/-! ### Invalid operations -/

/-- Infinities of opposite signs have no sum. -/
def InvalidSum (x y : Binary64) : Prop :=
  x.isInfinite = true ∧ y.isInfinite = true ∧ x.isNegative ≠ y.isNegative

/-- Infinities of one sign have no difference. -/
def InvalidDifference (x y : Binary64) : Prop :=
  x.isInfinite = true ∧ y.isInfinite = true ∧ x.isNegative = y.isNegative

/-- A zero and an infinity have no product. -/
def InvalidProduct (x y : Binary64) : Prop :=
  x.isZero = true ∧ y.isInfinite = true ∨ x.isInfinite = true ∧ y.isZero = true

/-- Two zeros have no quotient, and neither have two infinities. -/
def InvalidQuotient (x y : Binary64) : Prop :=
  x.isZero = true ∧ y.isZero = true ∨ x.isInfinite = true ∧ y.isInfinite = true

/-! ### Kinds of doubles -/

section Kinds

variable {x y : Binary64}

/-- The infinity of either sign. -/
theorem isInfinite_ofMagnitude (negative : Bool) :
    (ofMagnitude negative infinityMagnitude).isInfinite = true := by
  cases negative <;> rfl

/-- Setting the quiet bit does not shrink the magnitude. -/
theorem magnitude_le_magnitude_quiet (x : Binary64) : x.magnitude ≤ x.quiet.magnitude := by
  have hweight : signWeight = 2 ^ 63 := by decide
  rw [magnitude, magnitude, quiet, UInt64.toNat_or, hweight, Nat.or_mod_two_pow]
  exact Nat.left_le_or

/-- A NaN that is made quiet is a NaN. -/
theorem isNaN_quiet (h : x.isNaN = true) : x.quiet.isNaN = true :=
  decide_eq_true ((of_decide_eq_true h).trans_le x.magnitude_le_magnitude_quiet)

/-- Two numbers hand no NaN on. -/
theorem operandNaN_eq_none (hx : x.isNaN = false) (hy : y.isNaN = false) :
    operandNaN x y = none := by
  rw [operandNaN, hx, hy]
  rfl

/-- Operands from which no NaN is handed on are numbers. -/
theorem isNaN_of_operandNaN_eq_none (h : operandNaN x y = none) :
    x.isNaN = false ∧ y.isNaN = false := by
  unfold operandNaN at h
  cases hx : x.isNaN with
  | true => rw [hx, if_pos rfl] at h; cases h
  | false =>
    cases hy : y.isNaN with
    | true => rw [hx, hy, if_neg Bool.false_ne_true, if_pos rfl] at h; cases h
    | false => exact ⟨rfl, rfl⟩

/-- A NaN that is handed on is an operand, made quiet. -/
theorem exists_quiet_of_operandNaN {nan : Binary64} (h : operandNaN x y = some nan) :
    ∃ z : Binary64, z.isNaN = true ∧ nan = z.quiet := by
  unfold operandNaN at h
  split at h
  · next hx => exact ⟨x, hx, (Option.some.inj h).symm⟩
  · split at h
    · next hy => exact ⟨y, hy, (Option.some.inj h).symm⟩
    · cases h

/-- The sign of the second operand makes no NaN. -/
theorem operandNaN_neg_eq_none (h : operandNaN x y = none) : operandNaN x y.neg = none := by
  obtain ⟨hx, hy⟩ := isNaN_of_operandNaN_eq_none h
  exact operandNaN_eq_none hx ((kind_neg y).1.trans hy)

/-- Infinities are numbers. -/
theorem isNaN_of_isInfinite (h : x.isInfinite = true) : x.isNaN = false :=
  isNaN_eq_false_iff.mpr (isInfinite_iff.mp h).le

/-- Zeros are numbers. -/
theorem isNaN_of_isZero (h : x.isZero = true) : x.isNaN = false :=
  isNaN_eq_false_iff.mpr (by rw [isZero_iff.mp h]; exact Nat.zero_le _)

/-- Infinities are not zeros. -/
theorem isZero_of_isInfinite (h : x.isInfinite = true) : x.isZero = false := by
  have hpos : 0 < infinityMagnitude := by decide
  have hinfinite := isInfinite_iff.mp h
  refine Bool.eq_false_iff.mpr fun hzero => ?_
  rw [isZero_iff.mp hzero] at hinfinite
  exact hpos.ne hinfinite

/-- A number that is not an infinity is finite. -/
theorem isFinite_of_isInfinite_eq_false (h : x.isNaN = false) (hx : x.isInfinite = false) :
    x.isFinite = true := by
  have hle := isNaN_eq_false_iff.mp h
  have hne := mt isInfinite_iff.mpr (Bool.eq_false_iff.mp hx)
  exact isFinite_iff.mpr (lt_of_le_of_ne hle hne)

/-- A double without its sign is a NaN when it is one with its sign. -/
theorem isNaN_abs (x : Binary64) : x.abs.isNaN = x.isNaN := by
  rw [isNaN, isNaN, magnitude_abs]

/-- The next double is a number. -/
theorem isNaN_nextUp (h : x.isNaN = false) : x.nextUp.isNaN = false := by
  have hle := isNaN_eq_false_iff.mp h
  by_cases hmax : x.order < infinityMagnitude
  · have := (order_nextUp (by omega) hmax).1
    exact isNaN_eq_false_iff.mpr (by omega)
  · -- Positive infinity stays where it is.
    have hpos : 0 < infinityMagnitude := by decide
    have hinfinite : x.isInfinite = true := isInfinite_iff.mpr (by omega)
    have hzero : x.isZero = false := Bool.eq_false_iff.mpr fun hzero => by
      have := isZero_iff.mp hzero
      omega
    have hsign : x.isNegative = false := by
      rcases x.order_eq_or with ⟨-, horder⟩ | ⟨hsign, -⟩
      · omega
      · exact hsign
    rw [nextUp, h, hzero, hsign, hinfinite]
    exact h

/-- The previous double is a number. -/
theorem isNaN_nextDown (h : x.isNaN = false) : x.nextDown.isNaN = false := by
  rw [nextDown, (kind_neg _).1]
  exact isNaN_nextUp ((kind_neg x).1.trans h)

/-- A number is moved to a number. -/
theorem isNaN_adjust (mode : RoundingMode) (h : x.isNaN = false) (residual : Ordering) :
    (mode.adjust x residual).isNaN = false := by
  unfold RoundingMode.adjust
  split
  · exact isNaN_nextDown h
  · exact isNaN_nextUp h
  · split
    · exact h
    · exact isNaN_nextDown h
  · split
    · exact isNaN_nextUp h
    · exact h
  · exact h

/-- A number is flushed to a number. -/
theorem isNaN_flush (h : x.isNaN = false) : x.flush.isNaN = false := by
  unfold flush
  split
  · exact isNaN_of_isZero (isZero_zero _)
  · exact h

/-- A number is completed to a number, whatever the residual is. -/
theorem isNaN_finish (mode : RoundingMode) (h : x.isNaN = false) (residual : Ordering) :
    (mode.finish x residual).isNaN = false := by
  unfold RoundingMode.finish
  split
  · exact isNaN_adjust mode h _
  · split
    · exact h
    · exact isNaN_flush (isNaN_adjust mode h residual)

end Kinds

/-! ### Operations on numbers -/

section Operations

variable {x y : Binary64}

/-- An invalid sum. -/
theorem add_of_invalid (mode : RoundingMode) (h : operandNaN x y = none)
    (hinvalid : InvalidSum x y) : mode.add x y = defaultNaN := by
  obtain ⟨hx, hy, hsign⟩ := hinvalid
  simp only [RoundingMode.add, addNearest, h, hx, hy, Bool.or_true, Bool.true_and, bne_iff_ne,
    if_pos hsign, if_true]

/-- A valid sum is not rounded when one addend is infinite. -/
theorem add_of_valid (mode : RoundingMode) (h : operandNaN x y = none) (hvalid : ¬InvalidSum x y) :
    mode.add x y = if x.isInfinite then x else if y.isInfinite then y
      else if (addNearest x y).isZero then mode.zeroSum x y
      else mode.finish (addNearest x y) (sumResidual x y (addNearest x y)) := by
  simp only [RoundingMode.add, h]
  by_cases hx : x.isInfinite = true
  · have hsign : ¬(y.isInfinite && x.isNegative != y.isNegative) = true := by
      rw [Bool.and_eq_true, bne_iff_ne]
      exact fun hinvalid => hvalid ⟨hx, hinvalid⟩
    rw [hx, Bool.true_or, if_pos rfl, if_pos rfl]
    simp only [addNearest, h, if_pos hx, if_neg hsign]
  · rw [if_neg hx, Bool.eq_false_iff.mpr hx, Bool.false_or]
    split
    · next hy => simp only [addNearest, h, if_neg hx, if_pos hy]
    · rfl

/-- A difference of two numbers is the sum with the opposite of the second one. -/
theorem sub_numbers (mode : RoundingMode) (h : operandNaN x y = none) :
    mode.sub x y = mode.add x y.neg := by
  simp only [RoundingMode.sub, h]

/-- An invalid product. -/
theorem mul_of_invalid (mode : RoundingMode) (h : operandNaN x y = none)
    (hinvalid : InvalidProduct x y) : mode.mul x y = defaultNaN := by
  rcases hinvalid with ⟨hzero, hinfinite⟩ | ⟨hinfinite, hzero⟩ <;>
    simp only [RoundingMode.mul, h, hzero, hinfinite, Bool.or_true, Bool.true_or, if_true]

/-- A valid product is not rounded when one factor is infinite. -/
theorem mul_of_valid (mode : RoundingMode) (h : operandNaN x y = none)
    (hvalid : ¬InvalidProduct x y) :
    mode.mul x y = if x.isInfinite || y.isInfinite then
        ofMagnitude (x.isNegative != y.isNegative) infinityMagnitude
      else mode.finish (mulNearest x y) (productResidual x y (mulNearest x y)) := by
  simp only [RoundingMode.mul, h]
  split
  · next hinfinite =>
    refine if_neg fun hzero => ?_
    -- No double is both, so the zero and the infinity are different operands.
    rcases Bool.or_eq_true_iff.mp hinfinite with hx | hy
    · rw [isZero_of_isInfinite hx, Bool.false_or] at hzero
      exact hvalid (.inr ⟨hx, hzero⟩)
    · rw [isZero_of_isInfinite hy, Bool.or_false] at hzero
      exact hvalid (.inl ⟨hzero, hy⟩)
  · rfl

/-- An invalid quotient. -/
theorem div_of_invalid (mode : RoundingMode) (h : operandNaN x y = none)
    (hinvalid : InvalidQuotient x y) : mode.div x y = defaultNaN := by
  simp only [RoundingMode.div, h]
  rcases hinvalid with ⟨hx, hy⟩ | ⟨hx, hy⟩
  · have hfinite {z : Binary64} (hz : z.isZero = true) : ¬z.isInfinite = true := fun hinfinite => by
      rw [isZero_of_isInfinite hinfinite] at hz
      cases hz
    rw [if_neg (hfinite hx), if_neg (hfinite hy), if_pos hy, if_pos hx]
  · rw [if_pos hx, if_pos hy]

/-- A valid quotient is not rounded when an operand is infinite or the divisor is a zero. -/
theorem div_of_valid (mode : RoundingMode) (h : operandNaN x y = none)
    (hvalid : ¬InvalidQuotient x y) :
    mode.div x y = if x.isInfinite || y.isZero then
        ofMagnitude (x.isNegative != y.isNegative) infinityMagnitude
      else if y.isInfinite then zero (x.isNegative != y.isNegative)
      else mode.finish (divNearest x y) (quotientResidual x y (divNearest x y)) := by
  simp only [RoundingMode.div, h]
  by_cases hx : x.isInfinite = true
  · rw [if_pos hx, if_neg fun hy => hvalid (.inr ⟨hx, hy⟩), hx, Bool.true_or, if_pos rfl]
  · rw [if_neg hx, Bool.eq_false_iff.mpr hx, Bool.false_or]
    split
    · next hy => rw [isZero_of_isInfinite hy, if_neg Bool.false_ne_true]
    · split
      · next hy => exact if_neg fun hx => hvalid (.inl ⟨hx, hy⟩)
      · rfl

/-- A difference is invalid when the sum with the opposite of the second operand is. -/
theorem invalidSum_neg_iff : InvalidSum x y.neg ↔ InvalidDifference x y := by
  rw [InvalidSum, InvalidDifference, (kind_neg y).2.1, isNegative_neg]
  cases x.isNegative <;> cases y.isNegative <;> simp

end Operations

/-! ### Completed results -/

/-- What valid operations return for numbers, in the four modes. -/
inductive Completed : (RoundingMode → Binary64) → Prop
  | infinite {x : Binary64} (h : x.isInfinite = true) : Completed fun _ => x
  | zero {x : Binary64} (h : x.isZero = true) : Completed fun _ => x
  | zeroSum (x y : Binary64) : Completed fun mode => mode.zeroSum x y
  | finish {x : Binary64} (h : x.isNaN = false) (residual : Ordering) :
    Completed fun mode => mode.finish x residual

/-- What an operation does with its operands: it hands NaNs on, returns the default one when it is
invalid, and completes its results otherwise. -/
structure Completes (operation : RoundingMode → Binary64 → Binary64 → Binary64)
    (invalid : Binary64 → Binary64 → Prop) : Prop where
  ofNaN : ∀ mode x y nan, operandNaN x y = some nan → operation mode x y = nan
  ofInvalid : ∀ mode x y, operandNaN x y = none → invalid x y → operation mode x y = defaultNaN
  ofValid : ∀ x y, operandNaN x y = none → ¬invalid x y →
    Completed fun mode => operation mode x y

/-- Completed results are numbers. -/
theorem Completed.isNaN {result : RoundingMode → Binary64} (h : Completed result)
    (mode : RoundingMode) : (result mode).isNaN = false := by
  cases h with
  | infinite hx => exact isNaN_of_isInfinite hx
  | zero hx => exact isNaN_of_isZero hx
  | zeroSum x y =>
    change (mode.zeroSum x y).isNaN = false
    rw [zeroSum_eq]
    exact isNaN_of_isZero (isZero_zero _)
  | finish hx residual => exact isNaN_finish mode hx residual

/-- An operation with a number for a result has numbers for operands and is valid. -/
theorem Completes.valid {operation : RoundingMode → Binary64 → Binary64 → Binary64}
    {invalid : Binary64 → Binary64 → Prop} (h : Completes operation invalid) {mode : RoundingMode}
    {x y : Binary64} (hresult : (operation mode x y).isNaN = false) :
    operandNaN x y = none ∧ ¬invalid x y := by
  cases hnan : operandNaN x y with
  | some nan =>
    obtain ⟨z, hz, rfl⟩ := exists_quiet_of_operandNaN hnan
    rw [h.ofNaN mode x y _ hnan, isNaN_quiet hz] at hresult
    cases hresult
  | none =>
    refine ⟨rfl, fun hinvalid => ?_⟩
    rw [h.ofInvalid mode x y hnan hinvalid] at hresult
    exact absurd hresult (by decide)

/-- Sums. -/
theorem completes_add : Completes RoundingMode.add InvalidSum where
  ofNaN mode x y nan h := by simp only [RoundingMode.add, h]
  ofInvalid mode x y h hinvalid := add_of_invalid mode h hinvalid
  ofValid x y h hvalid := by
    obtain ⟨hx, hy⟩ := isNaN_of_operandNaN_eq_none h
    simp only [add_of_valid _ h hvalid]
    split
    · next hinfx => exact .infinite hinfx
    · next hinfx =>
      split
      · next hinfy => exact .infinite hinfy
      · next hinfy =>
        split
        · exact .zeroSum x y
        · have hsum := nearest_addNearest
            (isFinite_of_isInfinite_eq_false hx (Bool.eq_false_iff.mpr hinfx))
            (isFinite_of_isInfinite_eq_false hy (Bool.eq_false_iff.mpr hinfy))
          exact .finish (isNaN_eq_false_iff.mpr hsum.le) _

/-- Differences: the sign of the second operand is flipped for numbers only. -/
theorem completes_sub : Completes RoundingMode.sub InvalidDifference where
  ofNaN mode x y nan h := by simp only [RoundingMode.sub, h]
  ofInvalid mode x y h hinvalid := by
    rw [sub_numbers mode h]
    exact add_of_invalid mode (operandNaN_neg_eq_none h) (invalidSum_neg_iff.mpr hinvalid)
  ofValid x y h hvalid := by
    simp only [sub_numbers _ h]
    exact completes_add.ofValid x y.neg (operandNaN_neg_eq_none h) (mt invalidSum_neg_iff.mp hvalid)

/-- Products. -/
theorem completes_mul : Completes RoundingMode.mul InvalidProduct where
  ofNaN mode x y nan h := by simp only [RoundingMode.mul, h]
  ofInvalid mode x y h hinvalid := mul_of_invalid mode h hinvalid
  ofValid x y h hvalid := by
    simp only [mul_of_valid _ h hvalid]
    split
    · exact .infinite (isInfinite_ofMagnitude _)
    · exact .finish (isNaN_eq_false_iff.mpr (nearest_mulNearest x y).le) _

/-- Quotients. -/
theorem completes_div : Completes RoundingMode.div InvalidQuotient where
  ofNaN mode x y nan h := by simp only [RoundingMode.div, h]
  ofInvalid mode x y h hinvalid := div_of_invalid mode h hinvalid
  ofValid x y h hvalid := by
    simp only [div_of_valid _ h hvalid]
    split
    · exact .infinite (isInfinite_ofMagnitude _)
    · next hy =>
      rw [Bool.not_eq_true, Bool.or_eq_false_iff] at hy
      split
      · exact .zero (isZero_zero _)
      · exact .finish (isNaN_eq_false_iff.mpr (nearest_divNearest x hy.2).le) _

/-- The root of a NaN. -/
theorem sqrtAbs_of_isNaN (mode : RoundingMode) {x : Binary64} (h : x.isNaN = true) :
    mode.sqrtAbs x = x.abs.quiet :=
  if_pos ((isNaN_abs x).trans h)

/-- Roots of numbers: a rounded root is neither infinite, zero nor subnormal, so it is completed by
the move alone. -/
theorem completed_sqrtAbs {x : Binary64} (hx : x.isNaN = false) :
    Completed fun mode => mode.sqrtAbs x := by
  have hnumber : x.abs.isNaN = false := (isNaN_abs x).trans hx
  simp only [RoundingMode.sqrtAbs, hnumber, Bool.false_eq_true, if_false]
  split
  · next hexact =>
    rcases Bool.or_eq_true_iff.mp hexact with hinfinite | hzero
    · exact .infinite hinfinite
    · exact .zero hzero
  · next hinexact =>
    rw [Bool.not_eq_true, Bool.or_eq_false_iff] at hinexact
    have hfinite : x.isFinite = true := by
      rw [isFinite, ← magnitude_abs]
      exact isFinite_of_isInfinite_eq_false hnumber hinexact.1
    have hzero : x.isZero = false := by rw [isZero, ← magnitude_abs]; exact hinexact.2
    obtain ⟨hroot, hinfinite⟩ := kind_of_isFinite (isFinite_sqrtNearest_abs hfinite hzero)
    have hpositive : (sqrtNearest x.abs).isZero = false :=
      Bool.eq_false_iff.mpr (mt isZero_iff.mp (order_sqrtNearest_pos hinexact.2).ne')
    have hfinish (mode : RoundingMode) :
        mode.adjust (sqrtNearest x.abs) (rootResidual x.abs (sqrtNearest x.abs)) =
          mode.finish (sqrtNearest x.abs) (rootResidual x.abs (sqrtNearest x.abs)) := by
      rw [RoundingMode.finish, hinfinite, hpositive, if_neg Bool.false_ne_true,
        if_neg Bool.false_ne_true, flush_adjust_sqrtNearest mode hfinite hzero]
    simp only [hfinish]
    exact .finish hroot _

end RandomMachine.Binary64
