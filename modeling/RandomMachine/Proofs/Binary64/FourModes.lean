import RandomMachine.Proofs.Binary64.InvalidOperations
import RandomMachine.Proofs.Binary64.Settled

/-!
# Results in the four modes

One operation on one pair of operands, in all modes. Every mode starts from the same nearest double
and the same residual, so two neighbours are all that the modes choose from, and flushing them
leaves neighbours among the doubles that are not subnormal. Where the residual is lost all modes
agree. No residual needs to be right for this.
-/

namespace RandomMachine.Binary64

/-! ### Neighbours -/

/-- Whether a double is the next one above another, among all that are not subnormal, the infinities
included. -/
structure IsNext (x y : Binary64) : Prop where
  lt : x.extendedValue < y.extendedValue
  least : ∀ z : Binary64, z.isNaN = false → z.isSubnormal = false →
    x.extendedValue < z.extendedValue → y.extendedValue ≤ z.extendedValue

/-- Whether results in the four modes are numbers that bracket each other: the one rounded up is the
one rounded down or the next above it, and the other two are among them, the one towards zero with
the smaller magnitude. -/
structure Bracketed (result : RoundingMode → Binary64) : Prop where
  isNaN : ∀ mode, (result mode).isNaN = false
  isSubnormal : ∀ mode, (result mode).isSubnormal = false
  le : (result .down).extendedValue ≤ (result .up).extendedValue
  next : (result .up).extendedValue = (result .down).extendedValue ∨
    IsNext (result .down) (result .up)
  nearest : result .nearest = result .down ∨ result .nearest = result .up
  towardZero : result .towardZero = result .down ∨ result .towardZero = result .up
  magnitude : (result .towardZero).magnitude =
    min (result .down).magnitude (result .up).magnitude

section Steps

variable {x y : Binary64}

/-- The signed magnitude of a flushed double. -/
theorem order_flush (x : Binary64) :
    x.flush.order = if x.order.natAbs < binade then 0 else x.order := by
  split
  · next h => rw [flush_of_lt h, order_zero]
  · next h => rw [flush_of_le (not_lt.mp h)]

/-- Doubles that are not subnormal are zeros or at least as large as the least normal one. -/
theorem isSubnormal_eq_false_iff :
    x.isSubnormal = false ↔ x.order = 0 ∨ binade ≤ x.order.natAbs := by
  rw [← Int.natAbs_eq_zero, natAbs_order, isSubnormal, decide_eq_false_iff_not]
  omega

/-- Flushing two neighbours leaves one double or neighbours among those that are not subnormal. -/
theorem isNext_flush (hx : x.isNaN = false) (hy : y.isNaN = false)
    (h : y.order = x.order ∨ y.order = x.order + 1) :
    y.flush.extendedValue = x.flush.extendedValue ∨ IsNext x.flush y.flush := by
  have hfx := isNaN_flush hx
  have hfy := isNaN_flush hy
  have hlow := order_flush x
  have hhigh := order_flush y
  rcases lt_or_ge x.flush.order y.flush.order with hlt | hge
  · refine .inr ⟨(extendedValue_lt_iff hfx hfy).mpr hlt, fun z hz hnormal hbelow => ?_⟩
    rw [extendedValue_lt_iff hfx hz] at hbelow
    rw [extendedValue_le_iff hfy hz]
    rcases isSubnormal_eq_false_iff.mp hnormal with hzero | hlarge <;> grind
  · refine .inl (extendedValue_eq_of_order_eq hfy hfx ?_)
    grind

end Steps

/-! ### What the modes choose from -/

section Modes

variable {result : RoundingMode → Binary64} {x y : Binary64}

/-- Results bracket each other when the modes choose from one double or from two neighbours, and
flush what they have chosen. -/
theorem bracketed_of_step {lower upper : Binary64} (hlower : lower.isNaN = false)
    (hupper : upper.isNaN = false)
    (hstep : upper.order = lower.order ∨ upper.order = lower.order + 1)
    (hdown : result .down = lower.flush) (hup : result .up = upper.flush)
    (hnearest : result .nearest = lower.flush ∨ result .nearest = upper.flush)
    (hzero : result .towardZero = lower.flush ∧ 0 ≤ lower.order ∨
      result .towardZero = upper.flush ∧ upper.order ≤ 0) : Bracketed result := by
  have hchoice (mode : RoundingMode) :
      ∃ z : Binary64, z.isNaN = false ∧ result mode = z.flush := by
    cases mode with
    | down => exact ⟨lower, hlower, hdown⟩
    | up => exact ⟨upper, hupper, hup⟩
    | nearest =>
      exact hnearest.elim (fun h => ⟨lower, hlower, h⟩) fun h => ⟨upper, hupper, h⟩
    | towardZero =>
      exact hzero.elim (fun h => ⟨lower, hlower, h.1⟩) fun h => ⟨upper, hupper, h.1⟩
  have hlow := order_flush lower
  have hhigh := order_flush upper
  refine ⟨fun mode => ?_, fun mode => ?_, ?_, ?_, ?_, ?_, ?_⟩
  · obtain ⟨z, hz, heq⟩ := hchoice mode
    rw [heq]
    exact isNaN_flush hz
  · obtain ⟨z, hz, heq⟩ := hchoice mode
    rw [heq]
    exact (settled_flush hz).isSubnormal
  · rw [hdown, hup, extendedValue_le_iff (isNaN_flush hlower) (isNaN_flush hupper)]
    grind
  · rw [hdown, hup]
    exact isNext_flush hlower hupper hstep
  · rwa [hdown, hup]
  · rw [hdown, hup]
    exact hzero.imp And.left And.left
  · rw [hdown, hup, ← natAbs_order, ← natAbs_order, ← natAbs_order]
    rcases hzero with ⟨heq, hsign⟩ | ⟨heq, hsign⟩ <;> rw [heq] <;> grind

/-- A number that is not subnormal brackets itself. -/
theorem bracketed_const (hx : x.isNaN = false) (hnormal : x.isSubnormal = false) :
    Bracketed fun _ => x := by
  have hflush : x.flush = x := if_neg (Bool.eq_false_iff.mp hnormal)
  refine bracketed_of_step hx hx (.inl rfl) hflush.symm hflush.symm (.inl hflush.symm) ?_
  rw [hflush]
  exact (le_total 0 x.order).imp (⟨rfl, ·⟩) (⟨rfl, ·⟩)

/-- The zeros that a sum of value zero is bracket each other. -/
theorem bracketed_zeroSum (x y : Binary64) : Bracketed fun mode => mode.zeroSum x y := by
  have hflush (negative : Bool) : zero negative = (zero negative).flush := by
    cases negative <;> rfl
  have hzero (mode : RoundingMode) :
      mode.zeroSum x y = (mode.zeroSum x y).flush ∧ (mode.zeroSum x y).isNaN = false ∧
        (mode.zeroSum x y).order = 0 := by
    rw [zeroSum_eq]
    exact ⟨hflush _, isNaN_of_isZero (isZero_zero _), order_zero _⟩
  have hup {mode : RoundingMode} (h : mode ≠ .down) :
      mode.zeroSum x y = RoundingMode.up.zeroSum x y := by
    rw [zeroSum_eq, zeroSum_eq]
    simp only [h, reduceCtorEq]
  obtain ⟨hdown, hnan, horder⟩ := hzero .down
  obtain ⟨hflush, hnan', horder'⟩ := hzero .up
  refine bracketed_of_step hnan hnan' (.inl (horder'.trans horder.symm)) hdown hflush
    (.inr ?_) (.inr ⟨?_, horder'.le⟩)
  · rw [← hflush]
    exact hup (by decide)
  · rw [← hflush]
    exact hup (by decide)

/-- Negative doubles and zeros. -/
theorem order_nonpos_iff : (x.isNegative || x.isZero) = true ↔ x.order ≤ 0 := by
  rw [Bool.or_eq_true, isZero_iff]
  rcases x.order_eq_or with ⟨hsign, horder⟩ | ⟨hsign, horder⟩ <;> rw [hsign] <;> simp <;> omega

/-- Negative doubles other than zero. -/
theorem order_neg_iff : (x.isNegative && !x.isZero) = true ↔ x.order < 0 := by
  rw [Bool.and_eq_true, Bool.not_eq_true', Bool.eq_false_iff, ne_eq, isZero_iff]
  rcases x.order_eq_or with ⟨hsign, horder⟩ | ⟨hsign, horder⟩ <;> rw [hsign] <;> simp <;> omega

/-- A number, moved as the modes ask for and flushed. -/
theorem bracketed_adjust (hx : x.isNaN = false) (residual : Ordering)
    (hlow : residual = .lt → -(infinityMagnitude : ℤ) < x.order)
    (hhigh : residual = .gt → x.order < infinityMagnitude) :
    Bracketed fun mode => (mode.adjust x residual).flush := by
  have hle := isNaN_eq_false_iff.mp hx
  cases residual with
  | eq =>
    simp only [adjust_eq]
    exact bracketed_const (isNaN_flush hx) (settled_flush hx).isSubnormal
  | lt =>
    have horder := (order_nextDown (hlow rfl) (by omega)).1
    refine bracketed_of_step (isNaN_nextDown hx) hx (.inr (by omega)) rfl rfl (.inr rfl) ?_
    by_cases hsign : (x.isNegative || x.isZero) = true
    · exact .inr ⟨congrArg flush (if_pos hsign), order_nonpos_iff.mp hsign⟩
    · refine .inl ⟨congrArg flush (if_neg hsign), ?_⟩
      rw [order_nonpos_iff] at hsign
      omega
  | gt =>
    have horder := (order_nextUp (by omega) (hhigh rfl)).1
    refine bracketed_of_step hx (isNaN_nextUp hx) (.inr horder) rfl rfl (.inl rfl) ?_
    by_cases hsign : (x.isNegative && !x.isZero) = true
    · refine .inr ⟨congrArg flush (if_pos hsign), ?_⟩
      rw [order_neg_iff] at hsign
      omega
    · refine .inl ⟨congrArg flush (if_neg hsign), ?_⟩
      rwa [order_neg_iff, not_lt] at hsign

/-- A completed result, whatever its residual is. -/
theorem bracketed_finish (hx : x.isNaN = false) (residual : Ordering) :
    Bracketed fun mode => mode.finish x residual := by
  unfold RoundingMode.finish
  split
  · next hinfinite =>
    have hflush : (fun mode : RoundingMode => mode.overflow x) =
        fun mode => (mode.overflow x).flush := funext fun _ => (flush_overflow hinfinite).symm
    obtain ⟨hlow, hhigh⟩ := order_of_overflow hinfinite rfl
    rw [hflush]
    exact bracketed_adjust hx _ hlow hhigh
  · next hinfinite =>
    split
    · next hzero => exact bracketed_const hx (settled_of_isZero hzero).isSubnormal
    · have hfinite := isFinite_iff.mp
        (isFinite_of_isInfinite_eq_false hx (Bool.eq_false_iff.mpr hinfinite))
      exact bracketed_adjust hx residual (fun _ => by omega) fun _ => by omega

end Modes

/-! ### Operations -/

section Operations

variable {mode : RoundingMode} {x y : Binary64}

/-- Completed results bracket each other. -/
theorem Completed.bracketed {result : RoundingMode → Binary64} (h : Completed result) :
    Bracketed result := by
  cases h with
  | infinite hx =>
    exact bracketed_const (isNaN_of_isInfinite hx) (settled_of_isInfinite hx).isSubnormal
  | zero hx => exact bracketed_const (isNaN_of_isZero hx) (settled_of_isZero hx).isSubnormal
  | zeroSum x y => exact bracketed_zeroSum x y
  | finish hx residual => exact bracketed_finish hx residual

/-- The results of an operation that completes them bracket each other when one is a number. -/
theorem Completes.bracketed {operation : RoundingMode → Binary64 → Binary64 → Binary64}
    {invalid : Binary64 → Binary64 → Prop} (h : Completes operation invalid)
    (hresult : (operation mode x y).isNaN = false) : Bracketed fun mode => operation mode x y :=
  have ⟨hnone, hvalid⟩ := h.valid hresult
  (h.ofValid x y hnone hvalid).bracketed

/-- Roots bracket each other when one of them is a number. -/
theorem bracketed_sqrtAbs (h : (mode.sqrtAbs x).isNaN = false) :
    Bracketed fun mode => mode.sqrtAbs x :=
  (completed_sqrtAbs ((isNaN_sqrtAbs mode x).symm.trans h)).bracketed

/-- Rounded integers bracket each other. -/
theorem bracketed_ofInt {n : ℤ} (hn : |n| ≤ 2 ^ 63) : Bracketed fun mode => mode.ofInt n := by
  have hnearest := isFinite_iff.mp (int64Valued_ofInt .nearest hn).isFinite
  have hbracket := bracketed_adjust (isNaN_eq_false_iff.mpr hnearest.le)
    (compare (n * one) (Binary64.ofInt n).units) (fun _ => by omega) fun _ => by omega
  have hflush (mode : RoundingMode) : (mode.ofInt n).flush = mode.ofInt n :=
    if_neg (Bool.eq_false_iff.mp (settled_ofInt mode hn).isSubnormal)
  exact (funext hflush : (fun mode : RoundingMode => (mode.ofInt n).flush) = _) ▸ hbracket

end Operations

/-- The four results of an operation on one pair of operands bracket each other when they are
numbers. -/
theorem modes_bracket (mode : RoundingMode) (x y : Binary64) (n : Int64) :
    ((mode.add x y).isNaN = false → Bracketed fun mode => mode.add x y) ∧
    ((mode.sub x y).isNaN = false → Bracketed fun mode => mode.sub x y) ∧
    ((mode.mul x y).isNaN = false → Bracketed fun mode => mode.mul x y) ∧
    ((mode.div x y).isNaN = false → Bracketed fun mode => mode.div x y) ∧
    ((mode.sqrtAbs x).isNaN = false → Bracketed fun mode => mode.sqrtAbs x) ∧
    Bracketed fun mode => mode.ofInt n.toInt :=
  ⟨completes_add.bracketed, completes_sub.bracketed, completes_mul.bracketed,
    completes_div.bracketed, bracketed_sqrtAbs, bracketed_ofInt (abs_toInt_le n)⟩

/-- Little less than three times the least normal double, and three. Zero and the least normal double
are neighbours, and the quotient lies between them. -/
theorem modes_bracket_least_normal :
    (Bracketed fun mode => mode.add ⟨0x0027FFFFFFFFFFFF⟩ ⟨0x4008000000000000⟩) ∧
    (Bracketed fun mode => mode.sub ⟨0x0027FFFFFFFFFFFF⟩ ⟨0x4008000000000000⟩) ∧
    (Bracketed fun mode => mode.mul ⟨0x0027FFFFFFFFFFFF⟩ ⟨0x4008000000000000⟩) ∧
    (Bracketed fun mode => mode.div ⟨0x0027FFFFFFFFFFFF⟩ ⟨0x4008000000000000⟩) ∧
    (Bracketed fun mode => mode.sqrtAbs ⟨0x0027FFFFFFFFFFFF⟩) ∧
    RoundingMode.down.div ⟨0x0027FFFFFFFFFFFF⟩ ⟨0x4008000000000000⟩ = zero false ∧
    RoundingMode.up.div ⟨0x0027FFFFFFFFFFFF⟩ ⟨0x4008000000000000⟩ = ofMagnitude false binade := by
  obtain ⟨hadd, hsub, hmul, hdiv, hsqrt, -⟩ :=
    modes_bracket .up ⟨0x0027FFFFFFFFFFFF⟩ ⟨0x4008000000000000⟩ 0
  refine ⟨hadd ?_, hsub ?_, hmul ?_, hdiv ?_, hsqrt ?_, ?_, ?_⟩
  all_goals decide +kernel

/-! ### Integers -/

/-- An integer of 64 bits is rounded to the nearest double, the greatest one that is not above it,
the least one that is not below it, or the one of these two that is nearer to zero. None is an
infinity, and the integer is kept whenever a double has its value. -/
theorem rounds_ofInt_toInt (mode : RoundingMode) (n : Int64) :
    Rounds mode n.toInt (mode.ofInt n.toInt) ∧ (mode.ofInt n.toInt).isFinite = true ∧
    ((mode.ofInt n.toInt).value = n.toInt ↔
      ∃ y : Binary64, y.isFinite = true ∧ y.value = n.toInt) ∧
    (RoundingMode.towardZero.ofInt n.toInt = RoundingMode.down.ofInt n.toInt ∨
      RoundingMode.towardZero.ofInt n.toInt = RoundingMode.up.ofInt n.toInt) ∧
    |(RoundingMode.towardZero.ofInt n.toInt).value| ≤ |(RoundingMode.down.ofInt n.toInt).value| ∧
    |(RoundingMode.towardZero.ofInt n.toInt).value| ≤ |(RoundingMode.up.ofInt n.toInt).value| := by
  have hn := abs_toInt_le n
  have hrounds := rounds_ofInt mode hn
  have hfinite := (int64Valued_ofInt mode hn).isFinite
  have hbracket := bracketed_ofInt hn
  refine ⟨hrounds, hfinite, ⟨fun h => ⟨_, hfinite, h⟩, fun ⟨y, hy, hvalue⟩ => ?_⟩,
    hbracket.towardZero, ?_, ?_⟩
  · have heq := hrounds.extendedValue_eq hy hvalue
    rwa [extendedValue_of_isFinite hfinite, EReal.coe_eq_coe_iff] at heq
  · exact abs_value_le_iff.mpr (hbracket.magnitude.trans_le (min_le_left _ _))
  · exact abs_value_le_iff.mpr (hbracket.magnitude.trans_le (min_le_right _ _))

/-- The greatest integer of 64 bits lies between two doubles, whose distance changes at the upper
one. -/
example : RoundingMode.towardZero.ofInt Int64.maxValue.toInt = ⟨0x43DFFFFFFFFFFFFF⟩ ∧
    RoundingMode.up.ofInt Int64.maxValue.toInt = ⟨0x43E0000000000000⟩ := by decide +kernel

end RandomMachine.Binary64
