import Mathlib.Algebra.Group.Nat.Defs
import RandomMachine.Settings.Basic

/-!
# Slot arithmetic

What the conditions on settings say in arithmetic, and what follows for slots: the slot after a
slot and the target of a call lie in the program, and the sums that they are computed from fit in
64 bits.
-/

namespace RandomMachine.Settings

/-- Settings meet all conditions exactly if the program size is a power of two from four on, the
budget is not empty, and the stack has a positive even number of entries. -/
theorem fault?_eq_none_iff (settings : Settings) :
    settings.fault? = none ↔
      (∃ k, 2 ≤ k ∧ settings.programSize.toNat = 2 ^ k) ∧ settings.budget ≠ 0 ∧
        2 ≤ settings.stackLength.toNat ∧ settings.stackLength.toNat % 2 = 0 := by
  have hsize : ¬(settings.programSize.toNat ≠ 1 <<< settings.programSize.toNat.log2 ∨
      settings.programSize.toNat < 4) ↔ ∃ k, 2 ≤ k ∧ settings.programSize.toNat = 2 ^ k := by
    rw [Nat.one_shiftLeft]
    constructor
    · intro h
      refine ⟨settings.programSize.toNat.log2, ?_, by omega⟩
      rw [Nat.le_log2 (by omega)]
      omega
    · rintro ⟨k, hk, hsize⟩
      have hpow : 2 ^ 2 ≤ 2 ^ k := Nat.pow_le_pow_right (by decide) hk
      rw [hsize, Nat.log2_two_pow]
      omega
  rw [← hsize]
  unfold fault?
  dsimp only
  split
  · next h => simp [h]
  · next h =>
    split
    · next hb => simp [hb]
    · next hb =>
      split
      · next hs =>
        simp only [reduceCtorEq, false_iff]
        omega
      · next hs =>
        simp only [true_iff]
        exact ⟨h, hb, by omega, by omega⟩

/-- Valid settings have a program of at least four slots. -/
theorem four_le_programSize {settings : Settings} (h : settings.fault? = none) :
    4 ≤ settings.programSize.toNat := by
  obtain ⟨⟨k, hk, hsize⟩, -⟩ := settings.fault?_eq_none_iff.mp h
  rw [hsize]
  exact Nat.pow_le_pow_right (by decide : 0 < 2) hk

/-- Valid settings have a program of at most `2 ^ 63` slots, the largest power of two of 64 bits. -/
theorem programSize_le {settings : Settings} (h : settings.fault? = none) :
    settings.programSize.toNat ≤ 2 ^ 63 := by
  obtain ⟨⟨k, -, hsize⟩, -⟩ := settings.fault?_eq_none_iff.mp h
  have hlt := settings.programSize.toNat_lt
  rw [hsize] at hlt ⊢
  have hk : k < 64 := (Nat.pow_lt_pow_iff_right (by decide : 1 < 2)).mp hlt
  exact Nat.pow_le_pow_right (by decide) (by omega)

/-- A word under the mask of a nonempty program is one of its slots. -/
theorem toNat_and_mask_lt {size : UInt64} (h : 0 < size.toNat) (word : UInt64) :
    (word &&& (size - 1)).toNat < size.toNat := by
  have hone : (1 : UInt64) ≤ size := by
    rw [UInt64.le_iff_toNat_le]
    exact h
  have hmask : (word &&& (size - 1)).toNat ≤ (size - 1).toNat := by
    rw [UInt64.toNat_and]
    exact Nat.and_le_right
  rw [UInt64.toNat_sub_of_le _ _ hone] at hmask
  change _ ≤ size.toNat - 1 at hmask
  omega

/-- The slot after a slot is a slot of the program. -/
theorem toNat_nextSlot_lt {settings : Settings} (h : settings.fault? = none) (slot : UInt64) :
    (settings.nextSlot slot).toNat < settings.programSize.toNat := by
  have := four_le_programSize h
  exact toNat_and_mask_lt (by omega) _

/-- The mask of a program takes a word modulo the program size. -/
theorem toNat_and_mask {settings : Settings} (h : settings.fault? = none) (word : UInt64) :
    (word &&& (settings.programSize - 1)).toNat = word.toNat % settings.programSize.toNat := by
  obtain ⟨⟨k, -, hsize⟩, -⟩ := settings.fault?_eq_none_iff.mp h
  have hone : (1 : UInt64) ≤ settings.programSize := by
    rw [UInt64.le_iff_toNat_le, hsize]
    exact Nat.one_le_two_pow
  have hmask : (settings.programSize - 1).toNat = 2 ^ k - 1 := by
    rw [UInt64.toNat_sub_of_le _ _ hone, hsize]
    rfl
  rw [UInt64.toNat_and, hmask, Nat.and_two_pow_sub_one_eq_mod, hsize]

/-- Sums of words that wrap are the same modulo the program size as sums that do not. -/
theorem toNat_add_mod {settings : Settings} (h : settings.fault? = none) (a b : UInt64) :
    (a + b).toNat % settings.programSize.toNat =
      (a.toNat + b.toNat) % settings.programSize.toNat := by
  obtain ⟨⟨k, -, hsize⟩, -⟩ := settings.fault?_eq_none_iff.mp h
  have hk : k < 64 := (Nat.pow_lt_pow_iff_right (by decide : 1 < 2)).mp
    (hsize ▸ settings.programSize.toNat_lt)
  rw [UInt64.toNat_add, hsize]
  exact Nat.mod_mod_of_dvd _ (Nat.pow_dvd_pow 2 (Nat.le_of_lt hk))

/-- The slot after a slot is the next number, or zero behind the last slot. -/
theorem toNat_nextSlot {settings : Settings} (h : settings.fault? = none) (slot : UInt64) :
    (settings.nextSlot slot).toNat = (slot.toNat + 1) % settings.programSize.toNat := by
  rw [nextSlot, toNat_and_mask h, toNat_add_mod h]
  rfl

/-- The offset of a call is the short immediate modulo a quarter of the program. -/
theorem toNat_callOffset {settings : Settings} (h : settings.fault? = none)
    (shortImmediate : UInt8) :
    (shortImmediate.toUInt64 &&& settings.callOffsetMask).toNat =
      shortImmediate.toNat % (settings.programSize.toNat / 4) := by
  obtain ⟨⟨k, hk, hsize⟩, -⟩ := settings.fault?_eq_none_iff.mp h
  have hquarter : (settings.programSize >>> 2).toNat = 2 ^ (k - 2) := by
    rw [UInt64.toNat_shiftRight, hsize, Nat.shiftRight_eq_div_pow]
    exact Nat.pow_div hk (by decide)
  have hone : (1 : UInt64) ≤ settings.programSize >>> 2 := by
    rw [UInt64.le_iff_toNat_le, hquarter]
    exact Nat.one_le_two_pow
  have hmask : settings.callOffsetMask.toNat = 2 ^ (k - 2) - 1 := by
    rw [callOffsetMask, UInt64.toNat_sub_of_le _ _ hone, hquarter]
    rfl
  rw [UInt64.toNat_and, UInt8.toNat_toUInt64, hmask, Nat.and_two_pow_sub_one_eq_mod, hsize]
  exact congrArg _ (Nat.pow_div hk (by decide)).symm

/-- The target of a call lies as many slots behind the next slot as the offset says. -/
theorem toNat_callTarget {settings : Settings} (h : settings.fault? = none) (slot : UInt64)
    (shortImmediate : UInt8) :
    (settings.callTarget slot shortImmediate).toNat =
      (slot.toNat + 1 + shortImmediate.toNat % (settings.programSize.toNat / 4)) %
        settings.programSize.toNat := by
  rw [callTarget, toNat_and_mask h, toNat_add_mod h, Nat.add_mod, toNat_add_mod h, ← Nat.add_mod,
    toNat_callOffset h]
  rfl

/-- The target of a call is a slot of the program. -/
theorem toNat_callTarget_lt {settings : Settings} (h : settings.fault? = none) (slot : UInt64)
    (shortImmediate : UInt8) :
    (settings.callTarget slot shortImmediate).toNat < settings.programSize.toNat := by
  have := four_le_programSize h
  exact toNat_and_mask_lt (by omega) _

end RandomMachine.Settings
