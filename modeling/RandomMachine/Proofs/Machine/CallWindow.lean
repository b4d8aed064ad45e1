import RandomMachine.Proofs.Machine.Brackets
import RandomMachine.Proofs.Machine.Checked
import RandomMachine.Proofs.Settings.Slots

/-!
# The window of a call

A call goes forward only, from the slot after its own over less than a quarter of the program, and
past the last slot it goes on at the first. So it never comes back to its own slot. Where the short
immediate can count a quarter of the program, every slot of the window is the target of some call.
-/

namespace RandomMachine

namespace Settings

/-- How far a slot lies ahead of another one, when the first slot follows the last. -/
def slotsAhead (settings : Settings) (slot other : UInt64) : Nat :=
  (other.toNat + settings.programSize.toNat - slot.toNat) % settings.programSize.toNat

variable {settings : Settings} {slot other : UInt64}

/-- A slot that is reached by going forward lies so far ahead. -/
theorem slotsAhead_eq (hslot : slot.toNat < settings.programSize.toNat) {distance : Nat}
    (hdistance : distance < settings.programSize.toNat)
    (hother : other.toNat = (slot.toNat + distance) % settings.programSize.toNat) :
    settings.slotsAhead slot other = distance := by
  rw [Nat.add_mod_eq_ite, Nat.mod_eq_of_lt hslot, Nat.mod_eq_of_lt hdistance] at hother
  unfold slotsAhead
  split at hother
  · rw [Nat.mod_eq_of_lt (by omega)]
    omega
  · rw [Nat.mod_eq_sub_mod (by omega), Nat.mod_eq_of_lt (by omega)]
    omega

/-- Going forward from one slot as far as another one lies ahead leads to the other one. -/
theorem add_slotsAhead_mod (hslot : slot.toNat < settings.programSize.toNat)
    (hother : other.toNat < settings.programSize.toNat) :
    (slot.toNat + settings.slotsAhead slot other) % settings.programSize.toNat = other.toNat := by
  rw [slotsAhead, Nat.add_mod_mod, Nat.add_sub_of_le (by omega), Nat.add_mod_right,
    Nat.mod_eq_of_lt hother]

/-- The target of a call lies ahead of the next slot by the offset. -/
theorem slotsAhead_callTarget (h : settings.fault? = none) (slot : UInt64)
    (shortImmediate : UInt8) :
    settings.slotsAhead (settings.nextSlot slot) (settings.callTarget slot shortImmediate) =
      shortImmediate.toNat % (settings.programSize.toNat / 4) := by
  have hsize := four_le_programSize h
  have hoffset := Nat.mod_lt shortImmediate.toNat (show 0 < settings.programSize.toNat / 4 by omega)
  apply slotsAhead_eq (toNat_nextSlot_lt h slot) (by omega)
  rw [toNat_callTarget h, toNat_nextSlot h, Nat.mod_add_mod]

/-- The slot before a slot lies furthest ahead of it. -/
theorem slotsAhead_nextSlot (h : settings.fault? = none)
    (hslot : slot.toNat < settings.programSize.toNat) :
    settings.slotsAhead (settings.nextSlot slot) slot = settings.programSize.toNat - 1 := by
  have hsize := four_le_programSize h
  apply slotsAhead_eq (toNat_nextSlot_lt h slot) (by omega)
  rw [toNat_nextSlot h, Nat.mod_add_mod, Nat.add_assoc, Nat.add_sub_cancel' (by omega),
    Nat.add_mod_right, Nat.mod_eq_of_lt hslot]

/-- A call does not lead to its own slot, which is too far ahead. -/
theorem callTarget_ne (h : settings.fault? = none)
    (hslot : slot.toNat < settings.programSize.toNat) (shortImmediate : UInt8) :
    settings.callTarget slot shortImmediate ≠ slot := by
  intro heq
  have hsize := four_le_programSize h
  have hahead := slotsAhead_callTarget h slot shortImmediate
  have hoffset := Nat.mod_lt shortImmediate.toNat (show 0 < settings.programSize.toNat / 4 by omega)
  rw [heq, slotsAhead_nextSlot h hslot] at hahead
  omega

/-- Where a quarter of the program has at most 256 slots, every slot that lies less than a quarter
ahead of the next one is the target of a call. -/
theorem exists_callTarget_eq (h : settings.fault? = none)
    (hquarter : settings.programSize.toNat / 4 ≤ 256)
    (hother : other.toNat < settings.programSize.toNat)
    (hahead : settings.slotsAhead (settings.nextSlot slot) other <
      settings.programSize.toNat / 4) :
    ∃ shortImmediate, settings.callTarget slot shortImmediate = other := by
  have hbyte : settings.slotsAhead (settings.nextSlot slot) other < UInt8.size :=
    Nat.lt_of_lt_of_le hahead hquarter
  refine ⟨.ofNat (settings.slotsAhead (settings.nextSlot slot) other), ?_⟩
  apply UInt64.toNat_inj.mp
  rw [toNat_callTarget h, UInt8.toNat_ofNat_of_lt' hbyte, Nat.mod_eq_of_lt hahead,
    ← add_slotsAhead_mod (toNat_nextSlot_lt h slot) hother, toNat_nextSlot h, Nat.mod_add_mod]

end Settings

namespace Machine

/-- What slot arithmetic does around a slot of a program with valid settings. The next slot and the
target of a call are slots of the program, given by sums modulo its size; none of these sums, and no
mask, leaves 64 bits. The target lies ahead of the next slot by less than a quarter of the program,
so that no taken call leads to its own slot. If a quarter has at most 256 slots, the targets of all
calls in the slot are exactly the slots less than a quarter ahead of the next one. -/
theorem callTarget_in_window {settings : Settings} (h : settings.fault? = none) {slot : UInt64}
    (hslot : slot.toNat < settings.programSize.toNat) :
    (settings.nextSlot slot).toNat = (slot.toNat + 1) % settings.programSize.toNat ∧
      (settings.nextSlot slot).toNat < settings.programSize.toNat ∧
      settings.checkedNextSlot slot = .ok (settings.nextSlot slot) ∧
      (∀ shortImmediate : UInt8,
        (settings.callTarget slot shortImmediate).toNat =
            (slot.toNat + 1 + shortImmediate.toNat % (settings.programSize.toNat / 4)) %
              settings.programSize.toNat ∧
          (settings.callTarget slot shortImmediate).toNat < settings.programSize.toNat ∧
          settings.checkedCallTarget slot shortImmediate =
            .ok (settings.callTarget slot shortImmediate) ∧
          settings.slotsAhead (settings.nextSlot slot) (settings.callTarget slot shortImmediate) <
            settings.programSize.toNat / 4) ∧
      (∀ (m : Machine) (s : State), m.settings = settings → s.slot = slot → m.TakesCall s →
        (m.step s).1 = .next (m.step s).2.slot ∧ (m.step s).2.slot ≠ slot) ∧
      (settings.programSize.toNat / 4 ≤ 256 → ∀ target : UInt64,
        (∃ shortImmediate, settings.callTarget slot shortImmediate = target) ↔
          target.toNat < settings.programSize.toNat ∧
            settings.slotsAhead (settings.nextSlot slot) target <
              settings.programSize.toNat / 4) := by
  have hsize := Settings.four_le_programSize h
  have hle := Settings.programSize_le h
  have hahead (shortImmediate : UInt8) :
      settings.slotsAhead (settings.nextSlot slot) (settings.callTarget slot shortImmediate) <
        settings.programSize.toNat / 4 := by
    rw [Settings.slotsAhead_callTarget h]
    exact Nat.mod_lt _ (by omega)
  refine ⟨Settings.toNat_nextSlot h slot, Settings.toNat_nextSlot_lt h slot,
    Settings.checkedNextSlot_eq (by omega) hle hslot, ?_, ?_, ?_⟩
  · intro shortImmediate
    exact ⟨Settings.toNat_callTarget h slot shortImmediate,
      Settings.toNat_callTarget_lt h slot shortImmediate,
      Settings.checkedCallTarget_eq hsize hle hslot shortImmediate, hahead shortImmediate⟩
  · rintro m s rfl rfl hcall
    rw [hcall.step_eq]
    exact ⟨rfl, Settings.callTarget_ne h hslot _⟩
  · intro hquarter target
    constructor
    · rintro ⟨shortImmediate, rfl⟩
      exact ⟨Settings.toNat_callTarget_lt h slot shortImmediate, hahead shortImmediate⟩
    · rintro ⟨htarget, hwindow⟩
      exact Settings.exists_callTarget_eq h hquarter htarget hwindow

/-- A program whose quarter has as many slots as the short immediate has values: from the last slot,
calls reach slot 255 and not slot 256. -/
theorem callTarget_in_window_last_slot :
    let settings : Settings := { programSize := 1024 }
    settings.fault? = none ∧ (1023 : UInt64).toNat < settings.programSize.toNat ∧
      (settings.nextSlot 1023).toNat = 0 ∧
      (∃ shortImmediate, settings.callTarget 1023 shortImmediate = 255) ∧
      ¬ ∃ shortImmediate, settings.callTarget 1023 shortImmediate = 256 := by
  intro settings
  have hvalid : settings.fault? = none := by decide
  have hslot : (1023 : UInt64).toNat < settings.programSize.toNat := by decide
  obtain ⟨hnext, -, -, -, -, hwindow⟩ := callTarget_in_window hvalid hslot
  have hreached := hwindow (by decide)
  refine ⟨hvalid, hslot, hnext.trans (by decide), (hreached 255).mpr (by decide), ?_⟩
  rw [hreached 256]
  decide

end Machine
end RandomMachine
