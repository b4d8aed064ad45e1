import RandomMachine.Proofs.Machine.Checked
import RandomMachine.Proofs.Machine.Transition

/-!
# Storage

The registers of both files and the cells of the scratchpad, as places that each hold a word. Where
an instruction reads operand A, whether it is taken, and where its result goes are told by the places
and register numbers of the instruction and by the words that these places hold once the constant of
the instruction has been mixed in.
-/

namespace RandomMachine

/-! ### Places of operands -/

/-- The low three bits of a byte. -/
theorem toNat_and_seven (byte : UInt8) : (byte &&& 7).toNat = (byte % 8).toNat := by
  rw [UInt8.toNat_and, UInt8.toNat_mod]
  exact Nat.and_two_pow_sub_one_eq_mod byte.toNat 3

namespace Instruction

/-- The window through which operand A is read from the scratchpad. -/
def sourceWindow (d : Instruction) : Window := if d.placeA % 8 = 4 then .l2 else .l1

/-- The window through which a result goes to the scratchpad. -/
def resultWindow (d : Instruction) : Window := if d.placeC % 8 = 0 then .l2 else .l1

/-- The lower four places read operand A from DRAM. -/
theorem sourceA_eq (d : Instruction) :
    d.sourceA = if d.placeA % 8 < 4 then .dram else .scratchpad d.sourceWindow := by
  simp only [UInt8.lt_iff_toNat_lt, ← UInt8.toNat_inj, UInt8.reduceToNat, sourceWindow, sourceA,
    toNat_and_seven]
  generalize (d.placeA % 8).toNat = place
  match place with
  | 0 | 1 | 2 | 3 | 4 => rfl
  | n + 5 =>
    rw [if_neg (by omega), if_neg (by omega)]
    rfl

/-- The upper four places leave a result in a register. -/
theorem destination_eq (d : Instruction) :
    d.destination = if d.placeC % 8 < 4 then .scratchpad d.resultWindow d.registerC d.addressC
      else .register d.registerC := by
  simp only [UInt8.lt_iff_toNat_lt, ← UInt8.toNat_inj, UInt8.reduceToNat, resultWindow, destination,
    toNat_and_seven]
  generalize (d.placeC % 8).toNat = place
  match place with
  | 0 | 1 | 2 | 3 => rfl
  | n + 4 =>
    rw [if_neg (by omega)]
    rfl

/-- Only place four reads operand A through the large window. -/
theorem placeA_of_sourceA (d : Instruction) (h : d.sourceA = .scratchpad .l2) :
    d.placeA % 8 = 4 := by
  rw [sourceA_eq, sourceWindow] at h
  split at h
  · cases h
  · split at h
    · assumption
    · cases h

/-- The upper four places leave a result in a register. -/
theorem destination_of_placeC (d : Instruction) (h : 4 ≤ d.placeC % 8) :
    d.destination = .register d.registerC := by
  rw [destination_eq, if_neg (UInt8.not_lt.mpr h)]

end Instruction

/-! ### Contents -/

/-- The register with a number. -/
theorem RegisterFile.read_ofNat {α : Type} [Inhabited α] (file : RegisterFile α) {i : Nat}
    (hi : i < registerCount) : file.read (.ofNat i) = file[i] := by
  have hnumber : (UInt8.ofNat i).toNat = i :=
    UInt8.toNat_ofNat_of_lt' (Nat.lt_trans hi (by decide))
  unfold read
  rw [hnumber, Vector.getElem?_eq_getElem hi]
  rfl

/-- What holds a word: a register of either file, or a cell of the scratchpad. -/
inductive Storage
  | integer (number : UInt8)
  | float (number : UInt8)
  | cell (i : Fin scratchpadLength)
  deriving DecidableEq, Repr

/-- The bits of a scalar as a word: those of a double, or the word of an integer. -/
def Scalar.bits : Scalar → UInt64
  | .double x => x.bits
  | value => value.toUInt64

namespace State

/-- The word that a place holds. -/
def content (s : State) : Storage → UInt64
  | .integer number => s.r.read number
  | .float number => (s.f.read number).bits
  | .cell i => (s.scratchpad.get i).bits

/-- Contents show all registers and cells. -/
theorem eq_of_content {s t : State} (h : s.content = t.content) :
    s.r = t.r ∧ s.f = t.f ∧ s.scratchpad = t.scratchpad := by
  refine ⟨Vector.ext fun i hi => ?_, Vector.ext fun i hi => ?_, Vector.ext fun i hi => ?_⟩
  · rw [← s.r.read_ofNat hi, ← t.r.read_ofNat hi]
    exact congrFun h (.integer (.ofNat i))
  · rw [← s.f.read_ofNat hi, ← t.f.read_ofNat hi]
    exact congrArg Binary64.mk (congrFun h (.float (.ofNat i)))
  · exact congrArg Cell.mk (congrFun h (.cell ⟨i, hi⟩))

/-- The word that a place holds once the constant of an instruction is mixed into its address
register. -/
def mixedContent (s : State) (d : Instruction) (place : Storage) : UInt64 :=
  if place = .integer d.registerA then s.content place ^^^ d.addressA.toUInt64
  else s.content place

/-- Mixing leaves high halves as they are. -/
theorem high_mixedContent (s : State) (d : Instruction) (place : Storage) :
    (s.mixedContent d place).toNat / 2 ^ 32 = (s.content place).toNat / 2 ^ 32 := by
  unfold mixedContent
  split
  · rw [UInt64.toNat_xor, UInt32.toNat_toUInt64, ← Nat.shiftRight_eq_div_pow,
      Nat.shiftRight_xor_distrib, Nat.shiftRight_eq_div_pow, Nat.shiftRight_eq_div_pow,
      Nat.div_eq_of_lt d.addressA.toNat_lt, Nat.xor_zero]
  · rfl

/-- Mixing changes the address register as told. -/
theorem content_mixAddress (s : State) {d : Instruction} (hd : d.registerA.toNat < registerCount)
    (place : Storage) : (s.mixAddress d).content place = s.mixedContent d place := by
  cases place with
  | integer number =>
    change (s.r.write d.registerA _).read number = _
    rw [RegisterFile.read_write, mixedContent]
    simp only [hd, and_true, Storage.integer.injEq, eq_comm (a := number)]
    split
    · next h => rw [← h]; rfl
    · rfl
  | float number => rfl
  | cell i => rfl

/-- Mixing changes the address register as told, and reading operand A changes no content. -/
theorem content_fetch (m : Machine) (s : State)
    (hd : (m.instruction s.slot).registerA.toNat < registerCount) :
    (m.fetch s).2.content = s.mixedContent (m.instruction s.slot) := by
  funext place
  rw [← s.content_mixAddress hd, m.fetch_snd]
  rfl

/-- The address of operand A: the low half of the address register, once mixed. -/
def mixedAddress (s : State) (d : Instruction) : UInt32 :=
  (s.mixedContent d (.integer d.registerA)).toUInt32

/-- The cell that operand A is read from: the next word of DRAM, or a cell of the scratchpad. -/
def operandCell (s : State) (d : Instruction) : Cell :=
  if d.placeA % 8 < 4 then ⟨DramCursor.content s.cursor.position⟩
  else s.scratchpad[d.sourceWindow.index (s.mixedAddress d)]

/-- The cursor once operand A has been read: only a read of DRAM moves it. -/
def movedCursor (s : State) (d : Instruction) : DramCursor :=
  if d.placeA % 8 < 4 then (s.cursor.read (s.mixedAddress d)).2 else s.cursor

/-- Where operand A is read, with the address register as it is. -/
theorem readA_fst (s : State) (d : Instruction) :
    (s.readA d).1 = if d.placeA % 8 < 4 then ⟨DramCursor.content s.cursor.position⟩
      else s.scratchpad[d.sourceWindow.index (s.address d)] := by
  have hsource := d.sourceA_eq
  split at hsource
  · next h =>
    simp only [readA, hsource, if_pos h]
    rfl
  · next h => simp only [readA, hsource, if_neg h]

/-- How reading operand A moves the cursor, with the address register as it is. -/
theorem cursorAfter_eq (s : State) (d : Instruction) :
    s.cursorAfter d = if d.placeA % 8 < 4 then (s.cursor.read (s.address d)).2 else s.cursor := by
  have hsource := d.sourceA_eq
  split at hsource
  · next h => simp only [cursorAfter, hsource, if_pos h]
  · next h => simp only [cursorAfter, hsource, if_neg h]

/-- Mixing makes the address of operand A. -/
theorem address_mixAddress (s : State) {d : Instruction}
    (hd : d.registerA.toNat < registerCount) : (s.mixAddress d).address d = s.mixedAddress d := by
  rw [mixedAddress, ← s.content_mixAddress hd]
  rfl

end State

namespace Machine

variable {m : Machine} {s : State}

/-- Operand A is read where its place says. -/
theorem fetch_fst (hd : (m.instruction s.slot).registerA.toNat < registerCount) :
    (m.fetch s).1 = s.operandCell (m.instruction s.slot) := by
  rw [fetch, State.readA_fst]
  simp only [State.address_mixAddress _ hd]
  rfl

/-- Reading operand A moves the cursor as told. -/
theorem fetch_cursor (hd : (m.instruction s.slot).registerA.toNat < registerCount) :
    (m.fetch s).2.cursor = s.movedCursor (m.instruction s.slot) := by
  rw [fetch_snd]
  change State.cursorAfter _ _ = _
  rw [State.cursorAfter_eq, State.address_mixAddress _ hd]
  rfl

end Machine

/-! ### Conditions -/

/-- Whether a call or return is taken, by the contents of the registers: with an immediate always,
else if the low half of its register is at most the immediate. -/
def Instruction.Taken (d : Instruction) (content : Storage → UInt64) : Prop :=
  6 ≤ d.placeB ∨ (content (.integer d.registerB)).toUInt32 ≤ d.immediate

instance (d : Instruction) (content : Storage → UInt64) : Decidable (d.Taken content) :=
  inferInstanceAs (Decidable (_ ∨ _))

/-- The condition is read off the contents. -/
theorem State.condition_eq (s : State) (d : Instruction) :
    s.condition d = decide (d.Taken s.content) := by
  unfold condition Instruction.sourceB Instruction.Taken
  by_cases hplace : d.placeB < 6
  · simp [hplace, UInt8.not_le.mpr hplace, content]
  · simp [hplace, UInt8.not_lt.mp hplace]

/-! ### Results -/

/-- Where the result of an instruction goes, by the contents of the registers. -/
def Instruction.resultPlace (d : Instruction) (content : Storage → UInt64) : Storage :=
  if d.placeC % 8 < 4 then
    .cell (d.resultWindow.index (content (.integer d.registerC) ^^^ d.addressC.toUInt64).toUInt32)
  else if d.family.signature.c = .float then .float d.registerC
  else .integer d.registerC

/-- The word that a place holds when a result of a type has been written over an old word: a cell
keeps its high half under results of 32 bits. -/
def Storage.overwritten (place : Storage) (type : OperandType) (old word : UInt64) : UInt64 :=
  match place, type with
  | .cell _, .uint32 => .ofNat (old.toNat / 2 ^ 32 * 2 ^ 32 + word.toNat % 2 ^ 32)
  | _, _ => word

/-- Results of 32 bits replace the low half of a cell and keep the high one. -/
theorem Storage.toNat_overwritten_cell (i : Fin scratchpadLength) (old word : UInt64) :
    ((cell i).overwritten .uint32 old word).toNat =
      old.toNat / 2 ^ 32 * 2 ^ 32 + word.toNat % 2 ^ 32 := by
  have hold := old.toNat_lt
  apply UInt64.toNat_ofNat_of_lt'
  change _ < 2 ^ 64
  omega

/-- All other results replace a word. -/
theorem Storage.overwritten_of_ne (place : Storage) {type : OperandType} (h : type ≠ .uint32)
    (old word : UInt64) : place.overwritten type old word = word := by
  unfold overwritten
  split
  · exact absurd rfl h
  · rfl

/-- Contents once an instruction has written a result: one place is overwritten and no other. -/
def Instruction.overwrite (d : Instruction) (content : Storage → UInt64) (value : Scalar)
    (place : Storage) : UInt64 :=
  if place = d.resultPlace content then
    place.overwritten d.family.signature.c (content place) value.bits
  else content place

/-- The place of a result has been overwritten. -/
theorem Instruction.overwrite_resultPlace (d : Instruction) (content : Storage → UInt64)
    (value : Scalar) :
    d.overwrite content value (d.resultPlace content) =
      (d.resultPlace content).overwritten d.family.signature.c (content (d.resultPlace content))
        value.bits :=
  if_pos rfl

/-- The low half of a cell is replaced and the high one kept. -/
theorem Cell.toNat_bits_withLow (cell : Cell) (low : UInt32) :
    (cell.withLow low).bits.toNat = cell.bits.toNat / 2 ^ 32 * 2 ^ 32 + low.toNat := by
  have hlow : (cell.withLow low).bits.toNat % 2 ^ 32 = low.toNat :=
    congrArg UInt32.toNat (cell.toUInt32_withLow low)
  have hhigh := congrArg UInt64.toNat (cell.high_withLow low)
  rw [UInt64.toNat_shiftRight, UInt64.toNat_shiftRight, Nat.shiftRight_eq_div_pow,
    Nat.shiftRight_eq_div_pow] at hhigh
  change _ / 2 ^ 32 = _ / 2 ^ 32 at hhigh
  omega

/-- Storing a result into a cell overwrites its bits. -/
theorem Cell.bits_store (cell : Cell) (i : Fin scratchpadLength) {family : Family} {value : Scalar}
    (h : value.type = family.signature.c) :
    (cell.store value).bits =
      (Storage.cell i).overwritten family.signature.c cell.bits value.bits := by
  rw [← h]
  cases value with
  | uint32 low =>
    have hword : (Scalar.uint32 low).bits.toNat % 2 ^ 32 = low.toNat :=
      Nat.mod_eq_of_lt low.toNat_lt
    apply UInt64.toNat_inj.mp
    change (cell.withLow low).bits.toNat = ((Storage.cell i).overwritten .uint32 _ _).toNat
    rw [cell.toNat_bits_withLow, Storage.toNat_overwritten_cell, hword]
  | int64 value => rfl
  | uint64 value => rfl
  | double x => rfl
  | int32 value => cases family <;> cases h
  | shift value => cases family <;> cases h

/-- Writing a result overwrites the place of the result and no other. -/
theorem State.content_store (s : State) {d : Instruction}
    (hd : d.registerC.toNat < registerCount) {value : Scalar}
    (hvalue : value.type = d.family.signature.c) :
    (s.store d value).content = d.overwrite s.content value := by
  funext place
  have hdestination := d.destination_eq
  unfold Instruction.overwrite Instruction.resultPlace
  split at hdestination
  · next h =>
    simp only [store, hdestination, if_pos h]
    cases place with
    | integer number => rfl
    | float number => rfl
    | cell j =>
      have hget (pad : Vector Cell scratchpadLength) : pad.get j = pad[j] := rfl
      simp only [content, hget, Fin.getElem_fin, Vector.getElem_set, Storage.cell.injEq,
        Fin.ext_iff, eq_comm (a := j.val)]
      split
      · next hj =>
        simp only [hj]
        exact Cell.bits_store _ j hvalue
      · rfl
  · next h =>
    simp only [store, hdestination, if_neg h]
    rw [← hvalue]
    cases value with
    | double x =>
      cases place with
      | float number =>
        simp only [content, RegisterFile.read_write, hd, and_true, Scalar.type, if_pos,
          Storage.float.injEq, eq_comm (a := number)]
        split <;> rfl
      | integer number => rfl
      | cell j => rfl
    | _ =>
      cases place with
      | integer number =>
        simp only [content, RegisterFile.read_write, hd, and_true, Scalar.type, reduceCtorEq,
          if_false, Storage.integer.injEq, eq_comm (a := number)]
        split <;> rfl
      | float number => rfl
      | cell j => rfl

end RandomMachine
