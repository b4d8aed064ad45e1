import RandomMachine.Proofs.Machine.Storage

/-!
# Flow of information

A view shows a part of a state: some cells of the scratchpad, and the float side or not. A program
that reads no other cells, and lets no float result into memory unless the float side is shown, keeps
to the view: what it does not show never reaches what it shows, however long the machine runs.
-/

namespace RandomMachine

/-- A part of a state. The integer registers, the stack, the cursor, the slot and the counters
belong to every part. -/
structure View where
  /-- The cells of the scratchpad that are shown. -/
  cells : Fin scratchpadLength → Prop
  /-- Whether the float registers and the rounding mode are shown. -/
  floats : Prop

/-! ### Results -/

/-- A float family yields a double. -/
theorem State.result_of_float (s : State) {d : Instruction} (hd : d.family.familyClass = .float)
    (a : Cell) : ∃ x, s.result d a = .double x := by
  unfold result
  revert hd
  cases d.family <;> intro hd <;> first | exact ⟨_, rfl⟩ | cases hd

namespace View

/-- Two states that look the same. -/
structure Agrees (view : View) (s t : State) : Prop where
  r : s.r = t.r
  stack : s.stack = t.stack
  cursor : s.cursor = t.cursor
  budget : s.budget = t.budget
  slot : s.slot = t.slot
  executed : s.executed = t.executed
  cells : ∀ i, view.cells i → s.scratchpad[i] = t.scratchpad[i]
  f : view.floats → s.f = t.f
  mode : view.floats → s.mode = t.mode

/-- An instruction that keeps to a view: a cell that it reads is shown, and a float result goes to a
register if the float side is not shown. -/
structure Covers (view : View) (d : Instruction) : Prop where
  source : ∀ window, d.sourceA = .scratchpad window → ∀ address, view.cells (window.index address)
  result : d.family.familyClass = .float → ¬view.floats → ∃ number, d.destination = .register number

variable {view : View} {s t : State} {d : Instruction}

namespace Agrees

/-- Mixing a constant into a register keeps states alike. -/
theorem spend_mixAddress (h : view.Agrees s t) (d : Instruction) :
    view.Agrees (s.spend.mixAddress d) (t.spend.mixAddress d) := by
  obtain ⟨hr, hstack, hcursor, hbudget, hslot, hexecuted, hcells, hf, hmode⟩ := h
  constructor <;> simp_all [State.mixAddress, State.spend]

/-- Operand A is the same, and states stay alike when it has been read. -/
theorem readA (h : view.Agrees s t) (hd : view.Covers d) :
    (s.readA d).1 = (t.readA d).1 ∧ view.Agrees (s.readA d).2 (t.readA d).2 := by
  have haddress : s.address d = t.address d := by rw [State.address, State.address, h.r]
  unfold State.readA
  cases hsource : d.sourceA with
  | dram =>
    dsimp only
    rw [haddress, h.cursor]
    exact ⟨rfl, { h with cursor := rfl }⟩
  | scratchpad window =>
    simp only [haddress]
    exact ⟨h.cells _ (hd.source window hsource _), h⟩

/-- A call or return is taken in both states or in neither. -/
theorem condition (h : view.Agrees s t) (d : Instruction) : s.condition d = t.condition d := by
  rw [State.condition, State.condition, h.r]

/-- Storing into a cell keeps all cells alike that are shown, the high half of a cell included of
which only the low half is written. -/
theorem set_cell (h : view.Agrees s t) (j : Fin scratchpadLength) (value : Scalar)
    (i : Fin scratchpadLength) (hi : view.cells i) :
    (s.scratchpad.set j (s.scratchpad[j].store value))[i] =
      (t.scratchpad.set j (t.scratchpad[j].store value))[i] := by
  have hcell := h.cells i hi
  simp only [Fin.getElem_fin, Vector.getElem_set] at hcell ⊢
  split
  · next hij => simp only [hij, hcell]
  · exact hcell

/-- Writing the same result keeps states alike. -/
theorem store (h : view.Agrees s t) (d : Instruction) (value : Scalar) :
    view.Agrees (s.store d value) (t.store d value) := by
  unfold State.store
  cases d.destination with
  | register number =>
    cases value with
    | double x => exact { h with f := fun hfloats => by simp only [h.f hfloats] }
    | _ => exact { h with r := by simp only [h.r] }
  | scratchpad window register address =>
    simp only [h.r]
    exact { h with r := rfl, cells := h.set_cell _ value }

/-- Different doubles may be written to a register of a file that is not shown. -/
theorem store_double (h : view.Agrees s t) (hfloats : ¬view.floats) {number : UInt8}
    (hd : d.destination = .register number) (x y : Binary64) :
    view.Agrees (s.store d (.double x)) (t.store d (.double y)) := by
  simp only [State.store, hd]
  exact { h with f := fun hshown => absurd hshown hfloats }

/-- An integer result does not depend on the float side. -/
theorem result_of_ne_float (h : view.Agrees s t) (hd : d.family.familyClass ≠ .float) (a : Cell) :
    s.result d a = t.result d a := by
  have hb (type : OperandType) : s.integerB d type = t.integerB d type := by
    rw [State.integerB, State.integerB, h.r]
  unfold State.result
  split
  case h_7 => simp only [hb]
  all_goals
    next hfamily =>
      rw [hfamily] at hd
      exact absurd rfl hd

/-- No result depends on what is not shown if the float side is. -/
theorem result_of_floats (h : view.Agrees s t) (hfloats : view.floats) (d : Instruction)
    (a : Cell) : s.result d a = t.result d a := by
  simp only [State.result, State.floatA, State.floatB, State.integerB, h.r, h.f hfloats,
    h.mode hfloats]

/-- The rounding mode is set alike. -/
theorem nextMode (h : view.Agrees s t) (hfloats : view.floats) (d : Instruction) (a : Cell) :
    s.nextMode d a = t.nextMode d a := by
  rw [State.nextMode, State.nextMode, h.mode hfloats]

/-- Each state's own result keeps states alike. -/
theorem store_result (h : view.Agrees s t) (hd : view.Covers d) (a : Cell) :
    view.Agrees { s.store d (s.result d a) with mode := s.nextMode d a }
      { t.store d (t.result d a) with mode := t.nextMode d a } := by
  by_cases hfloats : view.floats
  · rw [h.result_of_floats hfloats]
    exact { h.store d _ with mode := fun _ => h.nextMode hfloats d a }
  have hstore : view.Agrees (s.store d (s.result d a)) (t.store d (t.result d a)) := by
    by_cases hclass : d.family.familyClass = .float
    · obtain ⟨number, hregister⟩ := hd.result hclass hfloats
      obtain ⟨x, hx⟩ := s.result_of_float hclass a
      obtain ⟨y, hy⟩ := t.result_of_float hclass a
      rw [hx, hy]
      exact h.store_double hfloats hregister x y
    · rw [h.result_of_ne_float hclass]
      exact h.store d _
  exact { hstore with mode := fun hshown => absurd hshown hfloats }

/-- States that look alike with the float side differ in cells alone. -/
theorem eq_of_floats (h : view.Agrees s t) (hfloats : view.floats) :
    t = { s with scratchpad := t.scratchpad } := by
  have hf := h.f hfloats
  have hmode := h.mode hfloats
  obtain ⟨hr, hstack, hcursor, hbudget, hslot, hexecuted⟩ := h
  cases t
  simp_all

/-- States that look alike with all cells differ in the float side alone. -/
theorem eq_of_cells (h : view.Agrees s t) (hcells : ∀ i, view.cells i) :
    t = { s with f := t.f, mode := t.mode } := by
  have hscratchpad : s.scratchpad = t.scratchpad :=
    Vector.ext fun i hi => h.cells ⟨i, hi⟩ (hcells _)
  obtain ⟨hr, hstack, hcursor, hbudget, hslot, hexecuted⟩ := h
  cases t
  simp_all

end Agrees

/-- What two steps lead to looks the same. -/
def AgreesAfter (view : View) (p q : Progress × State) : Prop := p.1 = q.1 ∧ view.Agrees p.2 q.2

/-- Replacing both stacks by one keeps states alike. -/
theorem Agrees.withStack (h : view.Agrees s t) (stack : Array Frame) :
    view.Agrees { s with stack } { t with stack } :=
  { h with stack := rfl }

/-- Going on in the same slot keeps states alike. -/
theorem Agrees.continueAt (h : view.Agrees s t) (slot : UInt64) :
    view.AgreesAfter (Machine.continueAt slot s) (Machine.continueAt slot t) :=
  ⟨rfl, { h with slot := rfl }⟩

variable {m : Machine}

/-- A call is taken alike. -/
theorem Agrees.call (h : view.Agrees s t) (d : Instruction) (value : UInt64) :
    view.AgreesAfter (m.call d value s) (m.call d value t) := by
  have hnext : m.settings.nextSlot s.slot = m.settings.nextSlot t.slot := by rw [h.slot]
  have htarget : m.settings.callTarget s.slot d.shortImmediate =
      m.settings.callTarget t.slot d.shortImmediate := by rw [h.slot]
  unfold Machine.call
  rw [h.stack, hnext, htarget]
  split
  · rw [h.slot, h.executed]
    exact ⟨rfl, h⟩
  · exact (h.withStack _).continueAt _

/-- An instruction executes alike once operand A has been read. -/
theorem Agrees.execute (h : view.Agrees s t) (hd : view.Covers d) (a : Cell) :
    view.AgreesAfter (m.execute d a s) (m.execute d a t) := by
  have hnext : m.settings.nextSlot s.slot = m.settings.nextSlot t.slot := by rw [h.slot]
  unfold Machine.execute
  rw [hnext, h.condition d, h.stack]
  split
  · split
    · exact h.call d _
    · exact (h.store d _).continueAt _
  · split
    · exact ((h.withStack t.stack.pop).store d _).continueAt _
    · exact (h.store d _).continueAt _
  · exact (h.store_result hd a).continueAt _

/-- The next instruction finds the same operand A. -/
theorem Agrees.fetch (h : view.Agrees s t) (hd : view.Covers (m.instruction s.slot)) :
    (m.fetch s).1 = (m.fetch t).1 ∧ view.Agrees (m.fetch s).2 (m.fetch t).2 := by
  rw [Machine.fetch, Machine.fetch, ← h.slot]
  exact (h.spend_mixAddress _).readA hd

/-- A step keeps states alike, and reports the same. -/
theorem Agrees.step (h : view.Agrees s t) (hd : view.Covers (m.instruction s.slot)) :
    view.AgreesAfter (m.step s) (m.step t) := by
  by_cases hbudget : s.budget = 0
  · rw [m.step_of_budget_zero s hbudget, m.step_of_budget_zero t (h.budget ▸ hbudget), h.executed]
    exact ⟨rfl, h⟩
  · obtain ⟨ha, hfetch⟩ := h.fetch hd
    rw [m.step_of_budget_ne_zero s hbudget, m.step_of_budget_ne_zero t (h.budget ▸ hbudget), ← ha,
      ← h.slot]
    exact hfetch.execute hd _

/-- A run keeps states alike. -/
theorem Agrees.after (h : view.Agrees s t) (hd : ∀ slot, view.Covers (m.instruction slot))
    (n : Nat) : view.Agrees (m.after s n) (m.after t n) := by
  induction n with
  | zero => exact h
  | succ n ih => exact (ih.step (hd _)).2

end View

namespace Machine

variable {m : Machine}

/-! ### Cells outside the small window -/

/-- What the small window shows of the scratchpad, with the float side. -/
def smallWindow : View where
  cells := fun i => i.val < 2048
  floats := True

/-- An instruction keeps to the small window unless it reads operand A from place four. -/
theorem covers_smallWindow {d : Instruction} (h : d.placeA % 8 ≠ 4) : smallWindow.Covers d where
  source := by
    intro window hsource address
    cases window with
    | l1 =>
      change (Window.l1.index address).val < 2048
      rw [Window.val_index]
      exact Nat.mod_lt _ (by decide)
    | l2 => exact absurd (d.placeA_of_sourceA hsource) h
  result := fun _ hfloats => absurd trivial hfloats

/-- No cell outside the small window matters to a program that reads operand A from nowhere else.
Two states that differ in such cells alone go through states that differ in such cells alone, and
every step reports the same. -/
theorem no_flow_from_far_cells (hplaces : ∀ d ∈ m.instructions, d.placeA % 8 ≠ 4) (s : State)
    (cells : Vector Cell scratchpadLength)
    (hcells : ∀ i : Fin scratchpadLength, i.val < 2048 → cells[i] = s.scratchpad[i]) (n : Nat) :
    let t := m.after { s with scratchpad := cells } n
    t = { m.after s n with scratchpad := t.scratchpad } ∧
      (∀ i : Fin scratchpadLength, i.val < 2048 →
        t.scratchpad[i] = (m.after s n).scratchpad[i]) ∧
      (m.step t).1 = (m.step (m.after s n)).1 := by
  intro t
  have hcovers (slot : UInt64) : smallWindow.Covers (m.instruction slot) :=
    covers_smallWindow (instruction_of_forall hplaces (by decide) slot)
  have hstart : smallWindow.Agrees s { s with scratchpad := cells } := by
    constructor
    case cells => exact fun i hi => (hcells i hi).symm
    all_goals first | rfl | exact fun _ => rfl
  have hrun := hstart.after hcovers n
  exact ⟨hrun.eq_of_floats trivial, fun i hi => (hrun.cells i hi).symm,
    (hrun.step (hcovers _)).1.symm⟩

/-- A program that stores the low half of cell 5000, and reads operand A in the small window. -/
def farStores : Machine where
  settings := { programSize := 4 }
  instructions :=
    #[{ opcode := 14, placeA := 5, placeB := 6, immediate := 5000 }, { opcode := 14, placeA := 7 },
      { opcode := 224, placeA := 6 }, { opcode := 241, placeA := 5 }]

/-- Cell 5000 starts with a high half that differs, and it is written; everything else stays the
same. -/
theorem no_flow_from_far_cells_stores :
    let cells := zeroState.scratchpad.set 5000 ⟨0x900000001⟩
    cells[5000] ≠ zeroState.scratchpad[5000] ∧
      let t := farStores.after { zeroState with scratchpad := cells } 7
      t = { farStores.after zeroState 7 with scratchpad := t.scratchpad } ∧
        (∀ i : Fin scratchpadLength, i.val < 2048 →
          t.scratchpad[i] = (farStores.after zeroState 7).scratchpad[i]) ∧
        (farStores.step t).1 = (farStores.step (farStores.after zeroState 7)).1 := by
  intro cells
  have hcells (i : Fin scratchpadLength) (hi : i.val < 2048) :
      cells[i] = zeroState.scratchpad[i] := Vector.getElem_set_ne (by decide) i.isLt (by omega)
  have hdiffer : cells[5000] ≠ zeroState.scratchpad[5000] := by
    simp [cells, zeroState]
  exact ⟨hdiffer, no_flow_from_far_cells (by decide) zeroState cells hcells 7⟩

/-! ### Float registers and the rounding mode -/

/-- All that is shown without the float side. -/
def integerSide : View where
  cells := fun _ => True
  floats := False

/-- An instruction keeps to the integer side unless it stores a double in the scratchpad. -/
theorem covers_integerSide {d : Instruction}
    (h : d.family.familyClass = .float → 4 ≤ d.placeC % 8) : integerSide.Covers d where
  source := fun _ _ _ => trivial
  result := fun hclass _ => ⟨d.registerC, d.destination_of_placeC (h hclass)⟩

/-- The next step sets the rounding mode. -/
def SetsMode (m : Machine) (s : State) : Prop :=
  s.budget ≠ 0 ∧ (m.instruction s.slot).family = .fround

/-- A rounding instruction takes the rounding mode from operand A. -/
theorem SetsMode.mode_step {s : State} (h : m.SetsMode s) :
    (m.step s).2.mode = .ofWord (m.fetch s).1.bits := by
  rw [m.step_of_budget_ne_zero s h.1, execute, h.2]
  dsimp only [continueAt]
  rw [State.nextMode, if_pos h.2]

/-- All other steps leave the rounding mode alone. -/
theorem mode_step_of_not_setsMode {s : State} (h : ¬m.SetsMode s) : (m.step s).2.mode = s.mode := by
  generalize hp : m.step s = p
  cases hp ▸ m.transition_step s with
  | halt => rfl
  | overflow => exact m.fetch_mode s
  | call => exact m.fetch_mode s
  | ret => exact (State.store_mode _ _ _).trans (m.fetch_mode s)
  | pass => exact (State.store_mode _ _ _).trans (m.fetch_mode s)
  | compute hbudget =>
    change State.nextMode _ _ _ = _
    rw [State.nextMode, if_neg fun hfamily => h ⟨hbudget, hfamily⟩, fetch_mode]

/-- States that look alike have the same rounding mode as soon as a step has set it. -/
theorem mode_after_of_setsMode {view : View} {s t : State} (h : view.Agrees s t)
    (hd : ∀ slot, view.Covers (m.instruction slot)) {i n : Nat} (hin : i < n)
    (hsets : m.SetsMode (m.after s i)) : (m.after t n).mode = (m.after s n).mode := by
  induction n with
  | zero => omega
  | succ n ih =>
    have hn := h.after hd n
    have hiff : m.SetsMode (m.after t n) ↔ m.SetsMode (m.after s n) := by
      rw [SetsMode, SetsMode, hn.budget, hn.slot]
    rw [after, after]
    by_cases hlast : m.SetsMode (m.after s n)
    · rw [hlast.mode_step, (hiff.mpr hlast).mode_step, (hn.fetch (hd _)).1]
    · have hlt : i < n := by
        rcases Nat.lt_succ_iff_lt_or_eq.mp hin with hlt | rfl
        · exact hlt
        · exact absurd hsets hlast
      rw [mode_step_of_not_setsMode hlast, mode_step_of_not_setsMode (mt hiff.mp hlast), ih hlt]

/-- The float side never feeds the integer side of a program whose float results all go to
registers. Two states that differ in their float registers and rounding modes alone go through
states that differ in nothing else, every step reports the same, and the rounding modes are equal
once a step has set them. -/
theorem no_flow_from_floats
    (hplaces : ∀ d ∈ m.instructions, d.family.familyClass = .float → 4 ≤ d.placeC % 8) (s : State)
    (f : RegisterFile Binary64) (mode : RoundingMode) (n : Nat) :
    let t := m.after { s with f, mode } n
    t = { m.after s n with f := t.f, mode := t.mode } ∧
      (m.step t).1 = (m.step (m.after s n)).1 ∧
      ∀ i < n, m.SetsMode (m.after s i) → t.mode = (m.after s n).mode := by
  intro t
  have hcovers (slot : UInt64) : integerSide.Covers (m.instruction slot) :=
    covers_integerSide (instruction_of_forall hplaces (by decide) slot)
  have hstart : integerSide.Agrees s { s with f, mode } := by
    constructor
    case f | mode => exact False.elim
    all_goals first | rfl | exact fun _ _ => rfl
  have hrun := hstart.after hcovers n
  exact ⟨hrun.eq_of_cells fun _ => trivial, (hrun.step (hcovers _)).1.symm,
    fun i hin hsets => mode_after_of_setsMode hstart hcovers hin hsets⟩

/-- A program that sets the rounding mode, adds, and stores an integer. -/
def roundingSums : Machine where
  settings := { programSize := 4 }
  instructions :=
    #[{ opcode := 222, placeA := 5, placeC := 4 }, { opcode := 158, placeC := 7, registerC := 3 },
      { opcode := 0, placeB := 6, immediate := 9 }, { opcode := 241 }]

/-- Other float registers and another rounding mode change nothing else, and the first instruction
makes the rounding modes equal. -/
theorem no_flow_from_floats_sums :
    let t := roundingSums.after
      { zeroState with f := Vector.replicate registerCount ⟨9⟩, mode := .up } 6
    t = { roundingSums.after zeroState 6 with f := t.f, mode := t.mode } ∧
      (roundingSums.step t).1 = (roundingSums.step (roundingSums.after zeroState 6)).1 ∧
      t.mode = (roundingSums.after zeroState 6).mode := by
  intro t
  have hsets : roundingSums.SetsMode (roundingSums.after zeroState 0) := ⟨by decide, by decide⟩
  obtain ⟨hstate, hstep, hmode⟩ := no_flow_from_floats (m := roundingSums) (by decide) zeroState
    (Vector.replicate registerCount ⟨9⟩) .up 6
  exact ⟨hstate, hstep, hmode 0 (by decide) hsets⟩

end Machine
end RandomMachine
