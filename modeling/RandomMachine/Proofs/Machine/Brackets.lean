import RandomMachine.Proofs.Machine.Transition

/-!
# Calls and returns as brackets

A step changes the stack by at most one frame at its end. So the step after which a stack is for the
first time as high as before a call has popped the frame of that call, and it is a return that knows
what the call pushed. Frames below the call are out of reach until then.
-/

namespace RandomMachine.Machine

variable {m : Machine} {s : State}

/-- Writing a result and moving on leaves the stack alone. -/
theorem stack_continueAt_store (slot : UInt64) (s : State) (d : Instruction) (value : Scalar) :
    (continueAt slot (s.store d value)).2.stack = s.stack :=
  State.store_stack s d value

/-- The next step takes a call: there is budget, the condition holds, and the stack has room. -/
structure TakesCall (m : Machine) (s : State) : Prop where
  budget : s.budget ≠ 0
  family : (m.instruction s.slot).family = .call
  condition : (m.fetch s).2.condition (m.instruction s.slot) = true
  room : 2 * (s.stack.size + 1) ≤ m.settings.stackLength.toNat

/-- The frame of a call: operand A with the next slot. -/
def callFrame (m : Machine) (s : State) : Frame :=
  ⟨(m.fetch s).1.bits, m.settings.nextSlot s.slot⟩

/-- A taken call pushes its frame and goes on at its target. -/
theorem TakesCall.step_eq (h : m.TakesCall s) :
    m.step s = continueAt (m.settings.callTarget s.slot (m.instruction s.slot).shortImmediate)
      { (m.fetch s).2 with stack := s.stack.push (m.callFrame s) } := by
  have hroom := h.room
  generalize hp : m.step s = p
  cases hp ▸ m.transition_step s with
  | halt hb => exact absurd hb h.budget
  | overflow _ _ _ hfull => omega
  | call => rfl
  | ret _ hf => exact absurd (h.family.symm.trans hf) (by decide)
  | pass _ hreason =>
    rcases hreason with ⟨-, hc⟩ | ⟨hf, -⟩
    · exact absurd (h.condition.symm.trans hc) (by decide)
    · exact absurd (h.family.symm.trans hf) (by decide)
  | compute _ hcall => exact absurd h.family hcall

/-- A taken call leaves its frame on top of the stack. -/
theorem TakesCall.stack_step (h : m.TakesCall s) :
    (m.step s).2.stack = s.stack.push (m.callFrame s) := by
  rw [h.step_eq]
  rfl

/-- A step leaves the stack as it is, or pushes a frame, or pops one. -/
theorem stack_step (m : Machine) (s : State) :
    (m.step s).2.stack = s.stack ∨ (∃ frame, (m.step s).2.stack = s.stack.push frame) ∨
      ∃ frame, s.stack = (m.step s).2.stack.push frame := by
  generalize hp : m.step s = p
  cases hp ▸ m.transition_step s with
  | halt => exact .inl rfl
  | overflow => exact .inl (m.fetch_stack s)
  | call => exact .inr (.inl ⟨_, rfl⟩)
  | ret _ _ _ stack frame hpops =>
    refine .inr (.inr ⟨frame, ?_⟩)
    rw [stack_continueAt_store]
    exact hpops
  | pass =>
    rw [stack_continueAt_store]
    exact .inl (m.fetch_stack s)
  | compute => exact .inl ((State.store_stack _ _ _).trans (m.fetch_stack s))

/-- A step that leaves fewer frames than it found is a return that pops the last of them. -/
theorem step_of_size_lt (h : (m.step s).2.stack.size < s.stack.size) :
    ∃ frame, s.budget ≠ 0 ∧ (m.instruction s.slot).family = .ret ∧
      s.stack = (m.step s).2.stack.push frame ∧
      m.step s = continueAt frame.returnSlot
        ({ (m.fetch s).2 with stack := (m.step s).2.stack }.store (m.instruction s.slot)
          (.uint64 ((m.fetch s).1.bits ^^^ frame.value))) := by
  generalize hp : m.step s = p at h ⊢
  cases hp ▸ m.transition_step s with
  | halt => exact absurd h (Nat.lt_irrefl _)
  | overflow =>
    rw [fetch_stack] at h
    exact absurd h (Nat.lt_irrefl _)
  | call =>
    have hsize : (s.stack.push _).size < s.stack.size := h
    rw [Array.size_push] at hsize
    omega
  | ret hb hf _ stack frame hpops =>
    rw [stack_continueAt_store]
    exact ⟨frame, hb, hf, hpops, rfl⟩
  | pass =>
    rw [stack_continueAt_store, fetch_stack] at h
    exact absurd h (Nat.lt_irrefl _)
  | compute =>
    have hsize : (State.store _ _ _).stack.size < s.stack.size := h
    rw [State.store_stack, fetch_stack] at hsize
    exact absurd hsize (Nat.lt_irrefl _)

/-- One step keeps the frames up to a height that it does not go below. -/
theorem prefix_step {base : List Frame} (h : base <+: s.stack.toList)
    (hsize : (m.step s).2.stack.size + 1 ≠ base.length) : base <+: (m.step s).2.stack.toList := by
  rcases m.stack_step s with hstack | ⟨frame, hstack⟩ | ⟨frame, hstack⟩
  · rwa [hstack]
  · rw [hstack, Array.toList_push]
    exact h.trans (List.prefix_append _ _)
  · rw [hstack, Array.toList_push, List.prefix_concat_iff] at h
    rcases h with rfl | h
    · rw [List.length_append, Array.length_toList] at hsize
      exact absurd rfl hsize
    · exact h

/-- A run keeps the frames up to a height that no step of it goes below. -/
theorem prefix_after {base : List Frame} {k : Nat} (h : base <+: (m.after s k).stack.toList)
    {n : Nat} (hn : k ≤ n)
    (hsize : ∀ i, k ≤ i → i < n → (m.after s (i + 1)).stack.size + 1 ≠ base.length) :
    base <+: (m.after s n).stack.toList := by
  induction n with
  | zero =>
    obtain rfl : k = 0 := by omega
    exact h
  | succ n ih =>
    rcases Nat.eq_or_lt_of_le hn with rfl | hlt
    · exact h
    · have hbefore := ih (by omega) fun i hi hin => hsize i hi (by omega)
      exact prefix_step hbefore (hsize n (by omega) (by omega))

/-- A call that is not closed keeps its own frame and those before it. -/
theorem TakesCall.prefix_after {k j : Nat} (hcall : m.TakesCall (m.after s k))
    (hfirst : ∀ i, k < i → i < j → (m.after s (i + 1)).stack.size ≠ (m.after s k).stack.size)
    {i : Nat} (hki : k < i) (hij : i ≤ j) :
    (m.after s k).stack.toList ++ [m.callFrame (m.after s k)] <+: (m.after s i).stack.toList := by
  have hstart : (m.after s (k + 1)).stack.toList =
      (m.after s k).stack.toList ++ [m.callFrame (m.after s k)] := by
    change (m.step (m.after s k)).2.stack.toList = _
    rw [hcall.stack_step, Array.toList_push]
  apply Machine.prefix_after (hstart ▸ List.prefix_refl _) hki
  intro l hkl hli
  rw [List.length_append, Array.length_toList]
  have := hfirst l hkl (by omega)
  change _ ≠ _ + 1
  omega

/-- Popping a stack down to frames below another one takes that other one off. -/
theorem eq_of_prefix_push {base : List Frame} {top frame : Frame} {rest : Array Frame}
    (h : base ++ [top] <+: (rest.push frame).toList) (hsize : rest.toList.length = base.length) :
    rest.toList = base ∧ frame = top := by
  rw [Array.toList_push] at h
  have hlength : (base ++ [top]).length = (rest.toList ++ [frame]).length := by
    rw [List.length_append, List.length_append, hsize]
    rfl
  obtain ⟨hbase, htop⟩ := List.append_inj' (h.eq_of_length hlength) rfl
  exact ⟨hbase.symm, (List.cons.inj htop).1.symm⟩

/-- A call is closed by a return. Step `k` takes a call, and step `j` is the first later step after
which the stack is as high as before the call. Then step `j` takes a return that stores its own
operand A mixed with that of the call, the run goes on in the slot after the call, and all frames
that were on the stack before the call stay where they are all along. -/
theorem return_of_call {k j : Nat} (hcall : m.TakesCall (m.after s k)) (hkj : k < j)
    (hclosed : (m.after s (j + 1)).stack.size = (m.after s k).stack.size)
    (hfirst : ∀ i, k < i → i < j → (m.after s (i + 1)).stack.size ≠ (m.after s k).stack.size) :
    (m.after s j).budget ≠ 0 ∧ (m.instruction (m.after s j).slot).family = .ret ∧
      m.step (m.after s j) = continueAt (m.settings.nextSlot (m.after s k).slot)
        ({ (m.fetch (m.after s j)).2 with stack := (m.after s k).stack }.store
          (m.instruction (m.after s j).slot)
          (.uint64 ((m.fetch (m.after s j)).1.bits ^^^ (m.fetch (m.after s k)).1.bits))) ∧
      (m.after s (j + 1)).slot = m.settings.nextSlot (m.after s k).slot ∧
      ∀ i, k ≤ i → i ≤ j + 1 → (m.after s k).stack.toList <+: (m.after s i).stack.toList := by
  have hopened := hcall.prefix_after hfirst hkj (Nat.le_refl j)
  have hheight := hopened.length_le
  simp only [List.length_append, Array.length_toList, List.length_singleton] at hheight
  -- Step `j` leaves fewer frames than it found, so it pops the one that the call has pushed.
  have hless : (m.step (m.after s j)).2.stack.size < (m.after s j).stack.size := by
    change (m.after s (j + 1)).stack.size < _
    omega
  obtain ⟨frame, hbudget, hfamily, hpops, hstep⟩ := step_of_size_lt hless
  rw [hpops] at hopened
  obtain ⟨hbase, rfl⟩ := eq_of_prefix_push hopened hclosed
  have hstack : (m.step (m.after s j)).2.stack = (m.after s k).stack := Array.toList_inj.mp hbase
  rw [hstack] at hstep
  refine ⟨hbudget, hfamily, hstep, ?_, ?_⟩
  · change (m.step (m.after s j)).2.slot = _
    rw [hstep]
    rfl
  · intro i hki hij
    rcases Nat.eq_or_lt_of_le hki with rfl | hki
    · exact List.prefix_refl _
    rcases Nat.eq_or_lt_of_le hij with rfl | hij
    · exact ⟨[], (List.append_nil _).trans hbase.symm⟩
    · exact (List.prefix_append _ _).trans (hcall.prefix_after hfirst hki (by omega))

/-- Two calls, the second one inside the first, and the two returns that close them. -/
def nestedCalls : Machine where
  settings := { programSize := 4 }
  instructions :=
    #[{ opcode := 224, placeB := 6 }, { opcode := 224, placeB := 6 },
      { opcode := 241, placeB := 6, placeC := 4 }, { opcode := 241, placeB := 6, placeC := 4 }]

/-- The outer call of two is closed by the second return, which runs in the slot that the first one
returned to. It writes the word that it has read itself, mixed with the one that the outer call has
read. -/
theorem return_of_call_nested :
    nestedCalls.TakesCall (nestedCalls.after zeroState 0) ∧
      (nestedCalls.instruction (nestedCalls.after zeroState 3).slot).family = .ret ∧
      (nestedCalls.after zeroState 4).r.read 0 =
        (nestedCalls.fetch (nestedCalls.after zeroState 3)).1.bits ^^^
          (nestedCalls.fetch (nestedCalls.after zeroState 0)).1.bits ∧
      (nestedCalls.after zeroState 4).r.read 0 = 0xD20CECC84FB124C0 ∧
      (nestedCalls.after zeroState 4).slot =
        nestedCalls.settings.nextSlot (nestedCalls.after zeroState 0).slot ∧
      ∀ i, 0 ≤ i → i ≤ 4 →
        (nestedCalls.after zeroState 0).stack.toList <+:
          (nestedCalls.after zeroState i).stack.toList := by
  have hcall : nestedCalls.TakesCall (nestedCalls.after zeroState 0) :=
    ⟨by decide, by decide, by decide, by decide⟩
  have hfirst (i : Nat) (h : 0 < i) (hlt : i < 3) :
      (nestedCalls.after zeroState (i + 1)).stack.size ≠
        (nestedCalls.after zeroState 0).stack.size := by
    obtain rfl | rfl : i = 1 ∨ i = 2 := by omega
    · decide
    · decide
  obtain ⟨-, hfamily, hstep, hslot, hframes⟩ :=
    return_of_call (j := 3) hcall (by decide) (by decide) hfirst
  have hdestination : (nestedCalls.instruction (nestedCalls.after zeroState 3).slot).destination =
      .register 0 := by decide
  have hstored : (nestedCalls.after zeroState 4).r.read 0 =
      (nestedCalls.fetch (nestedCalls.after zeroState 3)).1.bits ^^^
        (nestedCalls.fetch (nestedCalls.after zeroState 0)).1.bits := by
    change (nestedCalls.step (nestedCalls.after zeroState 3)).2.r.read 0 = _
    rw [hstep, State.store, hdestination]
    exact (RegisterFile.read_write _ 0 0 _).trans (if_pos ⟨rfl, by decide⟩)
  exact ⟨hcall, hfamily, hstored, by decide +kernel, hslot, hframes⟩

end RandomMachine.Machine
