import Mathlib.Algebra.Ring.Nat
import RandomMachine.Tally.Basic

/-!
# Counters of tallies

Each counter of a tally counts the instructions that meet a condition of its own, so the order of
the instructions does not matter and the counters of two parts add up. Counters that between them
count every instruction equally often have equal totals: this is how the families, the kinds of
families, the reads and the destinations of a program balance its slots.
-/

namespace RandomMachine

/-- The counters of a tally. -/
inductive Counter
  | slots
  | ofFamily (family : Family)
  | ofClass (kind : FamilyClass)
  | calls (conditional : Bool)
  | returns (conditional : Bool)
  | dramReads
  | scratchpadReads
  | memoryDestinations
  | registerDestinations
  deriving DecidableEq, Repr

/-- Number of calls or returns with or without a condition. -/
def BranchCount.value (count : BranchCount) (conditional : Bool) : Nat :=
  if conditional then count.conditional else count.unconditional

/-- Recording a call or return adds to the one counter of its condition. -/
theorem BranchCount.value_record (count : BranchCount) (conditional other : Bool) :
    (count.record conditional).value other =
      count.value other + (conditional == other).toNat := by
  cases conditional <;> cases other <;> rfl

namespace Counter

/-- Value of a counter. -/
def value : Counter → Tally → Nat
  | .slots, tally => tally.slots
  | .ofFamily family, tally => tally.ofFamily family
  | .ofClass kind, tally => tally.ofClass kind
  | .calls conditional, tally => tally.calls.value conditional
  | .returns conditional, tally => tally.returns.value conditional
  | .dramReads, tally => tally.dramReads
  | .scratchpadReads, tally => tally.scratchpadReads
  | .memoryDestinations, tally => tally.memoryDestinations
  | .registerDestinations, tally => tally.registerDestinations

/-- Whether a counter counts an instruction. -/
def counts : Counter → Instruction → Bool
  | .slots, _ => true
  | .ofFamily family, d => decide (d.family = family)
  | .ofClass kind, d => decide (d.family.familyClass = kind)
  | .calls conditional, d => decide (d.family = .call) && d.isConditional == conditional
  | .returns conditional, d => decide (d.family = .ret) && d.isConditional == conditional
  | .dramReads, d => decide (d.sourceA = .dram)
  | .scratchpadReads, d => decide (d.sourceA ≠ .dram)
  | .memoryDestinations, d => d.writesDestination && d.destination.isMemory
  | .registerDestinations, d => d.writesDestination && !d.destination.isMemory

/-! ### Recording -/

/-- Families have positions of their own. -/
theorem index_family_inj {family other : Family} : family.index = other.index ↔ family = other := by
  refine ⟨fun h => ?_, congrArg _⟩
  have hget := Family.getElem?_all_index family
  rw [h, Family.getElem?_all_index] at hget
  exact (Option.some.inj hget).symm

/-- Kinds of families have positions of their own. -/
theorem index_kind_inj {kind other : FamilyClass} : kind.index = other.index ↔ kind = other := by
  cases kind <;> cases other <;> decide

/-- Recording an instruction adds one to the counters that count it. -/
theorem value_record (counter : Counter) (tally : Tally) (d : Instruction) :
    counter.value (tally.record d) = counter.value tally + (counter.counts d).toNat := by
  cases counter with
  | slots => rfl
  | ofFamily family =>
    simp only [value, counts, Tally.ofFamily, Tally.record, Tally.getElem_increment,
      index_family_inj]
    by_cases h : d.family = family <;> simp [h]
  | ofClass kind =>
    simp only [value, counts, Tally.ofClass, Tally.record, Tally.getElem_increment, index_kind_inj]
    by_cases h : d.family.familyClass = kind <;> simp [h]
  | calls conditional =>
    simp only [value, counts, Tally.record]
    by_cases h : d.family = .call <;> simp [h, BranchCount.value_record]
  | returns conditional =>
    simp only [value, counts, Tally.record]
    by_cases h : d.family = .ret <;> simp [h, BranchCount.value_record]
  | dramReads =>
    simp only [value, counts, Tally.record]
    by_cases h : d.sourceA = .dram <;> simp [h]
  | scratchpadReads =>
    simp only [value, counts, Tally.record]
    by_cases h : d.sourceA = .dram <;> simp [h]
  | memoryDestinations =>
    simp only [value, counts, Tally.record]
    cases d.writesDestination && d.destination.isMemory <;> rfl
  | registerDestinations =>
    simp only [value, counts, Tally.record]
    cases d.writesDestination && !d.destination.isMemory <;> rfl

/-- A counter counts the instructions that meet its condition. -/
theorem value_recordAll (counter : Counter) (tally : Tally) (instructions : List Instruction) :
    counter.value (tally.recordAll instructions) =
      counter.value tally + instructions.countP counter.counts := by
  induction instructions generalizing tally with
  | nil => rfl
  | cons d rest ih =>
    have hcons : (tally.recordAll (d :: rest)) = (tally.record d).recordAll rest := rfl
    rw [hcons, ih, value_record, List.countP_cons, Nat.add_assoc,
      Nat.add_comm (List.countP counter.counts rest)]
    cases counter.counts d <;> rfl

/-- The counters of a new tally are zero. -/
theorem value_new (counter : Counter) (seed budget : UInt64) :
    counter.value { seed, budget } = 0 := by
  cases counter with
  | ofFamily family => exact Vector.getElem_replicate family.index.isLt
  | ofClass kind => exact Vector.getElem_replicate kind.index.isLt
  | calls conditional => cases conditional <;> rfl
  | returns conditional => cases conditional <;> rfl
  | _ => rfl

/-! ### Counters make up a tally -/

/-- Tallies of one program whose counters agree are equal. -/
theorem eq_of_value {tally other : Tally} (hseed : tally.seed = other.seed)
    (hbudget : tally.budget = other.budget)
    (h : ∀ counter : Counter, counter.value tally = counter.value other) : tally = other := by
  have hfamilies : tally.perFamily = other.perFamily := by
    apply Vector.ext
    intro i hi
    have hindex : ∀ i : Fin familyCount, ∃ family ∈ Family.all, family.index = i := by decide
    obtain ⟨family, -, hfamily⟩ := hindex ⟨i, hi⟩
    have hvalue := h (.ofFamily family)
    simp only [value, Tally.ofFamily, hfamily] at hvalue
    exact hvalue
  have hkinds : tally.perClass = other.perClass := by
    apply Vector.ext
    intro i hi
    have hindex : ∀ i : Fin classCount, ∃ kind ∈ FamilyClass.all, kind.index = i := by decide
    obtain ⟨kind, -, hkind⟩ := hindex ⟨i, hi⟩
    have hvalue := h (.ofClass kind)
    simp only [value, Tally.ofClass, hkind] at hvalue
    exact hvalue
  have hbranches {count other : BranchCount} (h : ∀ b, count.value b = other.value b) :
      count = other := by
    have htrue : count.conditional = other.conditional := h true
    have hfalse : count.unconditional = other.unconditional := h false
    cases count
    cases other
    rw [BranchCount.mk.injEq]
    exact ⟨htrue, hfalse⟩
  have hcalls := hbranches fun b => h (.calls b)
  have hreturns := hbranches fun b => h (.returns b)
  have hslots : tally.slots = other.slots := h .slots
  have hdram : tally.dramReads = other.dramReads := h .dramReads
  have hscratchpad : tally.scratchpadReads = other.scratchpadReads := h .scratchpadReads
  have hmemory : tally.memoryDestinations = other.memoryDestinations := h .memoryDestinations
  have hregister : tally.registerDestinations = other.registerDestinations :=
    h .registerDestinations
  cases tally
  cases other
  rw [Tally.mk.injEq]
  exact ⟨hseed, hbudget, hslots, hfamilies, hkinds, hcalls, hreturns, hdram, hscratchpad, hmemory,
    hregister⟩

/-! ### Balance -/

/-- Sum of some counters. -/
def total (counters : List Counter) (tally : Tally) : Nat := (counters.map (·.value tally)).sum

/-- Recording an instruction adds the number of counters that count it. -/
theorem total_record (counters : List Counter) (tally : Tally) (d : Instruction) :
    total counters (tally.record d) = total counters tally + counters.countP (·.counts d) := by
  induction counters with
  | nil => rfl
  | cons counter rest ih =>
    simp only [total, List.map_cons, List.sum_cons] at ih ⊢
    have hcounts : (counter.counts d).toNat = if counter.counts d then 1 else 0 := by
      cases counter.counts d <;> rfl
    rw [ih, value_record, List.countP_cons, hcounts]
    omega

/-- The counters of a new tally have no total. -/
theorem total_new (counters : List Counter) (seed budget : UInt64) :
    total counters { seed, budget } = 0 := by
  induction counters with
  | nil => rfl
  | cons counter rest ih =>
    rw [total, List.map_cons, List.sum_cons, value_new]
    exact (Nat.zero_add _).trans ih

/-- Counters of which equally many count each instruction keep their balance. -/
theorem total_recordAll {counters others : List Counter}
    (h : ∀ d, counters.countP (·.counts d) = others.countP (·.counts d)) {tally : Tally}
    (hstart : total counters tally = total others tally) (instructions : List Instruction) :
    total counters (tally.recordAll instructions) =
      total others (tally.recordAll instructions) := by
  induction instructions generalizing tally with
  | nil => exact hstart
  | cons d rest ih =>
    apply ih
    rw [total_record, total_record, hstart, h]

/-- Counters of which equally many count each instruction agree on every program. -/
theorem total_eq {counters others : List Counter}
    (h : ∀ d, counters.countP (·.counts d) = others.countP (·.counts d)) (seed budget : UInt64)
    (instructions : List Instruction) :
    let tally := ({ seed, budget } : Tally).recordAll instructions
    total counters tally = total others tally :=
  total_recordAll h (by rw [total_new, total_new]) instructions

/-- One family counts each instruction. -/
theorem countP_families (d : Instruction) :
    (Family.all.map ofFamily).countP (·.counts d) = [slots].countP (·.counts d) := by
  rw [List.countP_map]
  change Family.all.countP (fun family => decide (d.family = family)) = 1
  cases d.family <;> decide

/-- One kind of families counts each instruction. -/
theorem countP_kinds (d : Instruction) :
    (FamilyClass.all.map ofClass).countP (·.counts d) = [slots].countP (·.counts d) := by
  rw [List.countP_map]
  change FamilyClass.all.countP (fun kind => decide (d.family.familyClass = kind)) = 1
  cases d.family.familyClass <;> decide

/-- A kind counts what its families count. -/
theorem countP_kind (kind : FamilyClass) (d : Instruction) :
    [ofClass kind].countP (·.counts d) =
      ((Family.all.filter (·.familyClass = kind)).map ofFamily).countP (·.counts d) := by
  rw [List.countP_map]
  change [kind].countP (fun kind => decide (d.family.familyClass = kind)) =
    (Family.all.filter (·.familyClass = kind)).countP (fun family => decide (d.family = family))
  cases kind <;> cases d.family <;> decide

/-- Every instruction reads memory of one sort or the other. -/
theorem countP_reads (d : Instruction) :
    [dramReads, scratchpadReads].countP (·.counts d) = [slots].countP (·.counts d) := by
  by_cases h : d.sourceA = .dram <;> simp [counts, h]

/-- Only a call without a condition has no destination. -/
theorem countP_destinations (d : Instruction) :
    [memoryDestinations, registerDestinations, calls false].countP (·.counts d) =
      [slots].countP (·.counts d) := by
  by_cases h : d.family = .call <;> cases hb : d.isConditional <;>
    cases hm : d.destination.isMemory <;>
    simp [counts, Instruction.writesDestination, h, hb, hm]

/-- Every call has a condition or has none. -/
theorem countP_calls (d : Instruction) :
    [calls true, calls false].countP (·.counts d) = [ofFamily .call].countP (·.counts d) := by
  by_cases h : d.family = .call <;> cases hb : d.isConditional <;> simp [counts, h, hb]

/-- Every return has a condition or has none. -/
theorem countP_returns (d : Instruction) :
    [returns true, returns false].countP (·.counts d) = [ofFamily .ret].countP (·.counts d) := by
  by_cases h : d.family = .ret <;> cases hb : d.isConditional <;> simp [counts, h, hb]

end Counter

/-- The numbers in a vector, position by position. -/
theorem map_get_finRange {n : Nat} (counters : Vector Nat n) :
    (List.finRange n).map counters.get = counters.toList := by
  apply List.ext_getElem
  · rw [List.length_map, List.length_finRange, Vector.length_toList]
  · intro i hi hi'
    simp [Vector.get]

namespace Counter

/-- The families have the total of the counters that a tally keeps for them. -/
theorem total_families (tally : Tally) :
    total (Family.all.map ofFamily) tally = tally.perFamily.sum := by
  have hindex : Family.all.map Family.index = List.finRange familyCount := by decide
  rw [← Vector.sum_toList, ← map_get_finRange, ← hindex, total, List.map_map, List.map_map]
  rfl

/-- The kinds of families have the total of the counters that a tally keeps for them. -/
theorem total_kinds (tally : Tally) :
    total (FamilyClass.all.map ofClass) tally = tally.perClass.sum := by
  have hindex : FamilyClass.all.map FamilyClass.index = List.finRange classCount := by decide
  rw [← Vector.sum_toList, ← map_get_finRange, ← hindex, total, List.map_map, List.map_map]
  rfl

end Counter

namespace Tally

/-- Recording keeps the constants of the program. -/
theorem constants_recordAll (tally : Tally) (instructions : List Instruction) :
    (tally.recordAll instructions).seed = tally.seed ∧
      (tally.recordAll instructions).budget = tally.budget := by
  induction instructions generalizing tally with
  | nil => exact ⟨rfl, rfl⟩
  | cons d rest ih => exact ih (tally.record d)

/-- The order of instructions does not matter. -/
theorem recordAll_perm (tally : Tally) {instructions others : List Instruction}
    (h : instructions.Perm others) : tally.recordAll instructions = tally.recordAll others := by
  obtain ⟨hseed, hbudget⟩ := tally.constants_recordAll instructions
  obtain ⟨hseed', hbudget'⟩ := tally.constants_recordAll others
  apply Counter.eq_of_value
  · rw [hseed, hseed']
  · rw [hbudget, hbudget']
  · intro counter
    rw [counter.value_recordAll, counter.value_recordAll, h.countP_eq]

/-- Each family is counted at its position among the families. -/
theorem getElem?_perFamily (tally : Tally) (family : Family) :
    tally.perFamily[Family.all.idxOf family]? = some (tally.ofFamily family) := by
  have hposition : Family.all.idxOf family = family.index := by cases family <;> decide
  rw [hposition, Vector.getElem?_eq_getElem family.index.isLt]
  rfl

/-- Tallies balance. In whatever order instructions are recorded, the tally is the same. Its slots
are as many as the instructions, and as many as the families, the kinds of families, the reads, and
the destinations together with the calls that have no condition. Each family is counted at its
position among the families, a kind is counted as often as its families, and calls and returns are
those with and those without a condition. The counters of two lists of instructions add up to those
of one list after the other. -/
theorem recordAll_balanced (seed budget : UInt64) :
    let new : Tally := { seed, budget }
    (∀ instructions others : List Instruction, instructions.Perm others →
      new.recordAll instructions = new.recordAll others) ∧
    (∀ instructions : List Instruction,
      let tally := new.recordAll instructions
      tally.slots = instructions.length ∧
      tally.perFamily.sum = instructions.length ∧
      tally.perClass.sum = instructions.length ∧
      tally.dramReads + tally.scratchpadReads = instructions.length ∧
      tally.memoryDestinations + tally.registerDestinations + tally.calls.unconditional =
        instructions.length ∧
      (∀ family, tally.perFamily[Family.all.idxOf family]? =
        some (instructions.countP (·.family = family))) ∧
      (∀ kind, tally.ofClass kind =
        ((Family.all.filter (·.familyClass = kind)).map tally.ofFamily).sum) ∧
      tally.calls.conditional + tally.calls.unconditional = tally.ofFamily .call ∧
      tally.returns.conditional + tally.returns.unconditional = tally.ofFamily .ret) ∧
    ∀ (instructions others : List Instruction) (counter : Counter),
      counter.value (new.recordAll (instructions ++ others)) =
        counter.value (new.recordAll instructions) + counter.value (new.recordAll others) := by
  intro new
  refine ⟨fun _ _ h => new.recordAll_perm h, fun instructions => ?_,
    fun instructions others counter => ?_⟩
  · intro tally
    have hslots : tally.slots = instructions.length :=
      (slots_recordAll new instructions).trans (Nat.zero_add _)
    have htotal : Counter.total [.slots] tally = instructions.length := hslots
    -- Each sum is the total of a list of counters, and the totals agree by what counts one slot.
    have hfamilies :=
      (Counter.total_eq Counter.countP_families seed budget instructions).trans htotal
    have hkinds := (Counter.total_eq Counter.countP_kinds seed budget instructions).trans htotal
    have hreads := (Counter.total_eq Counter.countP_reads seed budget instructions).trans htotal
    have hdestinations :=
      (Counter.total_eq Counter.countP_destinations seed budget instructions).trans htotal
    have hcalls := Counter.total_eq Counter.countP_calls seed budget instructions
    have hreturns := Counter.total_eq Counter.countP_returns seed budget instructions
    refine ⟨hslots, ?_, ?_, hreads, ?_, fun family => ?_, fun kind => ?_, hcalls, hreturns⟩
    · rw [← Counter.total_families]
      exact hfamilies
    · rw [← Counter.total_kinds]
      exact hkinds
    · rw [Nat.add_assoc]
      exact hdestinations
    · have hvalue := (Counter.ofFamily family).value_recordAll new instructions
      rw [Counter.value_new, Nat.zero_add] at hvalue
      rw [getElem?_perFamily]
      exact congrArg some hvalue
    · have hkind := Counter.total_eq (Counter.countP_kind kind) seed budget instructions
      simp only [Counter.total, List.map_map] at hkind
      exact hkind
  · simp only [Counter.value_recordAll, Counter.value_new, List.countP_append, Nat.zero_add, new]

/-- A call without a condition, a return with one and an addition have the same tally in two orders.
The first two of them read DRAM. -/
theorem recordAll_balanced_three :
    let call : Instruction := .ofWord 0x060000E0#128
    let back : Instruction := .ofWord 0x0000FF#128
    let add : Instruction := .ofWord 0x0400#128
    let new : Tally := { seed := 7, budget := 9 }
    [call, back, add].Perm [add, call, back] ∧
      new.recordAll [call, back, add] = new.recordAll [add, call, back] ∧
      (new.recordAll [call, back, add]).dramReads = 2 := by
  have hperm {call back add : Instruction} : [call, back, add].Perm [add, call, back] :=
    (List.perm_append_comm : ([call, back] ++ [add]).Perm ([add] ++ [call, back]))
  exact ⟨hperm, (recordAll_balanced 7 9).1 _ _ hperm, by decide⟩

end Tally
end RandomMachine
