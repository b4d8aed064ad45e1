import RandomMachine.CommandLine.Run

/-!
# What a sink accepts

A sink accepts the first bytes of what it is offered, as many as it has room for, whatever it takes
at once and however a text is cut into offers. Writing reports a fault exactly when there was no
room for all of it, and then the refused offer was the last one. So it makes no difference to what
arrives whether a source is emitted line by line or handed on as a whole, as a command line does.
-/

namespace RandomMachine

namespace Sink

variable {sink middle : Sink} {first second bytes : ByteArray}

/-- A sink that has accepted more has that much less room. -/
theorem room_of_accepted {after : Sink} {n : Nat} (hlimit : after.limit = sink.limit)
    (haccepted : after.accepted.size = sink.accepted.size + n) (size : Nat) :
    after.room size = sink.room (n + size) - n := by
  unfold room
  rw [hlimit, haccepted]
  split <;> omega

/-- Where there is room for a part, the room for more is no less. -/
theorem le_room {size : Nat} (h : sink.room size = size) (more : Nat) :
    size ≤ sink.room (size + more) := by
  unfold room at h ⊢
  split at h <;> omega

/-- Where a part does not fit, there is no more room for a longer one. -/
theorem room_of_lt {size : Nat} (h : sink.room size ≠ size) (more : Nat) :
    sink.room (size + more) = sink.room size := by
  unfold room at h ⊢
  split at h <;> omega

/-- What has become of bytes that were offered to a sink. -/
structure Delivered (sink : Sink) (bytes : ByteArray) (result : Option TransferFault × Sink) :
    Prop where
  report : result.1 = if sink.room bytes.size = bytes.size then none else some sink.fault.refusal
  accepted : result.2.accepted = sink.accepted ++ bytes.extract 0 (sink.room bytes.size)
  limit : result.2.limit = sink.limit
  fault : result.2.fault = sink.fault
  /-- An offer is refused exactly if there is a fault, and nothing is offered after it. -/
  answers : 0 ∉ sink.answers →
    (0 ∈ result.2.answers ↔ result.1 ≠ none) ∧ 0 ∉ result.2.answers.tail

namespace Delivered

/-- Without a fault, everything has been accepted. -/
theorem room_eq (h : Delivered sink bytes (none, middle)) : sink.room bytes.size = bytes.size := by
  have hreport := h.report
  split at hreport
  · assumption
  · cases hreport

/-- No bytes are delivered at once. -/
theorem empty (hsize : bytes.size = 0) : Delivered sink bytes (none, sink) where
  report := by
    have := sink.room_le bytes.size
    rw [if_pos (by omega)]
  accepted := by
    have hempty : bytes.extract 0 (sink.room bytes.size) = .empty :=
      ByteArray.extract_eq_empty_iff.mpr (by omega)
    rw [hempty, ByteArray.append_empty]
  limit := rfl
  fault := rfl
  answers h := ⟨⟨fun hmem => absurd hmem h, fun hne => absurd rfl hne⟩,
    fun hmem => h (List.mem_of_mem_tail hmem)⟩

/-- Bytes are delivered part by part, up to a fault. -/
theorem append {result : Option TransferFault × Sink} (h : Delivered sink first (none, middle))
    (h' : Delivered middle second result) : Delivered sink (first ++ second) result := by
  have hroom := h.room_eq
  have hmiddle : middle.accepted = sink.accepted ++ first := by
    have := h.accepted
    rwa [hroom, ByteArray.extract_zero_size] at this
  have hle := le_room hroom second.size
  have hrest : middle.room second.size = sink.room (first.size + second.size) - first.size :=
    room_of_accepted h.limit (by rw [hmiddle, ByteArray.size_append]) second.size
  refine ⟨?_, ?_, h'.limit.trans h.limit, h'.fault.trans h.fault, fun hanswers => ?_⟩
  · have hfault : middle.fault = sink.fault := h.fault
    rw [h'.report, hrest, ByteArray.size_append, hfault]
    congr 1
    exact propext (by omega)
  · have hfirst : first.extract 0 (sink.room (first.size + second.size)) = first := by
      rw [← Nat.max_eq_left hle, ByteArray.extract_zero_max_size]
    rw [h'.accepted, hmiddle, hrest, ByteArray.size_append, ByteArray.extract_append, hfirst,
      ByteArray.append_assoc, Nat.zero_sub]
  · exact h'.answers fun hmem => (h.answers hanswers).1.mp hmem rfl

/-- What follows a fault is not delivered. -/
theorem append_of_fault {fault : TransferFault} (h : Delivered sink first (some fault, middle))
    (second : ByteArray) : Delivered sink (first ++ second) (some fault, middle) := by
  have hroom : sink.room first.size ≠ first.size := by
    intro hroom
    have := h.report
    rw [if_pos hroom] at this
    cases this
  have hle := sink.room_le first.size
  have hsame := room_of_lt hroom second.size
  refine ⟨?_, ?_, h.limit, h.fault, h.answers⟩
  · rw [h.report, if_neg hroom, ByteArray.size_append, hsame, if_neg (by omega)]
  · have hsecond : second.extract (0 - first.size) (sink.room first.size - first.size) = .empty :=
      ByteArray.extract_eq_empty_iff.mpr (by omega)
    rw [h.accepted, ByteArray.size_append, hsame, ByteArray.extract_append, hsecond,
      ByteArray.append_empty]

end Delivered

/-- What is taken of an offer is delivered by it. -/
theorem delivered_offer (h : sink.taken bytes.size ≠ 0) :
    Delivered sink (bytes.extract 0 (sink.taken bytes.size)) (none, sink.offer bytes) := by
  have hle := sink.taken_le_room bytes.size
  have hle' := sink.room_le bytes.size
  have hsize : (bytes.extract 0 (sink.taken bytes.size)).size = sink.taken bytes.size := by
    rw [ByteArray.size_extract]
    omega
  have hroom : sink.room (sink.taken bytes.size) = sink.taken bytes.size := by
    unfold room at hle ⊢
    split at hle <;> omega
  refine ⟨?_, ?_, rfl, rfl, fun hanswers => ⟨⟨fun hmem => ?_, fun hne => absurd rfl hne⟩,
    hanswers⟩⟩
  · rw [hsize, if_pos hroom]
  · rw [hsize, hroom, ByteArray.extract_extract, Nat.zero_add, Nat.zero_add, Nat.min_self]
    rfl
  · rcases List.mem_cons.mp hmem with hzero | hmem
    · exact absurd hzero.symm h
    · exact absurd hmem hanswers

/-- An offer that nothing is taken of ends the delivery. -/
theorem delivered_refusal (hsize : bytes.size ≠ 0) (h : sink.taken bytes.size = 0) :
    Delivered sink bytes (some sink.fault.refusal, sink.offer bytes) := by
  have hroom : sink.room bytes.size = 0 := (sink.taken_eq_zero_iff bytes.size).mp h
  refine ⟨?_, ?_, rfl, rfl, fun hanswers => ⟨⟨fun _ => Option.some_ne_none _, fun _ => ?_⟩,
    hanswers⟩⟩
  · rw [hroom, if_neg (by omega)]
  · rw [hroom, offer, h]
  · rw [offer, h]
    exact List.mem_cons_self

/-- Writing delivers bytes, whatever the sink takes of them at once. -/
theorem delivered_write (sink : Sink) (bytes : ByteArray) :
    Delivered sink bytes (sink.write bytes) := by
  fun_induction write sink bytes with
  | case1 sink bytes hsize => exact .empty hsize
  | case2 sink bytes hsize htaken => exact delivered_refusal hsize htaken
  | case3 sink bytes hsize htaken ih =>
    have hle := Nat.le_trans (sink.taken_le_room bytes.size) (sink.room_le bytes.size)
    have hparts : bytes.extract 0 (sink.taken bytes.size) ++
        bytes.extract (sink.taken bytes.size) bytes.size = bytes := by
      rw [← ByteArray.extract_eq_extract_append_extract _ (Nat.zero_le _) hle,
        ByteArray.extract_zero_size]
    have := (delivered_offer htaken).append ih
    rwa [hparts] at this

/-- Writing one text after another delivers the bytes of all of them. -/
theorem delivered_writeAll (sink : Sink) (texts : List String) :
    Delivered sink (String.join texts).toUTF8 (sink.writeAll texts) := by
  induction texts generalizing sink with
  | nil => exact .empty rfl
  | cons text rest ih =>
    have htext := delivered_write sink text.toUTF8
    have hjoin :
        (String.join (text :: rest)).toUTF8 = text.toUTF8 ++ (String.join rest).toUTF8 := by
      rw [String.join_cons]
      rfl
    rw [hjoin, writeAll]
    cases hwrite : sink.write text.toUTF8 with
    | mk report middle =>
      rw [hwrite] at htext
      cases report with
      | none => exact htext.append (ih middle)
      | some fault => exact htext.append_of_fault _

end Sink

namespace Program

/-- What emitting a program reports: a fault of writing if there was no room for all of the source,
a fault of flushing if there was, and otherwise the tally. -/
theorem emit_fst (program : Program) (settings : Settings) (sink : Sink) :
    (program.emit settings sink).1 =
      if sink.room (program.source settings).toUTF8.size =
          (program.source settings).toUTF8.size then
        match sink.fault.flush with
        | none => .ok (program.tally settings)
        | some fault => .error (.transfer fault)
      else .error (.transfer sink.fault.refusal) := by
  have hdelivered :=
    sink.delivered_writeAll ((Source.programLines settings program).map (· ++ "\n"))
  change sink.Delivered (program.source settings).toUTF8 _ at hdelivered
  unfold emit
  split
  next fault middle hwrite =>
    rw [hwrite] at hdelivered
    have hreport := hdelivered.report
    split at hreport
    · cases hreport
    next hroom => rw [if_neg hroom, Option.some.inj hreport]
  next middle hwrite =>
    rw [hwrite] at hdelivered
    have hfault : middle.fault = sink.fault := hdelivered.fault
    rw [if_pos hdelivered.room_eq, Sink.flush, hfault]
    cases sink.fault.flush <;> rfl

/-- What a sink has accepted when a program has been emitted, and how it has answered. -/
theorem emit_snd (program : Program) (settings : Settings) (sink : Sink) :
    let text := (program.source settings).toUTF8
    let after := (program.emit settings sink).2
    after.accepted = sink.accepted ++ text.extract 0 (sink.room text.size) ∧
      (0 ∉ sink.answers →
        (0 ∈ after.answers ↔ sink.room text.size ≠ text.size) ∧ 0 ∉ after.answers.tail) := by
  have hdelivered :=
    sink.delivered_writeAll ((Source.programLines settings program).map (· ++ "\n"))
  change sink.Delivered (program.source settings).toUTF8 _ at hdelivered
  have hsink : (program.emit settings sink).2 =
      (sink.writeAll ((Source.programLines settings program).map (· ++ "\n"))).2 := by
    unfold emit
    split
    next hwrite => rw [hwrite]
    next hwrite =>
      rw [hwrite]
      split <;> rfl
  intro text after
  rw [show after = _ from hsink]
  refine ⟨hdelivered.accepted, fun hanswers => ?_⟩
  rw [(hdelivered.answers hanswers).1, hdelivered.report]
  refine ⟨?_, (hdelivered.answers hanswers).2⟩
  split
  next hroom => exact ⟨fun hne => absurd rfl hne, fun hne => absurd hroom hne⟩
  next hroom => exact ⟨fun _ => hroom, fun _ => Option.some_ne_none _⟩

/-- A sink without a limit accepts the source of a program. -/
theorem emit_unlimited (program : Program) (settings : Settings) :
    (program.emit settings {}).1 = .ok (program.tally settings) ∧
      (program.emit settings {}).2.accepted = (program.source settings).toUTF8 := by
  have hroom (size : Nat) : ({} : Sink).room size = size := rfl
  have hflush : ({} : Sink).fault.flush = none := rfl
  have haccepted : ({} : Sink).accepted = .empty := rfl
  constructor
  · rw [emit_fst, hroom, if_pos rfl, hflush]
  · rw [(emit_snd program settings {}).1, hroom, ByteArray.extract_zero_size, haccepted,
      ByteArray.empty_append]

/-- Emission in memory gives the source and the tally of every program. -/
theorem emitText_eq (program : Program) (settings : Settings) :
    program.emitText settings = .ok (program.tally settings, program.source settings) := by
  obtain ⟨htally, haccepted⟩ := program.emit_unlimited settings
  have htext := Sink.text_of_accepted haccepted
  unfold emitText
  cases hemit : program.emit settings {} with
  | mk result sink =>
    rw [hemit] at htally htext
    cases htally
    dsimp only
    rw [htext]

/-- The lines of a program leave in a sink what its whole source does when it is written at once,
and the result tells the same fault. -/
theorem emit_eq_write (program : Program) (settings : Settings) (sink : Sink) :
    let written := sink.write (program.source settings).toUTF8
    (program.emit settings sink).2.accepted = written.2.accepted ∧
      (program.emit settings sink).1 =
        (written.1 <|> sink.flush).elim (.ok (program.tally settings))
          fun fault => .error (.transfer fault) := by
  intro written
  have hwritten := sink.delivered_write (program.source settings).toUTF8
  refine ⟨(program.emit_snd settings sink).1.trans hwritten.accepted.symm, ?_⟩
  rw [program.emit_fst settings sink, hwritten.report, Sink.flush]
  split
  · cases sink.fault.flush <;> rfl
  · rfl

/-- Emission to a sink that takes `limit` bytes, by whatever number at once: what it accepts is what
an unlimited sink does, cut off at the limit. If all of it fits and can be made final, the result is
the tally that an unlimited sink leads to, and otherwise the fault of the sink. An offer is refused
exactly if not all of it fits, and nothing is offered after that. -/
theorem emit_accepts_prefix (program : Program) (settings : Settings) (limit : Nat)
    (fault : SinkFault) (pace : Nat → Nat → Nat) :
    let whole := program.emit settings {}
    let text := whole.2.accepted
    let written := program.emit settings { limit := some limit, fault, pace }
    whole.1 = .ok (program.tally settings) ∧
      text = (program.source settings).toUTF8 ∧
      written.2.accepted = text.extract 0 (min limit text.size) ∧
      written.1 =
        (if text.size ≤ limit then
          match fault.flush with
          | none => whole.1
          | some fault => .error (.transfer fault)
        else .error (.transfer fault.refusal)) ∧
      (0 ∈ written.2.answers ↔ limit < text.size) ∧
      0 ∉ written.2.answers.tail := by
  obtain ⟨htally, htext⟩ := program.emit_unlimited settings
  obtain ⟨haccepted, hanswers⟩ := program.emit_snd settings { limit := some limit, fault, pace }
  obtain ⟨hrefused, hlast⟩ := hanswers List.not_mem_nil
  have hresult := program.emit_fst settings { limit := some limit, fault, pace }
  have hroom (size : Nat) :
      ({ limit := some limit, fault, pace } : Sink).room size = min limit size := by
    change min size (limit - 0) = min limit size
    omega
  have hfits (size : Nat) : (min limit size = size) = (size ≤ limit) := propext (by omega)
  simp only [hroom, hfits, ne_eq, Nat.not_le, ByteArray.empty_append] at haccepted hresult hrefused
  intro whole text written
  simp only [whole, text, written, htally, htext]
  exact ⟨trivial, trivial, haccepted, hresult, hrefused, hlast⟩

end Program

/-- What a command line hands to its host is the source of the program that it has drawn, and what
it reports, once that is delivered, is the tally of that program. -/
theorem CommandLine.generate_of_settings {m : Type → Type} [Monad m] [LawfulMonad m]
    (host : Host m) (options : Options) {settings : Settings} {seed : UInt64} (access : m Unit)
    (hload : loadSettings host options = do access; return .ok settings)
    (hseed : settings.seed = some seed) :
    let program := Program.ofSeed seed settings
    generate host options = do
      access
      if options.listing then host.complain program.listing
      let delivered ← deliver host options.output (program.source settings)
      if delivered.isOk && options.report then host.complain ((program.tally settings).report [])
      return delivered := by
  intro program
  simp only [generate, hload, bind_assoc, pure_bind, hseed, Program.emitText_eq]
  refine bind_congr fun _ => ?_
  split
  · refine bind_congr fun _ => bind_congr fun delivered => ?_
    cases delivered <;> rfl
  · refine bind_congr fun delivered => ?_
    cases delivered <;> rfl

end RandomMachine
