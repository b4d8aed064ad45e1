import Mathlib.Algebra.Group.Nat.Defs
import RandomMachine.Proofs.Machine.Invariant
import RandomMachine.Proofs.Wordless

/-!
# The bits that fields read

Fields lie apart, so a word and an instruction record determine each other as far as fields reach:
writing a record that was read gives the word without the bits that no field reads, and reading a
word that was written gives the record with its fields cut to their widths. Records that were read
from different words differ, as each keeps its own, but whatever is made of a program depends on its
words through their fields alone.
-/

namespace RandomMachine

namespace Instruction

namespace Field

/-! ### One field -/

/-- Every field lies in the word. -/
theorem offset_add_width_le (field : Field) : field.offset + field.width ≤ 128 := by
  cases field <;> decide

/-- No two fields share a bit. -/
theorem apart {field other : Field} (h : field ≠ other) :
    field.offset + field.width ≤ other.offset ∨ other.offset + other.width ≤ field.offset := by
  revert h
  cases field <;> cases other <;> decide

/-- The bits of a field's value are those of the word from its offset on. -/
theorem testBit_ofWord (field : Field) (word : BitVec 128) (i : Nat) :
    (field.ofWord word).testBit i =
      (decide (i < field.width) && word.getLsbD (field.offset + i)) := by
  rw [ofWord, BitVec.testBit_toNat, BitVec.getLsbD_extractLsb']

/-- A value that is put into a field has its bits there and nowhere else. -/
theorem getLsbD_place (field : Field) (value i : Nat) :
    (field.place value).getLsbD i =
      (decide (field.offset ≤ i ∧ i < field.offset + field.width) &&
        value.testBit (i - field.offset)) := by
  have hfits := field.offset_add_width_le
  rw [place, BitVec.getLsbD_shiftLeft, BitVec.getLsbD_setWidth, BitVec.getLsbD_ofNat,
    Bool.eq_iff_iff]
  simp only [Bool.and_eq_true, decide_eq_true_eq, Bool.not_eq_true', decide_eq_false_iff_not]
  constructor
  · rintro ⟨⟨-, hlow⟩, -, hhigh, hbit⟩
    exact ⟨by omega, hbit⟩
  · rintro ⟨⟨hlow, hhigh⟩, hbit⟩
    exact ⟨by omega, by omega, by omega, hbit⟩

/-- Putting back what a field has read keeps the bits of the field and clears all others. -/
theorem place_ofWord (field : Field) (word : BitVec 128) :
    field.place (field.ofWord word) = word &&& field.place (1 <<< field.width - 1) := by
  apply BitVec.eq_of_getLsbD_eq
  intro i _
  rw [BitVec.getLsbD_and, getLsbD_place, getLsbD_place, testBit_ofWord, Nat.one_shiftLeft,
    Nat.testBit_two_pow_sub_one]
  by_cases h : field.offset ≤ i ∧ i < field.offset + field.width
  · have hwidth : i - field.offset < field.width := by omega
    have hi : field.offset + (i - field.offset) = i := by omega
    simp [h, hwidth, hi]
  · simp [h]

/-- A field reads what was put into it, cut to its width, and nothing of other fields. -/
theorem ofWord_place (field other : Field) (value : Nat) :
    field.ofWord (other.place value) = if field = other then value % 2 ^ field.width else 0 := by
  apply Nat.eq_of_testBit_eq
  intro i
  rw [testBit_ofWord, getLsbD_place]
  split
  · next h =>
    subst h
    rw [Nat.testBit_mod_two_pow]
    by_cases hi : i < field.width <;> simp [hi]
  · next h =>
    have hapart := apart h
    by_cases hi : i < field.width
    · have hout : ¬(other.offset ≤ field.offset + i ∧
          field.offset + i < other.offset + other.width) := by omega
      simp [hout]
    · simp [hi]

/-- A field reads bit by bit. -/
theorem ofWord_or (field : Field) (word other : BitVec 128) :
    field.ofWord (word ||| other) = field.ofWord word ||| field.ofWord other := by
  rw [ofWord, BitVec.extractLsb'_or, BitVec.toNat_or]
  rfl

/-- A field reads no more than its width. -/
theorem ofWord_lt (field : Field) (word : BitVec 128) : field.ofWord word < 2 ^ field.width :=
  BitVec.isLt _

/-- Every field is in the list of all fields. -/
theorem mem_all (field : Field) : field ∈ all := by
  cases field <;> decide

/-- A record that was read from a word holds what the fields of the word hold. -/
theorem value_ofWord (field : Field) (word : BitVec 128) :
    field.value (Instruction.ofWord word) = field.ofWord word := by
  have hlt := field.ofWord_lt word
  cases field with
  | addressA | immediate => exact UInt32.toNat_ofNat_of_lt' hlt
  | _ => exact UInt8.toNat_ofNat_of_lt' (Nat.lt_of_lt_of_le hlt (by decide))

/-! ### All fields -/

/-- Putting fields back one after another keeps the bits that some of them reads. -/
theorem foldl_place_ofWord (word : BitVec 128) (fields : List Field) (start mask : BitVec 128)
    (h : start = word &&& mask) :
    fields.foldl (fun word' field => word' ||| field.place (field.ofWord word)) start =
      word &&& fields.foldl (fun mask field => mask ||| field.place (1 <<< field.width - 1)) mask := by
  induction fields generalizing start mask with
  | nil => exact h
  | cons field fields ih =>
    rw [List.foldl_cons, List.foldl_cons]
    apply ih
    rw [h, place_ofWord, BitVec.and_or_distrib_left]

/-- Of fields that are put in one after another, each is read on its own. -/
theorem ofWord_foldl_place (field : Field) (d : Instruction) (fields : List Field)
    (start : BitVec 128) :
    field.ofWord (fields.foldl (fun word field => word ||| field.place (field.value d)) start) =
      field.ofWord start ||| if field ∈ fields then field.value d % 2 ^ field.width else 0 := by
  induction fields generalizing start with
  | nil => simp
  | cons other fields ih =>
    rw [List.foldl_cons, ih, ofWord_or, ofWord_place, Nat.or_assoc]
    congr 1
    by_cases h : field = other
    · subst h
      by_cases hmem : field ∈ fields <;> simp [hmem]
    · simp [h]

end Field

/-- Writing a record that was read gives the word without the bits that no field reads. -/
theorem toWord_ofWord (word : BitVec 128) : (ofWord word).toWord = word &&& fieldMask := by
  unfold toWord fieldMask
  simp only [Field.value_ofWord]
  exact Field.foldl_place_ofWord word Field.all 0 0 (BitVec.and_zero).symm

/-- A word that was written holds every field of the record, cut to its width. -/
theorem field_toWord (field : Field) (d : Instruction) :
    field.ofWord d.toWord = field.value d % 2 ^ field.width := by
  have hzero : field.ofWord 0 = 0 := by cases field <;> decide
  rw [toWord, Field.ofWord_foldl_place, if_pos field.mem_all, hzero, Nat.zero_or]

/-- Reading a word that was written gives the record back, with the place and register fields cut
to three bits, and with the word that was written. -/
theorem ofWord_toWord (d : Instruction) :
    ofWord d.toWord =
      { d with
        word := d.toWord
        placeA := d.placeA % 8
        registerA := d.registerA % 8
        placeB := d.placeB % 8
        registerB := d.registerB % 8
        placeC := d.placeC % 8
        registerC := d.registerC % 8 } := by
  have hbyte (byte : UInt8) : UInt8.ofNat (byte.toNat % 2 ^ 8) = byte := by
    rw [UInt8.ofNat_mod_size, UInt8.ofNat_toNat]
  have hthree (byte : UInt8) : UInt8.ofNat (byte.toNat % 2 ^ 3) = byte % 8 := by
    rw [UInt8.ofNat_mod byte.toNat_lt (by decide), UInt8.ofNat_toNat]
    rfl
  have hword (word : UInt32) : UInt32.ofNat (word.toNat % 2 ^ 32) = word := by
    rw [UInt32.ofNat_mod_size, UInt32.ofNat_toNat]
  simp only [ofWord, field_toWord, Field.value, Field.width, hbyte, hthree, hword]

/-- Bits that no field reads change the word that is kept and no field. -/
theorem wordless_ofWord_and_fieldMask (word : BitVec 128) :
    (ofWord (word &&& fieldMask)).wordless = (ofWord word).wordless := by
  have hfield (field : Field) : field.ofWord (word &&& fieldMask) = field.ofWord word := by
    rw [← toWord_ofWord, field_toWord, Field.value_ofWord, Nat.mod_eq_of_lt (field.ofWord_lt word)]
  simp only [wordless, ofWord, hfield]

end Instruction

namespace Draw

/-- Programs drawn with the same constants differ in the words that their records keep and in
nothing else, if their words agree in all fields. -/
theorem wordless_program_of_fieldBits {first second : Draw} (hseed : first.seed = second.seed)
    (hkey : first.key = second.key) (himage : first.image = second.image)
    (hwords : first.words.map (· &&& Instruction.fieldMask) =
      second.words.map (· &&& Instruction.fieldMask)) :
    first.program.wordless = second.program.wordless := by
  have hmasked (words : Array (BitVec 128)) :
      (words.map Instruction.ofWord).map Instruction.wordless =
        (words.map (· &&& Instruction.fieldMask)).map fun word =>
          (Instruction.ofWord word).wordless := by
    rw [Array.map_map, Array.map_map]
    exact Array.map_congr_left fun word _ => (Instruction.wordless_ofWord_and_fieldMask word).symm
  unfold program Program.wordless
  dsimp only
  rw [hseed, hkey, himage, hmasked first.words, hwords, hmasked second.words]

/-- Every record of a drawn program keeps its word. -/
theorem map_word_instructions (draw : Draw) :
    draw.program.instructions.map Instruction.word = draw.words := by
  rw [program, Array.map_map]
  exact Array.map_id _

/-- Programs drawn with the same constants are the same only if their words are. -/
theorem program_eq_iff {first second : Draw} (hseed : first.seed = second.seed)
    (hkey : first.key = second.key) (himage : first.image = second.image) :
    first.program = second.program ↔ first.words = second.words := by
  constructor
  · intro h
    rw [← first.map_word_instructions, h, second.map_word_instructions]
  · intro h
    rw [program, program, hseed, hkey, himage, h]

end Draw

/-- Programs which differ in the kept words alone are refused as machines for the same reason. As
machines they begin in the same state, and differ in the kept words alone. -/
theorem Machine.load_of_wordless {first second : Program} (h : first.wordless = second.wordless)
    (settings : Settings) (scratchpad : Array Cell) :
    let loaded := load settings first.instructions first.key first.image scratchpad
    let otherLoaded := load settings second.instructions second.key second.image scratchpad
    (∀ error, loaded = .error error ↔ otherLoaded = .error error) ∧
      ∀ m s m' s', loaded = .ok (m, s) → otherLoaded = .ok (m', s') →
        m.wordless = m'.wordless ∧ s = s' := by
  intro loaded otherLoaded
  obtain ⟨-, hkey, himage, hinstructions⟩ := Program.mk.inj h
  have hload : loaded.map (Prod.map wordless id) = otherLoaded.map (Prod.map wordless id) := by
    rw [← load_wordless, hinstructions, hkey, himage, load_wordless]
  have herror (result : Except Error (Machine × State)) (error : Error) :
      result.map (Prod.map wordless id) = .error error ↔ result = .error error := by
    cases result <;> simp [Except.map]
  refine ⟨fun error => ?_, fun m s m' s' hm hm' => ?_⟩
  · rw [← herror, hload, herror]
  · rw [hm, hm'] at hload
    exact Prod.mk.inj (Except.ok.inj hload)

/-- Machines which differ in the kept words alone run alike, step by step. -/
theorem Machine.run_of_wordless {m m' : Machine} (h : m.wordless = m'.wordless) (s : State) :
    m.run s = m'.run s ∧
      ∀ n, m.after s n = m'.after s n ∧
        (m.step (m.after s n)).1 = (m'.step (m'.after s n)).1 := by
  have hafter (n : Nat) : m.after s n = m'.after s n := by
    rw [← m.after_wordless, h, m'.after_wordless]
  refine ⟨by rw [← m.run_wordless, h, m'.run_wordless], fun n => ⟨hafter n, ?_⟩⟩
  rw [hafter, ← m.step_wordless, h, m'.step_wordless]

namespace Draw

/-- A word and an instruction record give each other back as far as fields reach, and nothing but
the fields of its words enters what is made of a program. Two programs with the same constants whose
words agree in all fields have the same source text, the same answer from any sink it is written to,
the same tally and the same listing; both are refused as machines or neither is, and as machines
they go through the same states, step by step. Their records differ all the same wherever their
words do. -/
theorem fields_determine_program :
    (∀ word, (Instruction.ofWord word).toWord = word &&& Instruction.fieldMask) ∧
      (∀ d : Instruction, Instruction.ofWord d.toWord =
        { d with
          word := d.toWord
          placeA := d.placeA % 8
          registerA := d.registerA % 8
          placeB := d.placeB % 8
          registerB := d.registerB % 8
          placeC := d.placeC % 8
          registerC := d.registerC % 8 }) ∧
      ∀ first second : Draw, first.seed = second.seed → first.key = second.key →
        first.image = second.image →
        first.words.map (· &&& Instruction.fieldMask) =
          second.words.map (· &&& Instruction.fieldMask) →
        let program := first.program
        let other := second.program
        (program = other ↔ first.words = second.words) ∧
        ∀ settings : Settings,
          program.source settings = other.source settings ∧
          (∀ sink, program.emit settings sink = other.emit settings sink) ∧
          program.tally settings = other.tally settings ∧
          program.listing = other.listing ∧
          ∀ scratchpad,
            let loaded :=
              Machine.load settings program.instructions program.key program.image scratchpad
            let otherLoaded :=
              Machine.load settings other.instructions other.key other.image scratchpad
            (∀ error, loaded = .error error ↔ otherLoaded = .error error) ∧
            ∀ m s m' s', loaded = .ok (m, s) → otherLoaded = .ok (m', s') →
              m.run s = m'.run s' ∧
              ∀ n, m.after s n = m'.after s' n ∧
                (m.step (m.after s n)).1 = (m'.step (m'.after s' n)).1 := by
  refine ⟨Instruction.toWord_ofWord, Instruction.ofWord_toWord, ?_⟩
  intro first second hseed hkey himage hwords program other
  have h : program.wordless = other.wordless :=
    wordless_program_of_fieldBits hseed hkey himage hwords
  refine ⟨program_eq_iff hseed hkey himage, fun settings => ⟨?_, fun sink => ?_, ?_, ?_, ?_⟩⟩
  · rw [← program.source_wordless, h, other.source_wordless]
  · rw [← program.emit_wordless, h, other.emit_wordless]
  · rw [← program.tally_wordless, h, other.tally_wordless]
  · rw [← program.listing_wordless, h, other.listing_wordless]
  intro scratchpad loaded otherLoaded
  obtain ⟨herror, hloaded⟩ := Machine.load_of_wordless h settings scratchpad
  refine ⟨herror, fun m s m' s' hm hm' => ?_⟩
  obtain ⟨hmachine, rfl⟩ := hloaded m s m' s' hm hm'
  exact Machine.run_of_wordless hmachine s

/-- A program of four calls whose words hold further bits. -/
def callsWith (bits : BitVec 128) : Draw where
  seed := 1
  key := Vector.replicate keyLength 7
  image := Vector.replicate imageLength 1
  words := Array.replicate 4 (0x060000E0#128 ||| bits)

/-- Setting every bit that no field reads changes the words of a program and its records. It changes
neither the source nor the listing, nor how the program runs as a machine. -/
theorem fields_determine_program_calls :
    let first := callsWith (~~~Instruction.fieldMask)
    let second := callsWith 0
    let settings : Settings := { programSize := 4 }
    let scratchpad := Array.replicate scratchpadLength (⟨5⟩ : Cell)
    first.words.map (· &&& Instruction.fieldMask) =
        second.words.map (· &&& Instruction.fieldMask) ∧
      first.program ≠ second.program ∧
      first.program.source settings = second.program.source settings ∧
      first.program.listing = second.program.listing ∧
      ∃ m m' s,
        Machine.load settings first.program.instructions first.key first.image scratchpad =
          .ok (m, s) ∧
        Machine.load settings second.program.instructions second.key second.image scratchpad =
          .ok (m', s) ∧
        m ≠ m' ∧ m.run s = m'.run s := by
  intro first second settings scratchpad
  have hwords : first.words.map (· &&& Instruction.fieldMask) =
      second.words.map (· &&& Instruction.fieldMask) := by
    have hbits : (0x060000E0#128 ||| ~~~Instruction.fieldMask) &&& Instruction.fieldMask =
        (0x060000E0#128 ||| 0) &&& Instruction.fieldMask := by decide
    simp only [first, second, callsWith, Array.map_replicate, hbits]
  have hrecords : first.program.instructions ≠ second.program.instructions := by
    intro h
    have hsame : first.words = second.words := by
      rw [← first.map_word_instructions, h, second.map_word_instructions]
    exact absurd hsame (by decide)
  have hsize (draw : Draw) : draw.program.instructions.size = draw.words.size := Array.size_map
  obtain ⟨-, hmade⟩ := fields_determine_program.2.2 first second rfl rfl rfl hwords
  obtain ⟨hsource, -, -, hlisting, hloaded⟩ := hmade settings
  have hm : Machine.load settings first.program.instructions first.key first.image scratchpad =
      .ok (⟨settings, _⟩, _) :=
    Machine.load_eq_ok_iff.mpr ⟨by decide, by decide, hsize first, rfl, Array.size_replicate, rfl⟩
  have hm' : Machine.load settings second.program.instructions second.key second.image scratchpad =
      .ok (⟨settings, _⟩, _) :=
    Machine.load_eq_ok_iff.mpr ⟨by decide, by decide, hsize second, rfl, Array.size_replicate, rfl⟩
  exact ⟨hwords, fun h => hrecords (congrArg Program.instructions h), hsource, hlisting, _, _, _,
    hm, hm', fun h => hrecords (Machine.mk.inj h).2, ((hloaded scratchpad).2 _ _ _ _ hm hm').1⟩

end Draw
end RandomMachine
