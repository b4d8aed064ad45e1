import RandomMachine.Program
import RandomMachine.Proofs.Source.Memory
import Mathlib.Data.List.OfFn

/-!
# Drawing

Where in its keystream a program comes from. A reader hands out the bytes of the stream in their
order, whatever blocks they lie in, so that every part of a program has a fixed place: the key, the
register image, and one word of sixteen bytes after another. A larger program of the same seed
continues a smaller one.
-/

namespace RandomMachine

/-! ### Words of bytes -/

/-- Sixteen bytes of a stream from an offset on as one word, the low byte first. -/
def Keystream.wordAt (stream : Keystream) (offset : Nat) : BitVec 128 :=
  .ofNat 128 (byteValue (List.ofFn fun i : Fin 16 => stream.byte (offset + i)))

/-- Up to eight bytes that are shifted in, the last one first, make the number of the bytes. -/
theorem toNat_foldr_bytes (bytes : List UInt8) (h : bytes.length ≤ 8) :
    (bytes.foldr (fun (byte : UInt8) (word : UInt64) => (word <<< 8) ||| byte.toUInt64) 0).toNat =
      byteValue bytes := by
  induction bytes with
  | nil => rfl
  | cons byte bytes ih =>
    rw [List.length_cons] at h
    have ih := ih (by omega)
    have hlt := byteValue_lt bytes
    have hpow : 256 ^ bytes.length ≤ 256 ^ 7 := Nat.pow_le_pow_right (by decide) (by omega)
    have hbyte := byte.toNat_lt
    rw [List.foldr_cons, byteValue, UInt64.toNat_or, UInt64.toNat_shiftLeft, UInt8.toNat_toUInt64,
      ih]
    change byteValue bytes <<< 8 % 2 ^ 64 ||| _ = _
    rw [Nat.mod_eq_of_lt (by rw [Nat.shiftLeft_eq]; omega),
      ← Nat.shiftLeft_add_eq_or_of_lt hbyte, Nat.shiftLeft_eq]
    omega

/-- The number of a word that eight bytes make. -/
theorem toNat_littleEndian (bytes : Vector UInt8 8) :
    (littleEndian bytes).toNat = byteValue bytes.toList := by
  rw [← toNat_foldr_bytes _ (by rw [Vector.length_toList]), littleEndian, Vector.foldr_toList]

/-! ### Reading -/

namespace KeystreamReader

variable (reader : KeystreamReader)

/-- A byte comes from the same stream as the next one. -/
@[simp]
theorem byte_stream : reader.byte.2.stream = reader.stream := rfl

/-- A byte moves the reader by one. -/
@[simp]
theorem byte_position : reader.byte.2.position = reader.position + 1 := rfl

/-- Bytes leave the stream alone. -/
@[simp]
theorem bytes_stream (count : Nat) : (reader.bytes count).2.stream = reader.stream := by
  induction count with
  | zero => rfl
  | succ count ih => rw [bytes, byte_stream, ih]

/-- Bytes move the reader by their number. -/
@[simp]
theorem bytes_position (count : Nat) :
    (reader.bytes count).2.position = reader.position + count := by
  induction count with
  | zero => rfl
  | succ count ih => rw [bytes, byte_position, ih, Nat.add_assoc]

/-- The bytes that are handed out are those of the stream from the position on. -/
theorem toList_bytes (count : Nat) : (reader.bytes count).1.toList =
    List.ofFn fun i : Fin count => reader.stream.byte (reader.position + i) := by
  induction count with
  | zero => rfl
  | succ count ih =>
    change ((reader.bytes count).1.push (reader.bytes count).2.byte.1).toList = _
    rw [Vector.toList_push, ih, byte_fst, bytes_stream, bytes_position, List.ofFn_succ_last]
    rfl

/-- Single bytes of them. -/
theorem get_bytes (count : Nat) (i : Fin count) :
    (reader.bytes count).1.get i = reader.stream.byte (reader.position + i) := by
  change (reader.bytes count).1[i.val] = _
  rw [← Vector.getElem_toList (by rw [Vector.length_toList]; exact i.isLt)]
  simp only [toList_bytes, List.getElem_ofFn]

/-- A word leaves the stream alone. -/
@[simp]
theorem word64_stream : reader.word64.2.stream = reader.stream := by
  rw [word64, bytes_stream]

/-- A word moves the reader by eight bytes. -/
@[simp]
theorem word64_position : reader.word64.2.position = reader.position + 8 := by
  rw [word64, bytes_position]

/-- A word is made of the next eight bytes. -/
theorem toNat_word64 : reader.word64.1.toNat =
    byteValue (List.ofFn fun i : Fin 8 => reader.stream.byte (reader.position + i)) := by
  rw [word64, toNat_littleEndian, toList_bytes]

/-- Two words, the low one first, are made of the next sixteen bytes. -/
theorem word64_append_word64 :
    reader.word64.2.word64.1.toBitVec ++ reader.word64.1.toBitVec =
      reader.stream.wordAt reader.position := by
  have hlow := reader.word64.1.toNat_lt
  have hhigh := reader.word64.2.word64.1.toNat_lt
  have hsplit : byteValue
      (List.ofFn fun i : Fin (8 + 8) => reader.stream.byte (reader.position + i)) =
        reader.word64.1.toNat + 256 ^ 8 * reader.word64.2.word64.1.toNat := by
    rw [toNat_word64, toNat_word64, word64_stream, word64_position, List.ofFn_add, byteValue_append,
      List.length_ofFn]
    simp only [Fin.val_castLE, Fin.val_natAdd, Nat.add_assoc]
  apply BitVec.eq_of_toNat_eq
  rw [Keystream.wordAt, BitVec.toNat_ofNat, hsplit, BitVec.toNat_append,
    ← Nat.shiftLeft_add_eq_or_of_lt (BitVec.isLt _), Nat.shiftLeft_eq, UInt64.toNat_toBitVec,
    UInt64.toNat_toBitVec]
  omega

end KeystreamReader

/-! ### The parts of a program -/

namespace Draw

/-- The first slot takes the next two words, and the others what follows. -/
theorem takeWords_succ (count : Nat) (reader : KeystreamReader) (taken : Array (BitVec 128)) :
    takeWords (count + 1) reader taken = takeWords count reader.word64.2.word64.2
      (taken.push (reader.stream.wordAt reader.position)) := by
  rw [takeWords, ← reader.word64_append_word64]

/-- Slots take one word of sixteen bytes after another. -/
theorem toList_takeWords (count : Nat) (reader : KeystreamReader) (taken : Array (BitVec 128)) :
    (takeWords count reader taken).toList = taken.toList ++
      List.ofFn fun i : Fin count => reader.stream.wordAt (reader.position + 16 * i) := by
  induction count generalizing reader taken with
  | zero => rw [takeWords, List.ofFn_zero, List.append_nil]
  | succ count ih =>
    have hoffset (i : Fin count) :
        reader.position + 8 + 8 + 16 * i.val = reader.position + 16 * i.succ.val := by
      rw [Fin.val_succ]
      omega
    rw [takeWords_succ, ih, Array.toList_push, List.append_assoc, List.ofFn_succ]
    simp only [KeystreamReader.word64_stream, KeystreamReader.word64_position, hoffset,
      Fin.val_zero, Nat.mul_zero, Nat.add_zero, List.cons_append, List.nil_append]

/-- The words of the slots begin after the key and the register image. -/
theorem words_ofSeed (seed : UInt64) (size : Nat) : (ofSeed seed size).words =
    Array.ofFn fun i : Fin size =>
      (Keystream.ofSeed seed).wordAt (keyLength + imageLength + 16 * i) := by
  apply Array.toList_inj.mp
  rw [ofSeed, toList_takeWords, Array.toList_ofFn, KeystreamReader.bytes_stream,
    KeystreamReader.bytes_stream, KeystreamReader.bytes_position, KeystreamReader.bytes_position]
  simp only [KeystreamReader.ofSeed, Nat.zero_add, List.nil_append]

end Draw

namespace Program

/-- The instructions of a drawn program are read from the words of its slots. -/
theorem instructions_ofSeed (seed : UInt64) (settings : Settings) :
    (ofSeed seed settings).instructions = Array.ofFn fun i : Fin settings.programSize.toNat =>
      .ofWord ((Keystream.ofSeed seed).wordAt (keyLength + imageLength + 16 * i)) := by
  rw [ofSeed, Draw.program, Draw.words_ofSeed, Array.map_ofFn, Function.comp_def]

/-- The key of a drawn program is made of the first bytes of the keystream. -/
theorem key_ofSeed (seed : UInt64) (settings : Settings) (i : Fin keyLength) :
    (ofSeed seed settings).key.get i = (Keystream.ofSeed seed).byte i := by
  have hkey : (ofSeed seed settings).key = ((KeystreamReader.ofSeed seed).bytes keyLength).1 := by
    rw [ofSeed, Draw.program, Draw.ofSeed]
  rw [hkey, KeystreamReader.get_bytes, KeystreamReader.ofSeed, Nat.zero_add]

/-- The register image of a drawn program is made of the bytes after the key. -/
theorem image_ofSeed (seed : UInt64) (settings : Settings) (i : Fin imageLength) :
    (ofSeed seed settings).image.get i = (Keystream.ofSeed seed).byte (keyLength + i) := by
  have himage : (ofSeed seed settings).image =
      (((KeystreamReader.ofSeed seed).bytes keyLength).2.bytes imageLength).1 := by
    rw [ofSeed, Draw.program, Draw.ofSeed]
  rw [himage, KeystreamReader.get_bytes, KeystreamReader.bytes_stream,
    KeystreamReader.bytes_position, KeystreamReader.ofSeed, Nat.zero_add]

/-- Every part of a drawn program has its place in the keystream of its seed: the key in the first
32 bytes, the register image in the next 128, and the word of each slot in sixteen bytes after
those. The program that settings with more slots draw has the same key and register image and begins
with the same instructions, whatever else the settings say. -/
theorem ofSeed_stable (seed : UInt64) (small large : Settings)
    (h : small.programSize ≤ large.programSize) :
    (ofSeed seed small).key = (ofSeed seed large).key ∧
    (ofSeed seed small).image = (ofSeed seed large).image ∧
    (ofSeed seed small).instructions =
      (ofSeed seed large).instructions.take small.programSize.toNat ∧
    (ofSeed seed small).instructions.size = small.programSize.toNat ∧
    (∀ i : Fin keyLength, (ofSeed seed small).key.get i = (Keystream.ofSeed seed).byte i) ∧
    (∀ i : Fin imageLength,
      (ofSeed seed small).image.get i = (Keystream.ofSeed seed).byte (32 + i)) ∧
    ∀ i : Fin small.programSize.toNat, (ofSeed seed small).instructions[i]? =
      some (.ofWord ((Keystream.ofSeed seed).wordAt (160 + 16 * i))) := by
  have hsize : small.programSize.toNat ≤ large.programSize.toNat := UInt64.le_iff_toNat_le.mp h
  refine ⟨?_, ?_, ?_, ?_, key_ofSeed seed small, image_ofSeed seed small, fun i => ?_⟩
  · refine Vector.ext fun i hi => ?_
    exact (key_ofSeed seed small ⟨i, hi⟩).trans (key_ofSeed seed large ⟨i, hi⟩).symm
  · refine Vector.ext fun i hi => ?_
    exact (image_ofSeed seed small ⟨i, hi⟩).trans (image_ofSeed seed large ⟨i, hi⟩).symm
  · rw [instructions_ofSeed, instructions_ofSeed, Array.take_eq_extract]
    apply Array.ext
    · rw [Array.size_extract, Array.size_ofFn, Array.size_ofFn, Nat.min_eq_left hsize, Nat.sub_zero]
    · intro i hi hi'
      rw [Array.getElem_extract, Array.getElem_ofFn, Array.getElem_ofFn]
      simp only [Nat.zero_add]
  · rw [instructions_ofSeed, Array.size_ofFn]
  · rw [instructions_ofSeed, Fin.getElem?_fin, Array.getElem?_ofFn, dif_pos i.isLt]
    rfl

/-- Four slots and eight of one seed, under settings that differ in everything else. -/
theorem ofSeed_stable_four_eight :
    (ofSeed 7 { programSize := 4, budget := 6, dram := .buffer }).key =
      (ofSeed 7 { programSize := 8, seed := some 9, stackLength := 2 }).key ∧
    (ofSeed 7 { programSize := 4, budget := 6, dram := .buffer }).instructions =
      (ofSeed 7 { programSize := 8, seed := some 9, stackLength := 2 }).instructions.take 4 ∧
    (ofSeed 7 { programSize := 4, budget := 6, dram := .buffer }).instructions[3]? =
      some (.ofWord ((Keystream.ofSeed 7).wordAt 208)) := by
  obtain ⟨hkey, -, hinstructions, -, -, -, hword⟩ :=
    ofSeed_stable 7 { programSize := 4, budget := 6, dram := .buffer }
      { programSize := 8, seed := some 9, stackLength := 2 } (by decide)
  exact ⟨hkey, hinstructions, hword ⟨3, by decide⟩⟩

end Program
end RandomMachine
