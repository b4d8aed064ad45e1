import Mathlib.Algebra.Group.Nat.Defs
import RandomMachine.Cell
import RandomMachine.Location

/-!
# Bytes of cells

A cell of emitted C is eight bytes, the lowest one first. All members of the union begin at its
first byte, so the members of four bytes are the low half, and writing one of them keeps the bytes
of the high half.
-/

namespace RandomMachine

/-- The lowest bytes of a number, the lowest one first. -/
def lowBytes : (count : Nat) → Nat → List UInt8
  | 0, _ => []
  | count + 1, value => .ofNat value :: lowBytes count (value / 256)

/-- The number of a run of bytes, the lowest one first. -/
def byteValue : List UInt8 → Nat
  | [] => 0
  | byte :: rest => byte.toNat + 256 * byteValue rest

/-- There are as many bytes as were asked for. -/
theorem length_lowBytes (count value : Nat) : (lowBytes count value).length = count := by
  induction count generalizing value with
  | zero => rfl
  | succ count ih => rw [lowBytes, List.length_cons, ih]

/-- The lowest bytes hold the number up to their width. -/
theorem byteValue_lowBytes (count value : Nat) :
    byteValue (lowBytes count value) = value % 256 ^ count := by
  induction count generalizing value with
  | zero => rw [Nat.pow_zero, Nat.mod_one]; rfl
  | succ count ih =>
    have hmul : value % 256 ^ (count + 1) =
        value % 256 + 256 * (value / 256 % 256 ^ count) := by
      rw [Nat.pow_succ', Nat.mod_mul]
    rw [lowBytes, byteValue, ih, UInt8.toNat_ofNat', hmul]

/-- Bytes behind others weigh more. -/
theorem byteValue_append (first second : List UInt8) :
    byteValue (first ++ second) = byteValue first + 256 ^ first.length * byteValue second := by
  induction first with
  | nil => rw [List.nil_append, List.length_nil, Nat.pow_zero, Nat.one_mul, byteValue, Nat.zero_add]
  | cons byte first ih =>
    rw [List.cons_append, byteValue, byteValue, ih, List.length_cons, Nat.pow_succ', Nat.mul_add,
      Nat.mul_assoc, Nat.add_assoc]

/-- A number has no more bytes than it is made of. -/
theorem byteValue_lt (bytes : List UInt8) : byteValue bytes < 256 ^ bytes.length := by
  induction bytes with
  | nil => exact Nat.one_pos
  | cons byte bytes ih =>
    have hbyte := byte.toNat_lt
    rw [byteValue, List.length_cons, Nat.pow_succ]
    omega

/-- The first of the lowest bytes are the lowest bytes of the same number. -/
theorem take_lowBytes (count more value : Nat) :
    (lowBytes (count + more) value).take count = lowBytes count value := by
  induction count generalizing value with
  | zero => rfl
  | succ count ih =>
    rw [Nat.add_right_comm, lowBytes, List.take_succ_cons, ih, lowBytes]

/-- The last of the lowest bytes are those of the number without the first ones. -/
theorem drop_lowBytes (count more value : Nat) :
    (lowBytes (count + more) value).drop count = lowBytes more (value / 256 ^ count) := by
  induction count generalizing value with
  | zero => rw [Nat.zero_add, Nat.pow_zero, Nat.div_one]; rfl
  | succ count ih =>
    rw [Nat.add_right_comm, lowBytes, List.drop_succ_cons, ih, Nat.div_div_eq_div_mul,
      Nat.pow_succ']

namespace Cell

/-- The bytes of a cell in memory. -/
def bytes (cell : Cell) : List UInt8 := lowBytes cellSize cell.bits.toNat

/-- The number that the first bytes of a cell hold. -/
def readBytes (cell : Cell) (count : Nat) : UInt64 := .ofNat (byteValue (cell.bytes.take count))

/-- Replaces the first bytes of a cell and keeps the others. -/
def writeBytes (cell : Cell) (count : Nat) (word : UInt64) : Cell :=
  ⟨.ofNat (byteValue (lowBytes count word.toNat ++ cell.bytes.drop count))⟩

/-- All bytes of a cell are its bits. -/
theorem readBytes_eight (cell : Cell) : cell.readBytes 8 = cell.bits := by
  apply UInt64.toNat_inj.mp
  have hlt := cell.bits.toNat_lt
  rw [readBytes, bytes, cellSize, take_lowBytes 8 0, byteValue_lowBytes, UInt64.toNat_ofNat']
  omega

/-- Four bytes of a cell are its low half. -/
theorem readBytes_four (cell : Cell) : cell.readBytes 4 = cell.toUInt32.toUInt64 := by
  apply UInt64.toNat_inj.mp
  rw [readBytes, bytes, cellSize, take_lowBytes 4 4, byteValue_lowBytes, UInt64.toNat_ofNat',
    toUInt32, UInt32.toNat_toUInt64, UInt64.toNat_toUInt32]
  omega

/-- Writing all bytes of a cell replaces its bits. -/
theorem writeBytes_eight (cell : Cell) (word : UInt64) : cell.writeBytes 8 word = ⟨word⟩ := by
  have hdrop : cell.bytes.drop 8 = [] :=
    List.drop_eq_nil_of_le (Nat.le_of_eq (length_lowBytes 8 _))
  have hlt := word.toNat_lt
  rw [writeBytes, hdrop, List.append_nil, byteValue_lowBytes]
  congr 1
  apply UInt64.toNat_inj.mp
  rw [UInt64.toNat_ofNat']
  omega

/-- Writing four bytes of a cell replaces its low half. -/
theorem writeBytes_four (cell : Cell) (word : UInt64) :
    cell.writeBytes 4 word = cell.withLow word.toUInt32 := by
  have hlow := congrArg UInt32.toNat (cell.toUInt32_withLow word.toUInt32)
  have hhigh := congrArg UInt64.toNat (cell.high_withLow word.toUInt32)
  have hlt := cell.bits.toNat_lt
  have hlt' := (cell.withLow word.toUInt32).bits.toNat_lt
  simp only [toUInt32, UInt64.toNat_toUInt32, UInt64.toNat_shiftRight, Nat.shiftRight_eq_div_pow,
    UInt64.reduceToNat, Nat.reduceMod] at hlow hhigh
  have hbits : (cell.writeBytes 4 word).bits = (cell.withLow word.toUInt32).bits := by
    apply UInt64.toNat_inj.mp
    rw [writeBytes, bytes, cellSize, drop_lowBytes 4 4, byteValue_append, length_lowBytes,
      byteValue_lowBytes, byteValue_lowBytes, UInt64.toNat_ofNat']
    omega
  exact congrArg Cell.mk hbits

end Cell
end RandomMachine
