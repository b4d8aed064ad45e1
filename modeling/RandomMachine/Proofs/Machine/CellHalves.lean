import Mathlib.Data.List.Induction
import RandomMachine.Proofs.Machine.Storage

/-!
# Halves of cells

A cell remembers what is stored into it by halves. A scalar of 32 bits replaces the low half and any
other scalar the whole cell. So after a sequence of stores the low half comes from the last scalar,
and the high half from the last one that takes a whole cell, however many narrow ones followed it.
-/

namespace RandomMachine

/-- Whether a scalar takes a whole cell: it has 64 bits. -/
def Scalar.isWide : Scalar → Bool
  | .int64 _ | .uint64 _ | .double _ => true
  | .int32 _ | .uint32 _ | .shift _ => false

/-- The word of the last of some scalars, or an initial word if there are none. -/
def lastWord (initial : UInt64) (values : List Scalar) : UInt64 :=
  (values.getLast?.map Scalar.bits).getD initial

/-- The scalar at the end is the last one. -/
theorem lastWord_concat (initial : UInt64) (values : List Scalar) (value : Scalar) :
    lastWord initial (values ++ [value]) = value.bits := by
  rw [lastWord, List.getLast?_concat, Option.map_some, Option.getD_some]

namespace Cell

/-- A cell as a scalar of a type: its member of that type, and for a shift amount the signed one of
32 bits. -/
def view (cell : Cell) : OperandType → Scalar
  | .int32 => .int32 cell.toInt32
  | .uint32 => .uint32 cell.toUInt32
  | .int64 => .int64 cell.toInt64
  | .uint64 => .uint64 cell.toUInt64
  | .float => .double cell.toBinary64
  | .shift => .shift cell.toInt32

/-! ### One store -/

/-- Every store replaces the low half by that of the scalar. -/
theorem toUInt32_store (cell : Cell) (value : Scalar) :
    (cell.store value).toUInt32 = value.bits.toUInt32 := by
  cases value with
  | int32 value | shift value =>
    rw [store, toUInt32_withLow]
    exact (toUInt32_signExtend value.toUInt32).symm
  | uint32 value =>
    rw [store, toUInt32_withLow]
    exact (UInt32.toUInt32_toUInt64 value).symm
  | int64 value | uint64 value | double value => rfl

/-- A narrow store keeps the high half, whatever the sign of the scalar. -/
theorem high_store_of_narrow (cell : Cell) {value : Scalar} (h : value.isWide = false) :
    (cell.store value).bits >>> 32 = cell.bits >>> 32 := by
  cases value with
  | int32 value | uint32 value | shift value => exact cell.high_withLow _
  | int64 value | uint64 value | double value => cases h

/-- A wide store replaces all bits. -/
theorem bits_store_of_wide (cell : Cell) {value : Scalar} (h : value.isWide = true) :
    (cell.store value).bits = value.bits := by
  cases value with
  | int32 value | uint32 value | shift value => cases h
  | int64 value | uint64 value | double value => rfl

/-- What was stored is read back under its type. -/
theorem view_store (cell : Cell) (value : Scalar) : (cell.store value).view value.type = value := by
  cases value with
  | int32 value =>
    exact congrArg (fun low => Scalar.int32 low.toInt32) (cell.toUInt32_withLow value.toUInt32)
  | uint32 value => exact congrArg Scalar.uint32 (cell.toUInt32_withLow value)
  | shift value =>
    exact congrArg (fun low => Scalar.shift low.toInt32) (cell.toUInt32_withLow value.toUInt32)
  | int64 value | uint64 value | double value => rfl

/-! ### Sequences of stores -/

/-- The cell after scalars have been stored one after the other. -/
def storeAll (cell : Cell) (values : List Scalar) : Cell := values.foldl store cell

/-- The last scalar is stored into what the others left. -/
theorem storeAll_concat (cell : Cell) (values : List Scalar) (value : Scalar) :
    cell.storeAll (values ++ [value]) = (cell.storeAll values).store value := by
  rw [storeAll, List.foldl_append]
  rfl

/-- The low half is that of the last scalar. -/
theorem toUInt32_storeAll (cell : Cell) (values : List Scalar) :
    (cell.storeAll values).toUInt32 = (lastWord cell.bits values).toUInt32 := by
  cases values using List.reverseRecOn with
  | nil => rfl
  | append_singleton before value _ => rw [storeAll_concat, toUInt32_store, lastWord_concat]

/-- The high half is that of the last wide scalar. -/
theorem high_storeAll (cell : Cell) (values : List Scalar) :
    (cell.storeAll values).bits >>> 32 =
      lastWord cell.bits (values.filter Scalar.isWide) >>> 32 := by
  -- Induction from the end: the last store either settles the half or leaves it to those before.
  induction values using List.reverseRecOn with
  | nil => rfl
  | append_singleton before value ih =>
    rw [storeAll_concat, List.filter_append]
    cases hwide : value.isWide with
    | true =>
      rw [bits_store_of_wide _ hwide, List.filter_cons_of_pos hwide, List.filter_nil,
        lastWord_concat]
    | false =>
      have hnarrow : ¬ value.isWide = true := Bool.eq_false_iff.mp hwide
      rw [high_store_of_narrow _ hwide, ih, List.filter_cons_of_neg hnarrow, List.filter_nil,
        List.append_nil]

/-- After any sequence of stores the low half of a cell is that of the last scalar, and the high
half that of the last scalar of 64 bits; a half that no store has reached is the initial one. Read
under its type, the last scalar comes back bit by bit, which includes the bits of NaNs. -/
theorem storeAll_halves (cell : Cell) (values : List Scalar) :
    (cell.storeAll values).toUInt32 = (lastWord cell.bits values).toUInt32 ∧
    (cell.storeAll values).bits >>> 32 =
      lastWord cell.bits (values.filter Scalar.isWide) >>> 32 ∧
    ∀ value, values.getLast? = some value → (cell.storeAll values).view value.type = value := by
  refine ⟨cell.toUInt32_storeAll values, cell.high_storeAll values, fun value hlast => ?_⟩
  obtain ⟨before, rfl⟩ := List.getLast?_eq_some_iff.mp hlast
  rw [storeAll_concat, view_store]

/-- A signaling NaN that follows narrow and wide stores comes back as it is. A negative number of 32
bits that follows it leaves its upper half. -/
theorem storeAll_halves_signaling :
    let cell : Cell := ⟨0xAAAABBBBCCCCDDDD⟩
    let nan : Scalar := .double ⟨0x7FF4000000000001⟩
    let values : List Scalar := [.uint32 0x12345678, .int64 5, .int32 (-7), nan]
    let longer := values ++ [.int32 (-1)]
    (values.getLast? = some nan ∧ (cell.storeAll values).view .float = nan) ∧
    (longer.getLast? = some (.int32 (-1)) ∧
      (cell.storeAll longer).view .int32 = .int32 (-1)) ∧
    (cell.storeAll longer).toUInt32 = 0xFFFFFFFF ∧
    (cell.storeAll longer).bits >>> 32 = 0x7FF40000 := by
  intro cell nan values longer
  obtain ⟨-, -, hnan⟩ := storeAll_halves cell values
  obtain ⟨hlow, hhigh, hminus⟩ := storeAll_halves cell longer
  exact ⟨⟨rfl, hnan nan rfl⟩, ⟨rfl, hminus (.int32 (-1)) rfl⟩, hlow.trans (by decide),
    hhigh.trans (by decide)⟩

end Cell
end RandomMachine
