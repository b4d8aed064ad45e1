import RandomMachine.Proofs.Machine.Storage
import RandomMachine.Proofs.Source.Operands

/-!
# Stores and assignments to members

A cell is written in two ways: by storing a scalar into it, and by assigning the value of the
scalar to the member that is written for its type, as emitted C does. Both leave the same cell for
every type but one. A shift amount is stored as the 32 bits that it has, while its member has 64:
there the assignment also replaces the high half.
-/

namespace RandomMachine

/-- Replacing the low half by that of a word gives the word exactly if the cell has its high half.
-/
theorem Cell.withLow_eq_iff (cell : Cell) (word : UInt64) :
    cell.withLow word.toUInt32 = ⟨word⟩ ↔ cell.bits >>> 32 = word >>> 32 := by
  have hbits : cell.withLow word.toUInt32 = ⟨word⟩ ↔
      (cell.withLow word.toUInt32).bits.toNat = word.toNat :=
    ⟨fun h => by rw [h], fun h => congrArg Cell.mk (UInt64.toNat_inj.mp h)⟩
  rw [hbits, cell.toNat_bits_withLow, UInt64.toNat_toUInt32, ← UInt64.toNat_inj,
    UInt64.toNat_shiftRight, UInt64.toNat_shiftRight, Nat.shiftRight_eq_div_pow,
    Nat.shiftRight_eq_div_pow]
  change _ ↔ _ / 2 ^ 32 = _ / 2 ^ 32
  omega

namespace Source

/-- The member that is written for shift amounts takes all bits of a cell. -/
theorem storeMember_shift (mode : RoundingMode) (cell : Cell) (amount : Int32) :
    storeMember mode cell OperandType.shift.writtenMember (.ofScalar (.shift amount)) =
      some ⟨(Scalar.shift amount).toUInt64⟩ :=
  congrArg some (cell.writeBytes_eight _)

/-- A shift amount is stored as it is assigned to the signed member of 32 bits. -/
theorem storeMember_int32_shift (mode : RoundingMode) (cell : Cell) (amount : Int32) :
    storeMember mode cell .int32 (.ofScalar (.shift amount)) = some (cell.store (.shift amount)) :=
  @storeMember_ofScalar mode cell (.int32 amount) OperandType.noConfusion

/-- Storing a shift amount leaves the cell that its word is exactly if the cell has the high half of
the word. -/
theorem store_shift_eq_iff (cell : Cell) (amount : Int32) :
    cell.store (.shift amount) = ⟨(Scalar.shift amount).toUInt64⟩ ↔
      cell.bits >>> 32 = (Scalar.shift amount).toUInt64 >>> 32 := by
  rw [← cell.withLow_eq_iff, Scalar.toUInt64, IntegerType.toUInt32_toInt64, Cell.store]

/-- Assigning a scalar to the member that is written for its type, wherever its cell lies, changes
the cell as storing the scalar does; only for a shift amount the cell must have had the high half of
the amount's word. A shift amount is stored as it is assigned to the signed member of 32 bits. -/
theorem assign_writtenMember (value : Scalar) (window : Window) (base : Fin registerCount)
    (position address : UInt32) (s : State) :
    let object := Object.cell (window.index (s.r.read (.ofNat base) ^^^ position.toUInt64).toUInt32)
    let stored := (object.load s).store value
    (∃ assigned,
      lvalueOf address (Place.cell window (.ofNat base) position value.type.writtenMember).text s =
        some (.member object value.type.writtenMember, s) ∧
      (Lvalue.member object value.type.writtenMember).assign (.ofScalar value) s =
        some (object.store s assigned) ∧
      (assigned = stored ↔
        (value.type = .shift → (object.load s).bits >>> 32 = value.toUInt64 >>> 32))) ∧
    (value.type = .shift →
      (Lvalue.member object .int32).assign (.ofScalar value) s = some (object.store s stored)) := by
  intro object stored
  have hbase : (UInt8.ofNat base).toNat < registerCount := by
    rw [UInt8.toNat_ofNat']
    exact Nat.lt_of_le_of_lt (Nat.mod_le _ _) base.isLt
  have hlvalue (part : Member) := lvalueOf_cell window hbase position part address s
  have hassign {part : Member} {content : Cell}
      (h : storeMember s.mode (object.load s) part (.ofScalar value) = some content) :
      (Lvalue.member object part).assign (.ofScalar value) s = some (object.store s content) :=
    congrArg (Option.map fun content => object.store s content) h
  by_cases hshift : value.type = .shift
  · obtain ⟨amount, rfl⟩ : ∃ amount, value = .shift amount := by
      cases value with
      | shift amount => exact ⟨amount, rfl⟩
      | _ => cases hshift
    refine ⟨⟨_, hlvalue _, hassign (storeMember_shift s.mode _ amount), ?_⟩,
      fun _ => hassign (storeMember_int32_shift s.mode _ amount)⟩
    rw [eq_comm, store_shift_eq_iff]
    exact ⟨fun h _ => h, fun h => h rfl⟩
  · exact ⟨⟨_, hlvalue _, hassign (storeMember_ofScalar s.mode _ hshift),
      iff_of_true rfl fun h => absurd h hshift⟩, fun h => absurd h hshift⟩

/-- A shift amount of five, assigned to its member, clears the high half of a cell that keeps it
when the amount is stored. -/
theorem storeMember_shift_ne_store :
    storeMember .nearest ⟨0xAAAABBBBCCCCDDDD⟩ OperandType.shift.writtenMember
        (.ofScalar (.shift 5)) = some ⟨0x0000000000000005⟩ ∧
      Cell.store ⟨0xAAAABBBBCCCCDDDD⟩ (.shift 5) = ⟨0xAAAABBBB00000005⟩ ∧
      storeMember .nearest ⟨0xAAAABBBBCCCCDDDD⟩ OperandType.shift.writtenMember
        (.ofScalar (.shift 5)) ≠ some (Cell.store ⟨0xAAAABBBBCCCCDDDD⟩ (.shift 5)) := by decide

end Source
end RandomMachine
