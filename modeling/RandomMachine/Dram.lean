/-!
# Simulated DRAM

Memory content is a function of the address, so no buffer is kept. A cursor walks through blocks of
256 bytes. Every read mixes the address it was asked for into a sum; in the middle of a block the
sum fixes the block that follows.
-/

namespace RandomMachine

/-- Position in the simulated memory. Specification, section E12. -/
structure DramCursor where
  /-- Address of the next read. -/
  position : UInt32
  /-- Address of the block that follows the current one. -/
  nextBlock : UInt32
  /-- Exclusive sum of all addresses asked for. -/
  mix : UInt32
  deriving DecidableEq, Repr, Inhabited

namespace DramCursor

/-- Factor of the congruence that fills the memory. -/
def multiplier : UInt64 := 6364136223846793005

/-- Increment of the congruence that fills the memory. -/
def increment : UInt64 := 1442695040888963407

/-- Bytes from one read to the next. -/
def stride : UInt32 := 8

/-- Offset in a block at which the block that follows is fixed. -/
def latchOffset : UInt32 := 128

/-- Address bits that name a block. -/
def blockMask : UInt32 := 0xFFFFFF00

/-- Bytes of the memory that is simulated: all that an address of 32 bits reaches. -/
def memorySize : Nat := 0x100000000

/-- Memory content at an address: one step of a linear congruence with its halves exchanged.
Specification, section 4.5. -/
def content (position : UInt32) : UInt64 :=
  let word := multiplier * position.toUInt64 + increment
  (word <<< 32) ||| (word >>> 32)

/-- The cursor at the start of a run: three bytes of the key name the first block. Specification,
section E12. -/
def ofKey (key : Vector UInt8 32) : DramCursor where
  position :=
    (key[9].toUInt32 <<< 8) ||| (key[10].toUInt32 <<< 16) ||| (key[11].toUInt32 <<< 24)
  nextBlock := 0
  mix := 0

/-- Reads one word and moves on. The address is mixed in before the middle of a block is tested, and
at the end of a block the cursor jumps to the block that was fixed. Specification, section 4.5. -/
def read (cursor : DramCursor) (address : UInt32) : UInt64 × DramCursor :=
  let position := cursor.position + stride
  let mix := cursor.mix ^^^ address
  let nextBlock :=
    if position &&& 255 = latchOffset then mix &&& blockMask else cursor.nextBlock
  (content cursor.position,
    ⟨if position &&& 255 = 0 then nextBlock else position, nextBlock, mix⟩)

/-- A read yields the content where the cursor stands, whatever address was asked for. -/
theorem word_read (cursor : DramCursor) (address : UInt32) :
    (cursor.read address).1 = content cursor.position := rfl

/-- Every address that was asked for enters the sum. -/
theorem mix_read (cursor : DramCursor) (address : UInt32) :
    (cursor.read address).2.mix = cursor.mix ^^^ address := rfl

/-! ### Addresses without a cursor -/

/-- Exclusive sum of addresses. -/
def exclusiveSum (addresses : List UInt32) : UInt32 := addresses.foldl (· ^^^ ·) 0

/-- Address of the block with this number. The first one is named by three bytes of the key, every
other one by the reads up to the middle of the block before it. -/
def blockStart (key : Vector UInt8 32) (addresses : List UInt32) : Nat → UInt32
  | 0 => .ofNat (0x100 * (key[9].toNat + 0x100 * key[10].toNat + 0x10000 * key[11].toNat))
  | j + 1 => exclusiveSum (addresses.take (32 * j + 16)) &&& 0xFFFFFF00

/-- Address of the word that the read with this number yields. -/
def wordAddress (key : Vector UInt8 32) (addresses : List UInt32) (n : Nat) : UInt32 :=
  blockStart key addresses (n / 32) + 8 * .ofNat (n % 32)

end DramCursor
end RandomMachine
