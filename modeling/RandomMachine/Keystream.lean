/-!
# The ChaCha8 keystream

A seed of 64 bits is stretched to a key of eight words, and the key to an endless stream of bytes in
blocks of 64. A block is the sum of a state and of the same state after eight rounds of mixing; the
state holds four constant words, the key, and the number of the block. A reader hands the bytes out
in their order.
-/

namespace RandomMachine

/-- A keystream, given by its key. -/
structure Keystream where
  key : Vector UInt32 8
  deriving DecidableEq, Repr

namespace Keystream

/-- Rotates a word to the left by `amount` bits, less than 32 of them. -/
def rotate (word amount : UInt32) : UInt32 :=
  (word <<< amount) ||| (word >>> (32 - amount))

/-- Advances the state that stretches a seed: one step of a linear congruence. -/
def nextSeed (seed : UInt64) : UInt64 := seed * 6364136223846793005 + 11634580027462260723

/-- The word that a state of the stretched seed yields: its middle bits, rotated to the right by its
top ones. -/
def seedWord (seed : UInt64) : UInt32 :=
  let right : UInt32 := (seed >>> 59).toUInt32
  rotate (((seed >>> 18) ^^^ seed) >>> 27).toUInt32 ((32 - right) % 32)

/-- The state of the stretched seed after a number of steps. -/
def seedAfter (seed : UInt64) : Nat → UInt64
  | 0 => seed
  | steps + 1 => nextSeed (seedAfter seed steps)

/-- The keystream of a seed. -/
def ofSeed (seed : UInt64) : Keystream :=
  ⟨Vector.ofFn fun i => seedWord (seedAfter seed (i + 1))⟩

/-- Mixes four words of a state. -/
def quarterRound (s : Vector UInt32 16) (a b c d : Fin 16) : Vector UInt32 16 :=
  let half (s : Vector UInt32 16) (left right : UInt32) : Vector UInt32 16 :=
    let s := s.set a (s[a] + s[b])
    let s := s.set d (rotate (s[d] ^^^ s[a]) left)
    let s := s.set c (s[c] + s[d])
    s.set b (rotate (s[b] ^^^ s[c]) right)
  half (half s 16 12) 8 7

/-- Two rounds: the four columns of a state, then its four diagonals. -/
def doubleRound (s : Vector UInt32 16) : Vector UInt32 16 :=
  let s := quarterRound s 0 4 8 12
  let s := quarterRound s 1 5 9 13
  let s := quarterRound s 2 6 10 14
  let s := quarterRound s 3 7 11 15
  let s := quarterRound s 0 5 10 15
  let s := quarterRound s 1 6 11 12
  let s := quarterRound s 2 7 8 13
  quarterRound s 3 4 9 14

/-- The state of a block before it is mixed. -/
def blockState (stream : Keystream) (block : UInt64) : Vector UInt32 16 :=
  let k := stream.key
  #v[0x61707865, 0x3320646E, 0x79622D32, 0x6B206574,
    k[0], k[1], k[2], k[3], k[4], k[5], k[6], k[7],
    block.toUInt32, (block >>> 32).toUInt32, 0, 0]

/-- The words of a block. -/
def block (stream : Keystream) (number : UInt64) : Vector UInt32 16 :=
  let state := stream.blockState number
  let mixed := doubleRound (doubleRound (doubleRound (doubleRound state)))
  state.zipWith (· + ·) mixed

/-- The word of the stream with this number. -/
def word32 (stream : Keystream) (number : Nat) : UInt32 :=
  (stream.block (.ofNat (number / 16)))[number % 16]

/-- The byte of the stream with this number: words are written with their low byte first. -/
def byte (stream : Keystream) (number : Nat) : UInt8 :=
  (stream.word32 (number / 4) >>> (8 * .ofNat (number % 4))).toUInt8

end Keystream

/-- Eight bytes as a word, the low byte first. -/
def littleEndian (bytes : Vector UInt8 8) : UInt64 :=
  bytes.foldr (fun byte word => (word <<< 8) ||| byte.toUInt64) 0

/-- A reader of a keystream. It computes one block at a time, which it keeps until all its bytes are
handed out. -/
structure KeystreamReader where
  stream : Keystream
  /-- Number of bytes that have been handed out. -/
  position : Nat
  block : Vector UInt32 16
  /-- A block that is handed out in part is the one at the position. -/
  block_eq : position % 64 ≠ 0 → block = stream.block (.ofNat (position / 64))

namespace KeystreamReader

/-- The reader of the keystream of a seed, at its first byte. -/
def ofSeed (seed : UInt64) : KeystreamReader where
  stream := .ofSeed seed
  position := 0
  block := Vector.replicate 16 0
  block_eq := fun h => absurd rfl h

/-- The block that the next byte lies in: a new one when the last one is used up. -/
def currentBlock (reader : KeystreamReader) : Vector UInt32 16 :=
  if reader.position % 64 = 0 then reader.stream.block (.ofNat (reader.position / 64))
  else reader.block

/-- The next byte lies in the block at the position. -/
theorem currentBlock_eq (reader : KeystreamReader) :
    reader.currentBlock = reader.stream.block (.ofNat (reader.position / 64)) := by
  unfold currentBlock
  split
  · rfl
  · next h => exact reader.block_eq h

/-- Hands out a byte. -/
def byte (reader : KeystreamReader) : UInt8 × KeystreamReader :=
  let word := reader.currentBlock[reader.position % 64 / 4]
  ((word >>> (8 * .ofNat (reader.position % 4))).toUInt8,
    { stream := reader.stream
      position := reader.position + 1
      block := reader.currentBlock
      block_eq := fun h => by
        rw [reader.currentBlock_eq, show (reader.position + 1) / 64 = reader.position / 64 by omega]
    })

/-- What is handed out is the byte of the stream at the position. -/
theorem byte_fst (reader : KeystreamReader) :
    reader.byte.1 = reader.stream.byte reader.position := by
  have hblock : reader.position / 4 / 16 = reader.position / 64 := by omega
  have hword : reader.position / 4 % 16 = reader.position % 64 / 4 := by omega
  simp only [byte, currentBlock_eq, Keystream.byte, Keystream.word32, hblock, hword]

/-- Hands out a number of bytes, without a gap to what follows. Programs are drawn in multiples of
four bytes, whole words of a block; a reader that drops what is left of a word in use would differ
for other counts only. -/
def bytes (reader : KeystreamReader) : (count : Nat) → Vector UInt8 count × KeystreamReader
  | 0 => (#v[], reader)
  | count + 1 =>
    let front := reader.bytes count
    let last := front.2.byte
    (front.1.push last.1, last.2)

/-- Hands out a word of eight bytes, the low byte first. -/
def word64 (reader : KeystreamReader) : UInt64 × KeystreamReader :=
  let taken := reader.bytes 8
  (littleEndian taken.1, taken.2)

end KeystreamReader
end RandomMachine
