import Mathlib.Data.List.Induction
import RandomMachine.Proofs.Machine.Invariant

/-!
# The stream of DRAM words

The words that a sequence of reads yields, without the cursor: a block gives 32 words in order, the
key names the first block, and the addresses of all reads up to the middle of a block name the block
that follows it.
-/

namespace RandomMachine.DramCursor

/-- The cursor after reads at these addresses. -/
def afterReads (cursor : DramCursor) (addresses : List UInt32) : DramCursor :=
  addresses.foldl (fun cursor address => (cursor.read address).2) cursor

/-- The words that reads at these addresses yield. -/
def words (cursor : DramCursor) : List UInt32 → List UInt64
  | [] => []
  | address :: rest => (cursor.read address).1 :: (cursor.read address).2.words rest

/-! ### Reads one by one -/

/-- One more read moves the cursor once more. -/
theorem afterReads_concat (cursor : DramCursor) (addresses : List UInt32) (address : UInt32) :
    cursor.afterReads (addresses ++ [address]) =
      ((cursor.afterReads addresses).read address).2 := by
  rw [afterReads, List.foldl_append]
  rfl

/-- One more read yields the word at which the cursor stands. -/
theorem words_concat (cursor : DramCursor) (addresses : List UInt32) (address : UInt32) :
    cursor.words (addresses ++ [address]) =
      cursor.words addresses ++ [content (cursor.afterReads addresses).position] := by
  induction addresses generalizing cursor with
  | nil => rfl
  | cons first rest ih => exact congrArg (_ :: ·) (ih _)

/-- One more address enters the sum. -/
theorem exclusiveSum_concat (addresses : List UInt32) (address : UInt32) :
    exclusiveSum (addresses ++ [address]) = exclusiveSum addresses ^^^ address := by
  rw [exclusiveSum, List.foldl_append]
  rfl

/-- Reads behind the middle of a block say nothing about the block that follows. -/
theorem blockStart_congr {key : Vector UInt8 32} {addresses others : List UInt32} {j : Nat}
    (h : others.take (32 * j + 16) = addresses.take (32 * j + 16)) :
    blockStart key others (j + 1) = blockStart key addresses (j + 1) := by
  rw [blockStart, blockStart, h]

/-- A block that is named by reads which have taken place stays the same when one more follows. -/
theorem blockStart_concat (key : Vector UInt8 32) {addresses : List UInt32} (address : UInt32)
    {j : Nat} (h : 32 * j ≤ addresses.length + 16) :
    blockStart key (addresses ++ [address]) j = blockStart key addresses j := by
  cases j with
  | zero => rfl
  | succ j => exact blockStart_congr (List.take_append_of_le_length (by omega))

/-! ### Positions in a block -/

/-- Blocks are aligned. -/
theorem toNat_blockStart_mod (key : Vector UInt8 32) (addresses : List UInt32) (j : Nat) :
    (blockStart key addresses j).toNat % 256 = 0 := by
  cases j with
  | zero =>
    rw [blockStart, UInt32.toNat_ofNat']
    omega
  | succ j => exact toNat_and_blockMask_mod _

/-- No address of a word wraps around, not even in the last block of the memory. -/
theorem toNat_wordAddress (key : Vector UInt8 32) (addresses : List UInt32) (n : Nat) :
    (wordAddress key addresses n).toNat =
      (blockStart key addresses (n / 32)).toNat + 8 * (n % 32) := by
  have haligned := toNat_blockStart_mod key addresses (n / 32)
  have hlt := (blockStart key addresses (n / 32)).toNat_lt
  rw [wordAddress, UInt32.toNat_add, UInt32.toNat_mul, UInt32.toNat_ofNat']
  change (_ + 8 * (n % 32 % 2 ^ 32) % 2 ^ 32) % 2 ^ 32 = _
  omega

/-- The first block is where the cursor of a key starts. -/
theorem position_ofKey (key : Vector UInt8 32) (addresses : List UInt32) :
    (ofKey key).position = blockStart key addresses 0 := by
  have h9 := key[9].toNat_lt
  have h10 := key[10].toNat_lt
  have h11 := key[11].toNat_lt
  have hbyte (byte : UInt8) (amount : UInt32) (h : amount.toNat ≤ 24) :
      (byte.toUInt32 <<< amount).toNat = byte.toNat <<< amount.toNat := by
    have hpow : 2 ^ amount.toNat ≤ 2 ^ 24 := Nat.pow_le_pow_right (by decide) h
    rw [UInt32.toNat_shiftLeft, UInt8.toNat_toUInt32, Nat.mod_eq_of_lt (by omega : _ < 32),
      Nat.shiftLeft_eq]
    exact Nat.mod_eq_of_lt (Nat.lt_of_lt_of_le
      (Nat.mul_lt_mul_of_lt_of_le byte.toNat_lt hpow (Nat.two_pow_pos _)) (by decide))
  -- The three bytes do not overlap, so the word that they are put into is their sum.
  have hor : key[9].toNat <<< 8 ||| key[10].toNat <<< 16 ||| key[11].toNat <<< 24 =
      0x100 * (key[9].toNat + 0x100 * key[10].toNat + 0x10000 * key[11].toNat) := by
    rw [Nat.or_comm (_ <<< 8), ← Nat.shiftLeft_add_eq_or_of_lt, Nat.or_comm,
      ← Nat.shiftLeft_add_eq_or_of_lt]
    all_goals
      simp only [Nat.shiftLeft_eq]
      omega
  apply UInt32.toNat_inj.mp
  change ((key[9].toUInt32 <<< 8) ||| (key[10].toUInt32 <<< 16) |||
    (key[11].toUInt32 <<< 24)).toNat = _
  rw [UInt32.toNat_or, UInt32.toNat_or, hbyte _ 8 (by decide), hbyte _ 16 (by decide),
    hbyte _ 24 (by decide), blockStart, UInt32.toNat_ofNat', ← hor]
  symm
  apply Nat.mod_eq_of_lt
  omega

/-- The low byte of an address is its offset in a block. -/
theorem and_255_eq_iff (address offset : UInt32) :
    address &&& 255 = offset ↔ address.toNat % 256 = offset.toNat := by
  rw [← UInt32.toNat_inj, UInt32.toNat_and]
  change address.toNat &&& 2 ^ 8 - 1 = _ ↔ _
  rw [Nat.and_two_pow_sub_one_eq_mod]

/-! ### The cursor of a stream -/

/-- What a cursor holds when these addresses have been read from the start that a key names. -/
structure Tracks (key : Vector UInt8 32) (addresses : List UInt32) (cursor : DramCursor) :
    Prop where
  mix : cursor.mix = exclusiveSum addresses
  position : cursor.position = wordAddress key addresses addresses.length
  /-- From the middle of a block on, the block that follows is fixed. -/
  nextBlock : 16 ≤ addresses.length % 32 →
    cursor.nextBlock = blockStart key addresses (addresses.length / 32 + 1)

/-- The cursor of a key has read nothing. -/
theorem tracks_ofKey (key : Vector UInt8 32) : Tracks key [] (ofKey key) where
  mix := rfl
  position := by
    rw [position_ofKey key []]
    exact (UInt32.add_zero _).symm
  nextBlock := fun h => absurd h (by decide)

/-- One more read. -/
theorem Tracks.read {key : Vector UInt8 32} {addresses : List UInt32} {cursor : DramCursor}
    (h : Tracks key addresses cursor) (address : UInt32) :
    Tracks key (addresses ++ [address]) (cursor.read address).2 := by
  have hmix : cursor.mix ^^^ address = exclusiveSum (addresses ++ [address]) := by
    rw [h.mix, exclusiveSum_concat]
  have haligned := toNat_blockStart_mod key addresses (addresses.length / 32)
  have hmoved : (cursor.position + stride).toNat % 256 =
      (8 * (addresses.length % 32) + 8) % 256 := by
    rw [UInt32.toNat_add, h.position, toNat_wordAddress]
    change (_ + 8) % 2 ^ 32 % 256 = _
    omega
  have hlatch : cursor.position + stride &&& 255 = latchOffset ↔ addresses.length % 32 = 15 := by
    rw [and_255_eq_iff, hmoved]
    change _ = 128 ↔ _
    omega
  have hjump : cursor.position + stride &&& 255 = 0 ↔ addresses.length % 32 = 31 := by
    rw [and_255_eq_iff, hmoved]
    change _ = 0 ↔ _
    omega
  have hnext : 15 ≤ addresses.length % 32 → (cursor.read address).2.nextBlock =
      blockStart key (addresses ++ [address]) (addresses.length / 32 + 1) := by
    intro hlate
    change (if cursor.position + stride &&& 255 = latchOffset then
      (cursor.mix ^^^ address) &&& blockMask else cursor.nextBlock) = _
    by_cases hmiddle : addresses.length % 32 = 15
    · have htake : (addresses ++ [address]).take (32 * (addresses.length / 32) + 16) =
          addresses ++ [address] := by
        apply List.take_of_length_le
        rw [List.length_append, List.length_singleton]
        omega
      rw [if_pos (hlatch.mpr hmiddle), hmix, blockStart, htake]
      rfl
    · rw [if_neg (mt hlatch.mp hmiddle), h.nextBlock (by omega),
        blockStart_concat key address (by omega)]
  refine ⟨hmix, ?_, ?_⟩
  · change (if cursor.position + stride &&& 255 = 0 then (cursor.read address).2.nextBlock
      else cursor.position + stride) = _
    by_cases hend : addresses.length % 32 = 31
    · have hblock : (addresses.length + 1) / 32 = addresses.length / 32 + 1 := by omega
      rw [if_pos (hjump.mpr hend), hnext (by omega), wordAddress, List.length_append,
        List.length_singleton, hblock, show (addresses.length + 1) % 32 = 0 by omega]
      exact (UInt32.add_zero _).symm
    · have hstart : blockStart key (addresses ++ [address]) (addresses.length / 32) =
          blockStart key addresses (addresses.length / 32) :=
        blockStart_concat key address (by omega)
      rw [if_neg (mt hjump.mp hend)]
      apply UInt32.toNat_inj.mp
      rw [UInt32.toNat_add, h.position, toNat_wordAddress, toNat_wordAddress, List.length_append,
        List.length_singleton, show (addresses.length + 1) / 32 = addresses.length / 32 by omega,
        hstart]
      have hlt := (blockStart key addresses (addresses.length / 32)).toNat_lt
      change (_ + 8) % 2 ^ 32 = _
      omega
  · rw [List.length_append, List.length_singleton]
    intro hlate
    rw [show (addresses.length + 1) / 32 = addresses.length / 32 by omega]
    exact hnext (by omega)

/-- The cursor after reads from the start that a key names. -/
theorem tracks_afterReads (key : Vector UInt8 32) (addresses : List UInt32) :
    Tracks key addresses ((ofKey key).afterReads addresses) := by
  induction addresses using List.reverseRecOn with
  | nil => exact tracks_ofKey key
  | append_singleton addresses address ih =>
    rw [afterReads_concat]
    exact ih.read address

/-! ### The words of a stream -/

/-- Reads that follow say nothing about the words that have been read. -/
theorem wordAddress_concat (key : Vector UInt8 32) {addresses : List UInt32} (address : UInt32)
    {n : Nat} (h : n ≤ addresses.length) :
    wordAddress key (addresses ++ [address]) n = wordAddress key addresses n := by
  rw [wordAddress, wordAddress, blockStart_concat key address (by omega)]

/-- The words of a stream by their numbers. -/
theorem words_ofKey (key : Vector UInt8 32) (addresses : List UInt32) :
    (ofKey key).words addresses =
      (List.range addresses.length).map fun n => content (wordAddress key addresses n) := by
  induction addresses using List.reverseRecOn with
  | nil => rfl
  | append_singleton addresses address ih =>
    rw [words_concat, ih, (tracks_afterReads key addresses).position, List.length_append,
      List.length_singleton, List.range_succ, List.map_append, List.map_singleton,
      wordAddress_concat key address (Nat.le_refl _)]
    refine congrArg (· ++ _) (List.map_congr_left fun n hn => ?_)
    rw [wordAddress_concat key address (Nat.le_of_lt (List.mem_range.mp hn))]

/-- Read number `n` from the start that a key names yields the content at its place in block
`n / 32`, and no place wraps around. The reads behind the middle of a block leave the words of the
next block as they are. -/
theorem words_closed_form (key : Vector UInt8 32) (addresses : List UInt32) :
    (ofKey key).words addresses =
        (List.range addresses.length).map (fun n =>
          content (blockStart key addresses (n / 32) + 8 * .ofNat (n % 32))) ∧
      (∀ n, (blockStart key addresses (n / 32) + 8 * .ofNat (n % 32)).toNat =
        (blockStart key addresses (n / 32)).toNat + 8 * (n % 32)) ∧
      ∀ others j n, others.take (32 * j + 16) = addresses.take (32 * j + 16) → n / 32 = j + 1 →
        n < addresses.length → n < others.length →
          ((ofKey key).words others)[n]? = ((ofKey key).words addresses)[n]? := by
  refine ⟨words_ofKey key addresses, toNat_wordAddress key addresses, ?_⟩
  intro others j n htake hblock haddresses hothers
  rw [words_ofKey, words_ofKey, List.getElem?_map, List.getElem?_map,
    List.getElem?_range hothers, List.getElem?_range haddresses, Option.map_some, Option.map_some,
    wordAddress, wordAddress, hblock, blockStart_congr htake]

/-- The address of read 20, in the second half of the first block, does not change read 40, in the
block after it, although both streams go on with one address. -/
theorem words_closed_form_second_half :
    (List.replicate 20 5 ++ 9 :: List.replicate 20 5 : List UInt32).take 16 =
        (List.replicate 41 5).take 16 ∧
      ((ofKey (Vector.replicate 32 255)).words
          (List.replicate 20 5 ++ 9 :: List.replicate 20 5))[40]? =
        ((ofKey (Vector.replicate 32 255)).words (List.replicate 41 5))[40]? ∧
      ((ofKey (Vector.replicate 32 255)).words (List.replicate 41 5))[40]? =
        some 0x1CC74C8F288286D2 :=
  ⟨by decide, (words_closed_form (Vector.replicate 32 255) (List.replicate 41 5)).2.2
    (List.replicate 20 5 ++ 9 :: List.replicate 20 5) 0 40 (by decide) (by decide) (by decide)
    (by decide), by decide +kernel⟩

end RandomMachine.DramCursor
