import Drlvm.Sspace.FreshChunk
import Drlvm.Sspace.Enumeration

/-!
# Unsigned index arithmetic

`sspace_alloc.h` computes slot and colour-bit indices in `unsigned int`:
`slot_index * COLOR_BITS_PER_OBJ`, `++slot_index`,
`(slot_num - 1) * COLOR_BITS_PER_OBJ` and
`word_index * BITS_PER_WORD + index_in_word` all wrap at `2^32`.  The other
modules compute these indices exactly, over `Nat`.  This module translates the
table functions, `alloc_in_chunk`, `next_alloc_slot_in_chunk` and the loops
that call them again, with every such result taken modulo `2^32`, and shows
that they compute what the exact ones compute while the colour bits involved
fit in 32 bits.  On every chunk with the allocation invariant, for a
`BITS_PER_WORD` that divides `2^32` as 32 and 64 do, the code's
`alloc_in_chunk` and every run of it are the exact model's (`allocInChunk_eq`,
`allocRun_eq`); so are the fresh path's runs on a chunk with `FreshChunkState`
(`allocRun_fresh_eq`) and the walk of `next_alloc_slot_in_chunk`
(`allocatedSlotWalk_eq_of_colorBitsFit`).  The theorems about allocation thus
hold of the code.  The colour-word loops keep their index below
`2 * BITS_PER_WORD` and are used as they are.

Without the bound the code breaks the invariant: on a chunk of `2^31 + 16`
slots with the first `2^31` allocated, `alloc_in_chunk` tests and sets the field
of slot `0` for the cursor slot `2^31`.
-/

namespace Drlvm
namespace Sspace

variable {L : TableLayout}

/-- An `unsigned int` result: the value modulo `2^32`. -/
def unsignedInt (value : Nat) : Nat := value % 2 ^ 32

theorem unsignedInt_of_lt {value : Nat} (fits : value < 2 ^ 32) : unsignedInt value = value :=
  Nat.mod_eq_of_lt fits

/-- `value - 1` in `unsigned int`, for a `value` below `2^32`: `0 - 1` wraps to
`2^32 - 1`. -/
def unsignedPred (value : Nat) : Nat := unsignedInt (value + (2 ^ 32 - 1))

theorem unsignedPred_of_pos {value : Nat} (positive : 1 ≤ value) (fits : value < 2 ^ 32) :
    unsignedPred value = value - 1 := by
  rw [unsignedPred, unsignedInt, show value + (2 ^ 32 - 1) = value - 1 + 2 ^ 32 by omega,
    Nat.add_mod_right, Nat.mod_eq_of_lt (by omega)]

/-- The colour-word loop returns an index inside the word, or `MAX_SLOT_INDEX`. -/
theorem colorWordScan_lt_or_eq (test : Nat → Bool) (fuel index : Nat) :
    colorWordScan L test fuel index < L.bitsPerWord ∨
      colorWordScan L test fuel index = maxSlotIndex := by
  induction fuel generalizing index with
  | zero => exact Or.inr rfl
  | succ fuel ih =>
    rw [colorWordScan]
    split
    · split
      · exact Or.inl ‹_›
      · exact ih _
    · exact Or.inr rfl

/-- The words from `first` to `last` end within `2^32` bits when the first does
and the last does. -/
theorem words_fit {first last : Nat} (firstFits : first * L.bitsPerWord ≤ 2 ^ 32)
    (lastFits : (last + 1) * L.bitsPerWord ≤ 2 ^ 32) :
    (first + (last + 1 - first)) * L.bitsPerWord ≤ 2 ^ 32 := by
  rcases Nat.le_total first (last + 1) with before | after
  · rwa [Nat.add_sub_cancel' before]
  · rwa [Nat.sub_eq_zero_of_le after, Nat.add_zero]

/-- With `BITS_PER_WORD` dividing `2^32`, the word of a colour-bit index below
`2^32` ends within `2^32` bits. -/
theorem word_end_le (wordsFit : L.bitsPerWord ∣ 2 ^ 32) {colorBitsIndex : Nat}
    (fits : colorBitsIndex < 2 ^ 32) :
    (colorBitsIndex / L.bitsPerWord + 1) * L.bitsPerWord ≤ 2 ^ 32 := by
  obtain ⟨words, total⟩ := wordsFit
  have below : colorBitsIndex / L.bitsPerWord < words :=
    Nat.div_lt_of_lt_mul (total ▸ fits)
  calc (colorBitsIndex / L.bitsPerWord + 1) * L.bitsPerWord ≤ words * L.bitsPerWord :=
        Nat.mul_le_mul_right _ below
    _ = 2 ^ 32 := by rw [total, Nat.mul_comm]

namespace Unsigned

/-- `slot_is_alloc_in_table`, with its indices in `unsigned int`. -/
def slotIsAllocInTable (colors : AllocColors L) (table : Table L.bitsPerWord)
    (slotIndex : Nat) : Bool :=
  let colorBitsIndex := unsignedInt (slotIndex * L.colorBitsPerObj)
  let wordIndex := colorBitsIndex / L.bitsPerWord
  let indexInWord := colorBitsIndex % L.bitsPerWord
  colorMeets colors (table wordIndex) indexInWord

/-- `alloc_slot_in_table`, with its indices in `unsigned int`. -/
def allocSlotInTable (colors : AllocColors L) (table : Table L.bitsPerWord)
    (slotIndex : Nat) : Checked (Table L.bitsPerWord) := do
  Checked.assert (!Unsigned.slotIsAllocInTable colors table slotIndex)
    "!slot_is_alloc_in_table(table, slot_index)"
  let colorBitsIndex := unsignedInt (slotIndex * L.colorBitsPerObj)
  let wordIndex := colorBitsIndex / L.bitsPerWord
  let indexInWord := colorBitsIndex % L.bitsPerWord
  pure (table.write wordIndex (table wordIndex ||| colors.curAllocColor <<< indexInWord))

/-- `composed_slot_index`, with its index in `unsigned int`. -/
def composedSlotIndex (L : TableLayout) (wordIndex indexInWord : Nat) : Nat :=
  let colorBitsIndex := unsignedInt (wordIndex * L.bitsPerWord + indexInWord)
  colorBitsIndex / L.colorBitsPerObj

/-- The word loop of the two table scans, composing the slot index found in
`unsigned int`. -/
def scanTableWords (L : TableLayout) (table : Table L.bitsPerWord)
    (skip : BitVec L.bitsPerWord → Bool) (inWord : BitVec L.bitsPerWord → Nat → Nat) :
    (fuel wordIndex indexInWord : Nat) → Checked Nat
  | 0, _, _ => pure maxSlotIndex
  | fuel + 1, wordIndex, indexInWord =>
      if skip (table wordIndex) then scanTableWords L table skip inWord fuel (wordIndex + 1) 0
      else
        let indexInWord := inWord (table wordIndex) indexInWord
        if indexInWord ≠ maxSlotIndex then do
          Checked.assert (indexInWord < L.bitsPerWord) "index_in_word < BITS_PER_WORD"
          pure (Unsigned.composedSlotIndex L wordIndex indexInWord)
        else scanTableWords L table skip inWord fuel (wordIndex + 1) 0

/-- `next_free_slot_index_in_table`, with its indices in `unsigned int`. -/
def nextFreeSlotIndexInTable (colors : AllocColors L) (table : Table L.bitsPerWord)
    (slotIndex slotNum : Nat) : Checked Nat := do
  Checked.assert (Unsigned.slotIsAllocInTable colors table slotIndex)
    "slot_is_alloc_in_table(table, slot_index)"
  let slotIndex := unsignedInt (slotIndex + 1)
  let maxWordIndex :=
    unsignedInt (unsignedPred slotNum * L.colorBitsPerObj) / L.bitsPerWord
  let colorBitsIndex := unsignedInt (slotIndex * L.colorBitsPerObj)
  let wordIndex := colorBitsIndex / L.bitsPerWord
  let indexInWord := colorBitsIndex % L.bitsPerWord
  Unsigned.scanTableWords L table (· == colors.curAllocMask) (nextFreeIndexInColorWord colors)
    (maxWordIndex + 1 - wordIndex) wordIndex indexInWord

/-- `next_alloc_slot_index_in_table`, with its indices in `unsigned int`. -/
def nextAllocSlotIndexInTable (colors : AllocColors L) (table : Table L.bitsPerWord)
    (slotIndex slotNum : Nat) : Checked Nat :=
  let maxWordIndex :=
    unsignedInt (unsignedPred slotNum * L.colorBitsPerObj) / L.bitsPerWord
  let colorBitsIndex := unsignedInt (slotIndex * L.colorBitsPerObj)
  let wordIndex := colorBitsIndex / L.bitsPerWord
  let indexInWord := colorBitsIndex % L.bitsPerWord
  Unsigned.scanTableWords L table (· == 0) (nextAllocIndexInColorWord colors)
    (maxWordIndex + 1 - wordIndex) wordIndex indexInWord

/-- `next_alloc_slot_in_chunk`, with its indices in `unsigned int`. -/
def nextAllocSlotInChunk (colors : AllocColors L) (chunk : Chunk L.bitsPerWord) :
    Checked (Option (BitVec L.bitsPerWord) × Chunk L.bitsPerWord) := do
  let table := chunk.table
  let slotIndex ← Unsigned.nextAllocSlotIndexInTable colors table chunk.slotIndex chunk.slotNum
  Checked.assert (slotIndex == maxSlotIndex ||
      slotIndex < chunk.slotNum && Unsigned.slotIsAllocInTable colors table slotIndex)
    nextAllocSlotAssertion
  if slotIndex == maxSlotIndex then pure (none, chunk)
  else pure (some (slotIndexToAddr chunk slotIndex),
    { chunk with slotIndex := unsignedInt (slotIndex + 1) })

/-- `alloc_in_chunk`, with its indices and counters in `unsigned int`; the
parameters are those of `Sspace.allocInChunk`. -/
def allocInChunk (enableFreshChunkAlloc : Bool) (colors : AllocColors L)
    (objMarkBlackInTable : BitVec L.bitsPerWord → Nat → Table L.bitsPerWord →
      Table L.bitsPerWord)
    (concurrentMarkPhase : Bool) (chunk : Chunk L.bitsPerWord)
    (memory : Memory L.bitsPerWord) : Checked (AllocResult L.bitsPerWord) := do
  let slotIndex := chunk.slotIndex
  Checked.assert (chunk.allocNum < chunk.slotNum) "chunk->alloc_num < chunk->slot_num"
  let chunk := { chunk with allocNum := unsignedInt (chunk.allocNum + 1) }
  Checked.assert (chunk.base != 0) "chunk->base"
  let pObj := chunk.base +
    BitVec.ofNat L.bitsPerWord chunk.slotSize * BitVec.ofNat L.bitsPerWord slotIndex
  Checked.assert (!Unsigned.slotIsAllocInTable colors chunk.table slotIndex)
    "!slot_is_alloc_in_table(table, slot_index)"
  let table ← Unsigned.allocSlotInTable colors chunk.table slotIndex
  let memory := if chunk.status.needZeroing then memory.memsetZero pObj chunk.slotSize
    else memory
  let freshPath := enableFreshChunkAlloc && chunk.status.fresh
  let slotIndex := if freshPath then unsignedInt (slotIndex + 1) else slotIndex
  let chunk := if freshPath then
      { chunk with slotIndex := if slotIndex < chunk.slotNum then slotIndex else maxSlotIndex }
    else chunk
  let table := if !freshPath && pObj != 0 && concurrentMarkPhase then
      objMarkBlackInTable pObj chunk.slotSize table
    else table
  let next ← Unsigned.nextFreeSlotIndexInTable colors table slotIndex chunk.slotNum
  let chunk := { chunk with table := table, slotIndex := next }
  let chunkCleared := next == maxSlotIndex
  let chunk := if chunkCleared then { chunk with status := ChunkStatus.usedNormal } else chunk
  Checked.assert (chunkCleared || chunk.slotIndex < chunk.slotNum)
    "!chunk || chunk->slot_index < chunk->slot_num"
  pure ⟨pObj, chunk, chunkCleared, memory⟩

/-- Modelled from the spec: the owner's run of calls, as `Sspace.allocRun`,
with the code's `alloc_in_chunk`. -/
def allocRun (enableFreshChunkAlloc : Bool) (colors : AllocColors L)
    (objMarkBlackInTable : BitVec L.bitsPerWord → Nat → Table L.bitsPerWord →
      Table L.bitsPerWord) :
    List Bool → Allocator L.bitsPerWord →
      Checked (List (BitVec L.bitsPerWord) × Allocator L.bitsPerWord)
  | [], allocator => pure ([], allocator)
  | concurrentMarkPhase :: phases, allocator =>
      if allocator.chunkHeld then do
        let result ← Unsigned.allocInChunk enableFreshChunkAlloc colors objMarkBlackInTable
          concurrentMarkPhase allocator.chunk allocator.memory
        let rest ← Unsigned.allocRun enableFreshChunkAlloc colors objMarkBlackInTable phases
          ⟨result.chunk, !result.chunkCleared, result.memory⟩
        pure (result.pObj :: rest.1, rest.2)
      else pure ([], allocator)

/-- Modelled from the spec: the walk of `Sspace.allocatedSlotWalk`, with the
code's `next_alloc_slot_in_chunk`. -/
def allocatedSlotWalk (colors : AllocColors L) :
    Nat → Chunk L.bitsPerWord → Checked (Option (List (BitVec L.bitsPerWord)))
  | 0, _ => pure none
  | fuel + 1, chunk => do
      let step ← Unsigned.nextAllocSlotInChunk colors chunk
      match step.1 with
      | none => pure (some [])
      | some pObj => do
          let rest ← Unsigned.allocatedSlotWalk colors fuel step.2
          pure (rest.map (pObj :: ·))

/-! ## The unsigned functions compute the exact ones -/

section

variable (colors : AllocColors L) (table : Table L.bitsPerWord)

theorem slotIsAllocInTable_eq {slotIndex : Nat}
    (fits : slotIndex * L.colorBitsPerObj < 2 ^ 32) :
    Unsigned.slotIsAllocInTable colors table slotIndex =
      Sspace.slotIsAllocInTable colors table slotIndex := by
  simp only [Unsigned.slotIsAllocInTable, Sspace.slotIsAllocInTable, unsignedInt_of_lt fits]

theorem allocSlotInTable_eq {slotIndex : Nat}
    (fits : slotIndex * L.colorBitsPerObj < 2 ^ 32) :
    Unsigned.allocSlotInTable colors table slotIndex =
      Sspace.allocSlotInTable colors table slotIndex := by
  simp only [Unsigned.allocSlotInTable, Sspace.allocSlotInTable,
    slotIsAllocInTable_eq colors table fits, unsignedInt_of_lt fits]

/-- The word loops agree while the words they read end within `2^32` bits,
for a colour-word scan that returns an index inside the word or
`MAX_SLOT_INDEX`. -/
theorem scanTableWords_eq (skip : BitVec L.bitsPerWord → Bool)
    (inWord : BitVec L.bitsPerWord → Nat → Nat)
    (inWordBelow : ∀ word index, inWord word index < L.bitsPerWord ∨
      inWord word index = maxSlotIndex)
    (fuel wordIndex indexInWord : Nat) (fits : (wordIndex + fuel) * L.bitsPerWord ≤ 2 ^ 32) :
    Unsigned.scanTableWords L table skip inWord fuel wordIndex indexInWord =
      Sspace.scanTableWords L table skip inWord fuel wordIndex indexInWord := by
  induction fuel generalizing wordIndex indexInWord with
  | zero => rfl
  | succ fuel ih =>
    have next := ih (wordIndex + 1) 0 (by rwa [Nat.add_right_comm, Nat.add_assoc])
    have wordEnd : (wordIndex + 1) * L.bitsPerWord ≤ 2 ^ 32 :=
      Nat.le_trans (Nat.mul_le_mul_right _ (by omega)) fits
    rw [Nat.succ_mul] at wordEnd
    simp only [Unsigned.scanTableWords, Sspace.scanTableWords, next]
    rcases inWordBelow (table wordIndex) indexInWord with inside | missing
    · simp only [Unsigned.composedSlotIndex, Sspace.composedSlotIndex, unsignedInt_of_lt
        (show wordIndex * L.bitsPerWord + inWord (table wordIndex) indexInWord < 2 ^ 32 by omega)]
    · simp only [missing, ne_eq, not_true_eq_false, ↓reduceIte]

/-- `next_free_slot_index_in_table` computes the exact result when the colour
bits of the slot after the start and of the chunk's slots fit in 32 bits. -/
theorem nextFreeSlotIndexInTable_eq (wordsFit : L.bitsPerWord ∣ 2 ^ 32)
    {slotIndex slotNum : Nat} (positive : 1 ≤ slotNum)
    (slotNumFits : slotNum * L.colorBitsPerObj < 2 ^ 32)
    (startFits : (slotIndex + 1) * L.colorBitsPerObj < 2 ^ 32) :
    Unsigned.nextFreeSlotIndexInTable colors table slotIndex slotNum =
      Sspace.nextFreeSlotIndexInTable colors table slotIndex slotNum := by
  have colorBits := L.colorBitsPositive
  have slotFits : slotIndex * L.colorBitsPerObj < 2 ^ 32 :=
    Nat.lt_of_le_of_lt (Nat.mul_le_mul_right _ (Nat.le_succ _)) startFits
  have lastFits : (slotNum - 1) * L.colorBitsPerObj < 2 ^ 32 :=
    Nat.lt_of_le_of_lt (Nat.mul_le_mul_right _ (Nat.sub_le _ _)) slotNumFits
  have decrement := unsignedPred_of_pos positive (L.lt_two_pow_of_mul_lt slotNumFits)
  simp only [Unsigned.nextFreeSlotIndexInTable, Sspace.nextFreeSlotIndexInTable,
    slotIsAllocInTable_eq colors table slotFits,
    unsignedInt_of_lt (Nat.lt_of_le_of_lt (Nat.le_mul_of_pos_right _ colorBits) startFits),
    decrement, unsignedInt_of_lt lastFits, unsignedInt_of_lt startFits]
  rw [scanTableWords_eq table _ (nextFreeIndexInColorWord colors)
    (fun _ _ => colorWordScan_lt_or_eq _ _ _) _ _ _
    (words_fit (Nat.le_trans (Nat.div_mul_le_self _ _) (Nat.le_of_lt startFits))
      (word_end_le wordsFit lastFits))]

/-- `next_alloc_slot_index_in_table` computes the exact result from a start
whose colour bits fit in 32 bits, when those of the words the chunk's scans
read do. -/
theorem nextAllocSlotIndexInTable_eq {slotIndex slotNum : Nat} (positive : 1 ≤ slotNum)
    (colorBitsFit : L.scanLimit slotNum * L.colorBitsPerObj < 2 ^ 32)
    (startFits : slotIndex * L.colorBitsPerObj < 2 ^ 32) :
    Unsigned.nextAllocSlotIndexInTable colors table slotIndex slotNum =
      Sspace.nextAllocSlotIndexInTable colors table slotIndex slotNum := by
  have words : L.scanLimit slotNum * L.colorBitsPerObj =
      ((slotNum - 1) * L.colorBitsPerObj / L.bitsPerWord + 1) * L.bitsPerWord := by
    rw [TableLayout.scanLimit, Nat.mul_comm L.slotNumPerWordInTable, Nat.mul_assoc,
      ← L.bitsPerWord_eq]
  have lastFits : (slotNum - 1) * L.colorBitsPerObj < 2 ^ 32 :=
    Nat.lt_of_le_of_lt (Nat.mul_le_mul_right _ (Nat.le_trans (Nat.sub_le _ _)
      (L.le_scanLimit slotNum))) colorBitsFit
  have decrement := unsignedPred_of_pos positive (L.lt_two_pow_of_mul_lt (Nat.lt_of_le_of_lt
    (Nat.mul_le_mul_right _ (L.le_scanLimit slotNum)) colorBitsFit))
  simp only [Unsigned.nextAllocSlotIndexInTable, Sspace.nextAllocSlotIndexInTable, decrement,
    unsignedInt_of_lt lastFits, unsignedInt_of_lt startFits]
  exact scanTableWords_eq table _ (nextAllocIndexInColorWord colors)
    (fun _ _ => colorWordScan_lt_or_eq _ _ _) _ _ _
    (words_fit (Nat.le_trans (Nat.div_mul_le_self _ _) (Nat.le_of_lt startFits))
      (words ▸ Nat.le_of_lt colorBitsFit))

end

/-- `next_alloc_slot_in_chunk` computes the exact result on a chunk whose cursor
is at most `scanLimit`, when the colour bits of the words its scans read fit in
32 bits. -/
theorem nextAllocSlotInChunk_eq (colors : AllocColors L) (chunk : Chunk L.bitsPerWord)
    (positive : 1 ≤ chunk.slotNum)
    (colorBitsFit : L.scanLimit chunk.slotNum * L.colorBitsPerObj < 2 ^ 32)
    (cursorBelow : chunk.slotIndex ≤ L.scanLimit chunk.slotNum) :
    Unsigned.nextAllocSlotInChunk colors chunk = Sspace.nextAllocSlotInChunk colors chunk := by
  have startFits : chunk.slotIndex * L.colorBitsPerObj < 2 ^ 32 :=
    Nat.lt_of_le_of_lt (Nat.mul_le_mul_right _ cursorBelow) colorBitsFit
  rw [Unsigned.nextAllocSlotInChunk, Sspace.nextAllocSlotInChunk,
    nextAllocSlotIndexInTable_eq colors _ positive colorBitsFit startFits,
    Sspace.nextAllocSlotIndexInTable_eq]
  simp only [Checked.pure_bind]
  cases found : firstSlot (Sspace.slotIsAllocInTable colors chunk.table) chunk.slotIndex
      (L.scanLimit chunk.slotNum) with
  | none => rfl
  | some slot =>
    have inside := (firstSlot_eq_some_iff.mp found).2.1
    have slotFits : (slot + 1) * L.colorBitsPerObj ≤ L.scanLimit chunk.slotNum *
        L.colorBitsPerObj := Nat.mul_le_mul_right _ inside
    have := L.lt_two_pow_of_mul_lt (Nat.lt_of_le_of_lt slotFits colorBitsFit)
    simp only [Option.getD_some, slotIsAllocInTable_eq colors chunk.table
      (Nat.lt_of_le_of_lt (Nat.mul_le_mul_right _ (Nat.le_succ _))
        (Nat.lt_of_le_of_lt slotFits colorBitsFit)), unsignedInt_of_lt this]

/-- The walk computes the exact one from a cursor at most `scanLimit`, when the
colour bits of the words its scans read fit in 32 bits: every cursor it moves
to is past a slot the scan found, so at most `scanLimit` again. -/
theorem allocatedSlotWalk_eq_of_colorBitsFit (colors : AllocColors L) (fuel : Nat)
    (chunk : Chunk L.bitsPerWord) (positive : 1 ≤ chunk.slotNum)
    (colorBitsFit : L.scanLimit chunk.slotNum * L.colorBitsPerObj < 2 ^ 32)
    (cursorBelow : chunk.slotIndex ≤ L.scanLimit chunk.slotNum) :
    Unsigned.allocatedSlotWalk colors fuel chunk = Sspace.allocatedSlotWalk colors fuel chunk := by
  induction fuel generalizing chunk with
  | zero => rfl
  | succ fuel ih =>
    rw [Unsigned.allocatedSlotWalk, Sspace.allocatedSlotWalk,
      nextAllocSlotInChunk_eq colors chunk positive colorBitsFit cursorBelow,
      Sspace.nextAllocSlotInChunk_eq colors chunk (L.scanLimit_le_maxSlotIndex colorBitsFit)]
    cases found : firstSlot (Sspace.slotIsAllocInTable colors chunk.table) chunk.slotIndex
        (L.scanLimit chunk.slotNum) with
    | none => rfl
    | some slot =>
      have next := ih { chunk with slotIndex := slot + 1 } positive colorBitsFit
        (firstSlot_eq_some_iff.mp found).2.1
      exact Checked.ext (by simp only [Checked.value_bind, next])
        (by simp only [Checked.failed_bind, Checked.value_bind, next])

theorem allocatedSlotWalk_eq_of_colorBitsFit_fullOneSlotChunk :
    Unsigned.allocatedSlotWalk AllocColors.word32 17 { fullOneSlotChunk with slotIndex := 0 } =
      Sspace.allocatedSlotWalk AllocColors.word32 17 { fullOneSlotChunk with slotIndex := 0 } :=
  allocatedSlotWalk_eq_of_colorBitsFit AllocColors.word32 17
    { fullOneSlotChunk with slotIndex := 0 } (by decide) (by decide) (by decide)

/-- `alloc_in_chunk` computes the exact result when `BITS_PER_WORD` divides
`2^32` and the indices it computes fit in `unsigned int`: the chunk's colour
bits, its `alloc_num + 1`, and the colour bits of the slot after the one the
free-slot scan starts from. -/
theorem allocInChunk_eq_of_fits (enableFreshChunkAlloc : Bool) (colors : AllocColors L)
    (objMarkBlackInTable : BitVec L.bitsPerWord → Nat → Table L.bitsPerWord →
      Table L.bitsPerWord)
    (concurrentMarkPhase : Bool) (chunk : Chunk L.bitsPerWord) (memory : Memory L.bitsPerWord)
    (wordsFit : L.bitsPerWord ∣ 2 ^ 32) (positive : 1 ≤ chunk.slotNum)
    (slotNumFits : chunk.slotNum * L.colorBitsPerObj < 2 ^ 32)
    (allocNumFits : chunk.allocNum + 1 < 2 ^ 32)
    (startFits : ((if enableFreshChunkAlloc && chunk.status.fresh then chunk.slotIndex + 1
      else chunk.slotIndex) + 1) * L.colorBitsPerObj < 2 ^ 32) :
    Unsigned.allocInChunk enableFreshChunkAlloc colors objMarkBlackInTable concurrentMarkPhase
        chunk memory =
      Sspace.allocInChunk enableFreshChunkAlloc colors objMarkBlackInTable concurrentMarkPhase
        chunk memory := by
  have colorBits := L.colorBitsPositive
  have cursorFits : (chunk.slotIndex + 1) * L.colorBitsPerObj < 2 ^ 32 := by
    refine Nat.lt_of_le_of_lt (Nat.mul_le_mul_right _ ?_) startFits
    split <;> omega
  have slotFits : chunk.slotIndex * L.colorBitsPerObj < 2 ^ 32 :=
    Nat.lt_of_le_of_lt (Nat.mul_le_mul_right _ (Nat.le_succ _)) cursorFits
  have scan : ∀ table, Unsigned.nextFreeSlotIndexInTable colors table
      (if enableFreshChunkAlloc && chunk.status.fresh then chunk.slotIndex + 1
        else chunk.slotIndex) chunk.slotNum =
      Sspace.nextFreeSlotIndexInTable colors table
        (if enableFreshChunkAlloc && chunk.status.fresh then chunk.slotIndex + 1
          else chunk.slotIndex) chunk.slotNum := fun table =>
    nextFreeSlotIndexInTable_eq colors table wordsFit positive slotNumFits startFits
  simp only [Unsigned.allocInChunk, Sspace.allocInChunk, unsignedInt_of_lt allocNumFits,
    slotIsAllocInTable_eq colors _ slotFits, allocSlotInTable_eq colors _ slotFits,
    unsignedInt_of_lt (Nat.lt_of_le_of_lt (Nat.le_mul_of_pos_right _ colorBits) cursorFits),
    apply_ite Chunk.slotNum, ite_self, scan]

/-- On every chunk with the allocation invariant, in the default build, the
code's `alloc_in_chunk` computes what the exact model computes. -/
theorem allocInChunk_eq (colors : AllocColors L)
    (objMarkBlackInTable : BitVec L.bitsPerWord → Nat → Table L.bitsPerWord →
      Table L.bitsPerWord)
    (concurrentMarkPhase : Bool) (chunk : Chunk L.bitsPerWord) (memory : Memory L.bitsPerWord)
    (wordsFit : L.bitsPerWord ∣ 2 ^ 32) (invariant : ChunkInvariant colors chunk) :
    Unsigned.allocInChunk false colors objMarkBlackInTable concurrentMarkPhase chunk memory =
      Sspace.allocInChunk false colors objMarkBlackInTable concurrentMarkPhase chunk memory :=
  have counted := allocNum_lt_slotNum invariant
  have := chunk.slotNumFits
  allocInChunk_eq_of_fits false colors objMarkBlackInTable concurrentMarkPhase chunk memory
    wordsFit invariant.slotNumPositive invariant.colorBitsFit (by omega)
    (Nat.lt_of_le_of_lt (Nat.mul_le_mul_right _ invariant.cursorInRange) invariant.colorBitsFit)

/-- A chunk of `2^31 + 16` slots of the 32-bit layout at `0x1000`, its first
`2^31` slots allocated and its cursor at slot `2^31`: the colour bits of its
slots do not fit in an `unsigned int`. -/
def wrapChunk : Chunk TableLayout.word32.bitsPerWord :=
  ⟨fun wordIndex => if wordIndex < 2 ^ 27 then 0x55555555#32 else 0, 0x1000#32, 16,
    2 ^ 31 + 16, 2 ^ 31, 2 ^ 31, ⟨false, false, false, false⟩, by decide⟩

/-- Without the bound on its geometry a chunk can have every other property of
the invariant and the code's call still break it.  On `wrapChunk` the
colour-bit index of the cursor slot, `2^32`, wraps to that of slot `0`: the call
fails the assertion `!slot_is_alloc_in_table(table, slot_index)` of
`slot_is_free_in_table` and of `alloc_slot_in_table`, sets the alloc colour of
slot `0` again and leaves the cursor slot free, and hands the chunk back as
full with `alloc_num` short of `slot_num`. -/
theorem allocInChunk_wrapsColorBitsIndex :
    (1 ≤ wrapChunk.slotNum ∧ wrapChunk.slotIndex < wrapChunk.slotNum ∧
      (∀ slot < wrapChunk.slotIndex,
        Sspace.slotIsAllocInTable AllocColors.word32 wrapChunk.table slot = true) ∧
      Sspace.slotIsAllocInTable AllocColors.word32 wrapChunk.table wrapChunk.slotIndex = false ∧
      wrapChunk.allocNum = allocatedCount AllocColors.word32 wrapChunk.table wrapChunk.slotNum ∧
      ∀ slot, wrapChunk.slotNum ≤ slot → slot < TableLayout.word32.scanLimit wrapChunk.slotNum →
        Sspace.slotIsAllocInTable AllocColors.word32 wrapChunk.table slot = true) ∧
    ¬wrapChunk.slotNum * TableLayout.word32.colorBitsPerObj < 2 ^ 32 ∧
    (Unsigned.allocInChunk false AllocColors.word32 (fun _ _ table => table) false wrapChunk
        fun _ => 0).failed =
      ["!slot_is_alloc_in_table(table, slot_index)", "!slot_is_alloc_in_table(table, slot_index)"] ∧
    Sspace.slotIsAllocInTable AllocColors.word32 (Unsigned.allocInChunk false AllocColors.word32
      (fun _ _ table => table) false wrapChunk fun _ => 0).value.chunk.table
        wrapChunk.slotIndex = false ∧
    (Unsigned.allocInChunk false AllocColors.word32 (fun _ _ table => table) false wrapChunk
      fun _ => 0).value.chunkCleared = true ∧
    (Unsigned.allocInChunk false AllocColors.word32 (fun _ _ table => table) false wrapChunk
      fun _ => 0).value.chunk.allocNum < wrapChunk.slotNum := by
  have allocatedBelow : ∀ slot < 2 ^ 31,
      Sspace.slotIsAllocInTable AllocColors.word32 wrapChunk.table slot = true := by
    intro slot below
    rw [Sspace.slotIsAllocInTable_eq]
    show colorMeets AllocColors.word32 (if slot / 16 < 2 ^ 27 then _ else _) (slot % 16 * 2) = true
    rw [if_pos (by omega)]
    exact colorMeets_mask AllocColors.word32 (Nat.mod_lt slot (by decide))
  have counted : allocatedCount AllocColors.word32 wrapChunk.table (2 ^ 31 + 16) = 2 ^ 31 := by
    rw [allocatedCount, List.range_add, List.countP_append, List.countP_eq_length.mpr
      fun slot member => allocatedBelow slot (List.mem_range.mp member), List.length_range]
    decide
  have noPadding : TableLayout.word32.scanLimit (2 ^ 31 + 16) = 2 ^ 31 + 16 := by decide
  have padded : ∀ slot, 2 ^ 31 + 16 ≤ slot → slot < TableLayout.word32.scanLimit (2 ^ 31 + 16) →
      Sspace.slotIsAllocInTable AllocColors.word32 wrapChunk.table slot = true := by
    intro slot above below
    omega
  exact ⟨⟨by decide, by decide, allocatedBelow, by decide, counted.symm, padded⟩, by decide,
    by decide, by decide, by decide, by decide⟩

/-- On a fresh chunk of the fresh-chunk build, the code's `alloc_in_chunk`
computes what the exact model computes. -/
theorem allocInChunk_fresh_eq (colors : AllocColors L)
    (objMarkBlackInTable : BitVec L.bitsPerWord → Nat → Table L.bitsPerWord →
      Table L.bitsPerWord)
    (concurrentMarkPhase : Bool) (chunk : Chunk L.bitsPerWord) (memory : Memory L.bitsPerWord)
    (wordsFit : L.bitsPerWord ∣ 2 ^ 32) (state : FreshChunkState colors chunk) :
    Unsigned.allocInChunk true colors objMarkBlackInTable concurrentMarkPhase chunk memory =
      Sspace.allocInChunk true colors objMarkBlackInTable concurrentMarkPhase chunk memory := by
  have inRange := state.cursorInRange
  have := chunk.slotNumFits
  have slotNumFits : chunk.slotNum * L.colorBitsPerObj < 2 ^ 32 :=
    Nat.lt_of_le_of_lt (Nat.mul_le_mul_right _ (Nat.le_succ _)) state.colorBitsFit
  refine allocInChunk_eq_of_fits true colors objMarkBlackInTable concurrentMarkPhase chunk memory
    wordsFit (by omega) slotNumFits (by have := state.countedBelowCursor; omega) ?_
  rw [state.fresh, Bool.true_and, if_pos rfl]
  exact Nat.lt_of_le_of_lt (Nat.mul_le_mul_right _ (by omega)) state.colorBitsFit

/-- Every run of the fresh-chunk build from a held fresh chunk with a non-null
base is the exact model's run: the chunk stays fresh while it is held. -/
theorem allocRun_fresh_eq (colors : AllocColors L)
    (objMarkBlackInTable : BitVec L.bitsPerWord → Nat → Table L.bitsPerWord →
      Table L.bitsPerWord)
    (wordsFit : L.bitsPerWord ∣ 2 ^ 32) (phases : List Bool) (allocator : Allocator L.bitsPerWord)
    (held : allocator.chunkHeld = true) (state : FreshChunkState colors allocator.chunk)
    (baseNonNull : allocator.chunk.base ≠ 0) :
    Unsigned.allocRun true colors objMarkBlackInTable phases allocator =
      Sspace.allocRun true colors objMarkBlackInTable phases allocator := by
  induction phases generalizing allocator with
  | nil => rfl
  | cons concurrentMarkPhase phases ih =>
    obtain ⟨-, -, chunkEq, clearedEq⟩ := allocInChunk_freshCall colors objMarkBlackInTable
      concurrentMarkPhase allocator.chunk allocator.memory state baseNonNull
    simp only [Unsigned.allocRun, Sspace.allocRun, held, ↓reduceIte,
      allocInChunk_fresh_eq colors objMarkBlackInTable concurrentMarkPhase allocator.chunk
        allocator.memory wordsFit state]
    generalize Sspace.allocInChunk true colors objMarkBlackInTable concurrentMarkPhase
      allocator.chunk allocator.memory = call at chunkEq clearedEq ⊢
    have rest : Unsigned.allocRun true colors objMarkBlackInTable phases
        ⟨call.value.chunk, !call.value.chunkCleared, call.value.memory⟩ =
        Sspace.allocRun true colors objMarkBlackInTable phases
          ⟨call.value.chunk, !call.value.chunkCleared, call.value.memory⟩ := by
      by_cases room : allocator.chunk.slotIndex + 2 < allocator.chunk.slotNum
      · rw [if_pos room, if_pos room] at chunkEq
        rw [clearedEq, decide_eq_false (Nat.not_le.mpr room), chunkEq]
        exact ih _ rfl (state.next room) baseNonNull
      · rw [clearedEq, decide_eq_true (Nat.le_of_not_lt room), Bool.not_true,
          Sspace.allocRun_released _ _ _ _ rfl]
        cases phases <;> rfl
    exact Checked.ext (by simp only [Checked.value_bind, rest])
      (by simp only [Checked.failed_bind, Checked.value_bind, rest])

theorem allocRun_fresh_eq_freshChunk16 :
    Unsigned.allocRun true AllocColors.word32 markBlack32 [false, true, false]
        ⟨freshChunk16, true, fun _ => 0⟩ =
      Sspace.allocRun true AllocColors.word32 markBlack32 [false, true, false]
        ⟨freshChunk16, true, fun _ => 0⟩ :=
  allocRun_fresh_eq AllocColors.word32 markBlack32 (by decide) [false, true, false]
    ⟨freshChunk16, true, fun _ => 0⟩ rfl
    ⟨by decide, by unfold FreeFromCursor; decide, by decide, by decide, rfl, by decide⟩
    (by decide)

/-- Every run of the default build from an owner that keeps the invariant, with
`obj_mark_black_in_table` changing only mark bits of the given slot's field, is
the exact model's run: the theorems about `allocRun` hold of the code. -/
theorem allocRun_eq (colors : AllocColors L)
    (objMarkBlackInTable : BitVec L.bitsPerWord → Nat → Table L.bitsPerWord →
      Table L.bitsPerWord)
    (wordsFit : L.bitsPerWord ∣ 2 ^ 32) (phases : List Bool) (allocator : Allocator L.bitsPerWord)
    (invariant : AllocatorInvariant colors allocator)
    (marks : true ∈ phases → MarksOnlyOwnField colors objMarkBlackInTable allocator.chunk.base
      allocator.chunk.slotSize allocator.chunk.slotNum) :
    Unsigned.allocRun false colors objMarkBlackInTable phases allocator =
      Sspace.allocRun false colors objMarkBlackInTable phases allocator := by
  induction phases generalizing allocator with
  | nil => rfl
  | cons concurrentMarkPhase phases ih =>
    by_cases held : allocator.chunkHeld = true
    · rw [AllocatorInvariant, if_pos held] at invariant
      have contract := allocInChunk_contract colors objMarkBlackInTable concurrentMarkPhase
        allocator.chunk allocator.memory invariant fun phase =>
          marks (phase ▸ List.mem_cons_self _ _)
      have rest := ih _ contract.allocatorInvariant (contract.marksRest marks)
      simp only [Unsigned.allocRun, Sspace.allocRun, held, ↓reduceIte,
        allocInChunk_eq colors objMarkBlackInTable concurrentMarkPhase allocator.chunk
          allocator.memory wordsFit invariant]
      exact Checked.ext (by simp only [Checked.value_bind, rest])
        (by simp only [Checked.failed_bind, Checked.value_bind, rest])
    · simp only [Unsigned.allocRun, Sspace.allocRun, held, Bool.false_eq_true, ↓reduceIte]

theorem allocRun_eq_gappyChunk16 :
    Unsigned.allocRun false AllocColors.word32 markBlack32 [true, false, true]
        ⟨gappyChunk16, true, fun _ => 0⟩ =
      Sspace.allocRun false AllocColors.word32 markBlack32 [true, false, true]
        ⟨gappyChunk16, true, fun _ => 0⟩ :=
  allocRun_eq AllocColors.word32 markBlack32 (by decide) [true, false, true]
    ⟨gappyChunk16, true, fun _ => 0⟩
    ⟨by decide, by decide, by decide, by decide, by decide, by decide, by decide⟩
    fun _ => markBlack32_marksOnlyOwnField

end Unsigned

end Sspace
end Drlvm
