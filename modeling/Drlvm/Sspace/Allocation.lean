import Drlvm.Sspace.Chunk

/-!
# The allocation invariant

The representation invariant of a chunk owned by an allocator, and what one
call of `alloc_in_chunk` in the default build does to a chunk that satisfies
it: it returns the cursor slot, allocates exactly that slot, and either moves
the cursor to the next free slot, keeping the invariant, or hands the chunk
back full, as `CHUNK_USED | CHUNK_NORMAL`.  By induction every run of
allocations keeps the invariant.
-/

namespace Drlvm
namespace Sspace

variable {L : TableLayout}

/-- The number of allocated slots among the first `slotNum`. -/
def allocatedCount (colors : AllocColors L) (table : Table L.bitsPerWord) (slotNum : Nat) :
    Nat :=
  (List.range slotNum).countP (slotIsAllocInTable colors table)

/-- Turning one free slot below `slotNum` to allocated, and no other, counts one
more allocated slot. -/
theorem allocatedCount_of_allocate (colors : AllocColors L) {before after : Table L.bitsPerWord}
    {slot slotNum : Nat} (inRange : slot < slotNum)
    (wasFree : slotIsAllocInTable colors before slot = false)
    (allocate : ∀ other, slotIsAllocInTable colors after other =
      (decide (slot = other) || slotIsAllocInTable colors before other)) :
    allocatedCount colors after slotNum = allocatedCount colors before slotNum + 1 := by
  rw [allocatedCount, allocatedCount, show slotIsAllocInTable colors after = _ from funext allocate]
  induction slotNum with
  | zero => omega
  | succ slotNum ih =>
      rw [List.range_succ, List.countP_append, List.countP_append]
      rcases Nat.lt_succ_iff_lt_or_eq.mp inRange with below | rfl
      · have unchanged : (decide (slot = slotNum) || slotIsAllocInTable colors before slotNum) =
            slotIsAllocInTable colors before slotNum := by
          simp [show slot ≠ slotNum by omega]
        simp only [ih below, List.countP_cons, List.countP_nil, unchanged]
        omega
      · rw [List.countP_congr (q := slotIsAllocInTable colors before) fun other member => by
          simp [show slot ≠ other by simp at member; omega]]
        simp [wasFree]

/-- With every slot below `slotNum` allocated, all of them are counted. -/
theorem allocatedCount_of_allAllocated (colors : AllocColors L) {table : Table L.bitsPerWord}
    {slotNum : Nat} (allocated : ∀ slot < slotNum, slotIsAllocInTable colors table slot = true) :
    allocatedCount colors table slotNum = slotNum := by
  rw [allocatedCount, List.countP_eq_length.mpr fun slot member =>
    allocated slot (List.mem_range.mp member), List.length_range]

/-! ## Marking and allocating change only the slot's own field -/

namespace TableLayout

/-- Bit `bit` of table word `wordIndex` lies in the colour field of `slot`. -/
def InField (slot wordIndex bit : Nat) : Prop :=
  wordIndex = slot * L.colorBitsPerObj / L.bitsPerWord ∧
    slot * L.colorBitsPerObj % L.bitsPerWord ≤ bit ∧
      bit < slot * L.colorBitsPerObj % L.bitsPerWord + L.colorBitsPerObj

end TableLayout

/-- `after` differs from `before` at most in bits of the colour field of `slot`
that are not alloc-colour bits. -/
def ChangesOnlyMarkBits (colors : AllocColors L) (before after : Table L.bitsPerWord)
    (slot : Nat) : Prop :=
  ∀ wordIndex bit, (after wordIndex).getLsbD bit ≠ (before wordIndex).getLsbD bit →
    L.InField slot wordIndex bit ∧
      colors.curAllocColor.getLsbD (bit - slot * L.colorBitsPerObj % L.bitsPerWord) = false

/-- `obj_mark_black_in_table`, called on the address of one of the `slotNum`
slots of a chunk with this `base` and `slotSize`, changes only mark bits of that
slot's field. -/
def MarksOnlyOwnField (colors : AllocColors L)
    (objMarkBlackInTable : BitVec L.bitsPerWord → Nat → Table L.bitsPerWord →
      Table L.bitsPerWord)
    (base : BitVec L.bitsPerWord) (slotSize slotNum : Nat) : Prop :=
  ∀ table slot, slot < slotNum → ChangesOnlyMarkBits colors table
    (objMarkBlackInTable (base + BitVec.ofNat _ slotSize * BitVec.ofNat _ slot) slotSize table) slot

/-- Changing only mark bits changes no slot's allocation state. -/
theorem slotIsAllocInTable_of_changesOnlyMarkBits (colors : AllocColors L)
    {before after : Table L.bitsPerWord} {slot : Nat}
    (changes : ChangesOnlyMarkBits colors before after slot) :
    slotIsAllocInTable colors after = slotIsAllocInTable colors before := by
  funext other
  have agree : ∀ bit < L.colorBitsPerObj, colors.curAllocColor.getLsbD bit = true →
      L.fieldBit after other bit = L.fieldBit before other bit := by
    intro bit low colorBit
    by_contra differs
    obtain ⟨⟨sameWord, lower, upper⟩, notColor⟩ := changes _ _ differs
    simp only [L.colorBitsIndex_mod] at lower upper notColor
    have sameField : other % L.slotNumPerWordInTable = slot % L.slotNumPerWordInTable :=
      L.field_eq_of_fieldBit_eq low
        (show other % L.slotNumPerWordInTable * L.colorBitsPerObj + bit -
          slot % L.slotNumPerWordInTable * L.colorBitsPerObj < L.colorBitsPerObj by omega)
        (by omega)
    rw [sameField, Nat.add_sub_cancel_left, colorBit] at notColor
    exact Bool.false_ne_true notColor.symm
  rw [Bool.eq_iff_iff, slotIsAllocInTable_iff, slotIsAllocInTable_iff]
  constructor <;> rintro ⟨bit, low, colorBit, set⟩
  · exact ⟨bit, low, colorBit, by rwa [← agree bit low colorBit]⟩
  · exact ⟨bit, low, colorBit, by rwa [agree bit low colorBit]⟩

/-- Mark bits changed after a change inside a slot's field leave every change
inside that field. -/
theorem ChangesOnlyMarkBits.inField_of {colors : AllocColors L}
    {original before after : Table L.bitsPerWord} {slot : Nat}
    (changes : ChangesOnlyMarkBits colors before after slot)
    (inField : ∀ wordIndex bit, (before wordIndex).getLsbD bit ≠ (original wordIndex).getLsbD bit →
      L.InField slot wordIndex bit) (wordIndex bit : Nat)
    (differs : (after wordIndex).getLsbD bit ≠ (original wordIndex).getLsbD bit) :
    L.InField slot wordIndex bit := by
  by_cases same : (before wordIndex).getLsbD bit = (original wordIndex).getLsbD bit
  · exact (changes wordIndex bit (same ▸ differs)).1
  · exact inField wordIndex bit same

/-- `alloc_slot_in_table` changes only bits of the slot's own field, and only
bits that the alloc colour sets. -/
theorem changedBit_of_allocSlotInTable (colors : AllocColors L) (table : Table L.bitsPerWord)
    (slot wordIndex bit : Nat)
    (differs : ((allocSlotInTable colors table slot).value wordIndex).getLsbD bit ≠
      (table wordIndex).getLsbD bit) :
    L.InField slot wordIndex bit ∧
      colors.curAllocColor.getLsbD (bit - slot * L.colorBitsPerObj % L.bitsPerWord) = true := by
  simp only [allocSlotInTable, Checked.value_bind, Checked.value_pure, Table.write] at differs
  split at differs
  · rename_i sameWord
    rw [BitVec.getLsbD_or, BitVec.getLsbD_shiftLeft] at differs
    have shifted : (!decide (bit < slot * L.colorBitsPerObj % L.bitsPerWord) &&
        colors.curAllocColor.getLsbD (bit - slot * L.colorBitsPerObj % L.bitsPerWord)) = true := by
      by_contra off
      simp_all
    simp only [Bool.and_eq_true, Bool.not_eq_true', decide_eq_false_iff_not, Nat.not_lt]
      at shifted
    obtain ⟨above, colorBit⟩ := shifted
    refine ⟨⟨sameWord, above, Nat.lt_of_not_le fun beyond => ?_⟩, colorBit⟩
    rw [colors.getLsbD_color_of_le (by omega)] at colorBit
    exact Bool.false_ne_true colorBit
  · exact absurd rfl differs

/-- On a free slot `alloc_slot_in_table` fails no assertion, allocates exactly
that slot and changes only bits of its field. -/
theorem allocSlotInTable_of_free (colors : AllocColors L) (table : Table L.bitsPerWord)
    {slot : Nat} (free : slotIsAllocInTable colors table slot = false) :
    ∃ allocated : Table L.bitsPerWord, allocSlotInTable colors table slot = pure allocated ∧
      (∀ other, slotIsAllocInTable colors allocated other =
        (decide (slot = other) || slotIsAllocInTable colors table other)) ∧
      ∀ wordIndex bit, (allocated wordIndex).getLsbD bit ≠ (table wordIndex).getLsbD bit →
        L.InField slot wordIndex bit :=
  ⟨_, Checked.eq_pure_of_failed (by simp [allocSlotInTable, free]),
    slotIsAllocInTable_allocSlotInTable colors table slot,
    fun wordIndex bit differs =>
      (changedBit_of_allocSlotInTable colors table slot wordIndex bit differs).1⟩

/-! ## The representation invariant -/

/-- The representation invariant of a chunk owned by an allocator.  The last
field bounds the chunk's geometry: the colour bits of its slots fit in an
`unsigned int`, so that the indices `alloc_in_chunk` computes in `unsigned int`
are the exact ones the model computes (`Unsigned.allocInChunk_eq`). -/
structure ChunkInvariant (colors : AllocColors L) (chunk : Chunk L.bitsPerWord) : Prop where
  slotNumPositive : 1 ≤ chunk.slotNum
  cursorInRange : chunk.slotIndex < chunk.slotNum
  allocatedBelowCursor : ∀ slot < chunk.slotIndex,
    slotIsAllocInTable colors chunk.table slot = true
  cursorFree : slotIsAllocInTable colors chunk.table chunk.slotIndex = false
  allocNumCounts : chunk.allocNum = allocatedCount colors chunk.table chunk.slotNum
  paddingAllocated : ∀ slot, chunk.slotNum ≤ slot → slot < L.scanLimit chunk.slotNum →
    slotIsAllocInTable colors chunk.table slot = true
  colorBitsFit : chunk.slotNum * L.colorBitsPerObj < 2 ^ 32

/-- A chunk its allocator has handed back: every slot of its table words
allocated, the cursor at `MAX_SLOT_INDEX`, the status `CHUNK_USED | CHUNK_NORMAL`. -/
structure ChunkExhausted (colors : AllocColors L) (chunk : Chunk L.bitsPerWord) : Prop where
  allAllocated : ∀ slot < L.scanLimit chunk.slotNum,
    slotIsAllocInTable colors chunk.table slot = true
  allocNumFull : chunk.allocNum = chunk.slotNum
  cursorExhausted : chunk.slotIndex = maxSlotIndex
  statusUsedNormal : chunk.status = ChunkStatus.usedNormal

/-- The cursor `next_free_slot_index_in_table` moves to: the first free slot
after the cursor among the slots of the words the chunk covers, or
`MAX_SLOT_INDEX`. -/
def nextFreeCursor (colors : AllocColors L) (chunk : Chunk L.bitsPerWord) : Nat :=
  (firstSlot (fun slot => !slotIsAllocInTable colors chunk.table slot) (chunk.slotIndex + 1)
    (L.scanLimit chunk.slotNum)).getD maxSlotIndex

/-- What one call of `alloc_in_chunk` does to a chunk with the invariant: no
assertion fails but `assert(chunk->base)` on a null base; it returns the cursor
slot, allocates exactly that slot and changes no bit outside its field; it moves
the cursor to `nextFreeCursor`; and the chunk either keeps the invariant or is
handed back full. -/
structure AllocContract (colors : AllocColors L) (chunk : Chunk L.bitsPerWord)
    (call : Checked (AllocResult L.bitsPerWord)) : Prop where
  onlyBaseAssertion : call.failed = if chunk.base = 0 then ["chunk->base"] else []
  returnsCursorSlot : call.value.pObj = slotIndexToAddr chunk chunk.slotIndex
  allocatesCursorSlot : ∀ slot, slotIsAllocInTable colors call.value.chunk.table slot =
    (decide (chunk.slotIndex = slot) || slotIsAllocInTable colors chunk.table slot)
  changesOnlyCursorField : ∀ wordIndex bit,
    (call.value.chunk.table wordIndex).getLsbD bit ≠ (chunk.table wordIndex).getLsbD bit →
      L.InField chunk.slotIndex wordIndex bit
  movesCursor : call.value.chunk.slotIndex = nextFreeCursor colors chunk
  countsAllocation : call.value.chunk.allocNum = chunk.allocNum + 1
  keepsGeometry : call.value.chunk.base = chunk.base ∧
    call.value.chunk.slotSize = chunk.slotSize ∧ call.value.chunk.slotNum = chunk.slotNum
  keepsInvariant : call.value.chunkCleared = false → ChunkInvariant colors call.value.chunk
  handsBackFull : call.value.chunkCleared = true → ChunkExhausted colors call.value.chunk

theorem allocNum_lt_slotNum {colors : AllocColors L} {chunk : Chunk L.bitsPerWord}
    (invariant : ChunkInvariant colors chunk) : chunk.allocNum < chunk.slotNum := by
  rw [invariant.allocNumCounts, allocatedCount]
  refine Nat.lt_of_le_of_ne ((List.countP_le_length _).trans_eq (List.length_range _))
    fun full => ?_
  have := List.countP_eq_length.mp (full.trans (List.length_range _).symm) chunk.slotIndex
    (List.mem_range.mpr invariant.cursorInRange)
  rw [invariant.cursorFree] at this
  exact Bool.false_ne_true this

/-- A slot below `slot_num`, an `unsigned int`, is not `MAX_SLOT_INDEX`. -/
theorem ne_maxSlotIndex_of_lt_slotNum {w : Nat} (chunk : Chunk w) {slot : Nat}
    (below : slot < chunk.slotNum) : slot ≠ maxSlotIndex := by
  have := chunk.slotNumFits
  unfold maxSlotIndex
  omega

/-- The cursor move either finds a free slot after the cursor, with every slot
between allocated, or finds every slot after the cursor allocated and returns
`MAX_SLOT_INDEX`. -/
theorem nextFreeCursor_cases (colors : AllocColors L) (chunk : Chunk L.bitsPerWord) :
    (nextFreeCursor colors chunk = maxSlotIndex ∧
      ∀ slot, chunk.slotIndex < slot → slot < L.scanLimit chunk.slotNum →
        slotIsAllocInTable colors chunk.table slot = true) ∨
    (chunk.slotIndex < nextFreeCursor colors chunk ∧
      nextFreeCursor colors chunk < L.scanLimit chunk.slotNum ∧
      slotIsAllocInTable colors chunk.table (nextFreeCursor colors chunk) = false ∧
      ∀ slot, chunk.slotIndex < slot → slot < nextFreeCursor colors chunk →
        slotIsAllocInTable colors chunk.table slot = true) := by
  unfold nextFreeCursor
  cases found : firstSlot (fun slot => !slotIsAllocInTable colors chunk.table slot)
      (chunk.slotIndex + 1) (L.scanLimit chunk.slotNum) with
  | none =>
      refine Or.inl ⟨rfl, fun slot after inside => ?_⟩
      simpa using firstSlot_eq_none_iff.mp found slot after inside
  | some next =>
      obtain ⟨after, inside, free, before⟩ := firstSlot_eq_some_iff.mp found
      refine Or.inr ⟨after, inside, by simpa using free, fun slot lower upper => ?_⟩
      simpa using before slot lower upper

/-- On a chunk with the invariant a free slot among those the scans read is a
slot of the chunk: the padding fields past `slotNum` are never free. -/
theorem ChunkInvariant.lt_slotNum_of_free {colors : AllocColors L}
    {chunk : Chunk L.bitsPerWord} (invariant : ChunkInvariant colors chunk) {slot : Nat}
    (inside : slot < L.scanLimit chunk.slotNum)
    (free : slotIsAllocInTable colors chunk.table slot = false) : slot < chunk.slotNum :=
  Nat.lt_of_not_le fun padding => by
    rw [invariant.paddingAllocated _ padding inside] at free
    exact Bool.false_ne_true free.symm

/-- On a chunk with the invariant the next free cursor is a slot of the chunk,
or `MAX_SLOT_INDEX`. -/
theorem ChunkInvariant.nextFreeCursor_eq_or_lt {colors : AllocColors L}
    {chunk : Chunk L.bitsPerWord} (invariant : ChunkInvariant colors chunk) :
    nextFreeCursor colors chunk = maxSlotIndex ∨ nextFreeCursor colors chunk < chunk.slotNum := by
  rcases nextFreeCursor_cases colors chunk with ⟨exhausted, -⟩ | ⟨-, inside, free, -⟩
  · exact Or.inl exhausted
  · exact Or.inr (invariant.lt_slotNum_of_free inside free)

/-- `alloc_in_chunk` in the default build, on a chunk with the invariant: only
`assert(chunk->base)` can fail; the cursor slot is allocated (and marked black
in the concurrent-mark phase), changing only bits of its field; and the cursor
moves to `nextFreeCursor`, which hands the chunk back when it is
`MAX_SLOT_INDEX`. -/
theorem allocInChunk_false_eq (colors : AllocColors L)
    (objMarkBlackInTable : BitVec L.bitsPerWord → Nat → Table L.bitsPerWord →
      Table L.bitsPerWord)
    (concurrentMarkPhase : Bool) (chunk : Chunk L.bitsPerWord) (memory : Memory L.bitsPerWord)
    (invariant : ChunkInvariant colors chunk)
    (marks : concurrentMarkPhase = true →
      MarksOnlyOwnField colors objMarkBlackInTable chunk.base chunk.slotSize chunk.slotNum) :
    ∃ table : Table L.bitsPerWord,
      table = (if (slotIndexToAddr chunk chunk.slotIndex != 0 && concurrentMarkPhase) = true then
        objMarkBlackInTable (slotIndexToAddr chunk chunk.slotIndex) chunk.slotSize
          (allocSlotInTable colors chunk.table chunk.slotIndex).value
      else (allocSlotInTable colors chunk.table chunk.slotIndex).value) ∧
      (∀ slot, slotIsAllocInTable colors table slot =
        (decide (chunk.slotIndex = slot) || slotIsAllocInTable colors chunk.table slot)) ∧
      (∀ wordIndex bit, (table wordIndex).getLsbD bit ≠ (chunk.table wordIndex).getLsbD bit →
        L.InField chunk.slotIndex wordIndex bit) ∧
      allocInChunk false colors objMarkBlackInTable concurrentMarkPhase chunk memory =
        Checked.assert (chunk.base != 0) "chunk->base" >>= fun _ => pure
          ⟨slotIndexToAddr chunk chunk.slotIndex,
            { chunk with
              table := table
              slotIndex := nextFreeCursor colors chunk
              allocNum := chunk.allocNum + 1
              status := if nextFreeCursor colors chunk == maxSlotIndex then ChunkStatus.usedNormal
                else chunk.status },
            nextFreeCursor colors chunk == maxSlotIndex,
            if chunk.status.needZeroing then
              memory.memsetZero (slotIndexToAddr chunk chunk.slotIndex) chunk.slotSize
            else memory⟩ := by
  obtain ⟨table1, allocSlot, table1Alloc, table1Field⟩ :=
    allocSlotInTable_of_free colors chunk.table invariant.cursorFree
  obtain ⟨table2, marked, table2Alloc, table2Field⟩ : ∃ table2,
      (if (slotIndexToAddr chunk chunk.slotIndex != 0 && concurrentMarkPhase) = true then
        objMarkBlackInTable (slotIndexToAddr chunk chunk.slotIndex) chunk.slotSize table1
      else table1) = table2 ∧
      (∀ slot, slotIsAllocInTable colors table2 slot =
        (decide (chunk.slotIndex = slot) || slotIsAllocInTable colors chunk.table slot)) ∧
      ∀ wordIndex bit, (table2 wordIndex).getLsbD bit ≠ (chunk.table wordIndex).getLsbD bit →
        L.InField chunk.slotIndex wordIndex bit := by
    split
    · rename_i marking
      have changes := marks (Bool.and_eq_true_iff.mp marking).2 table1 chunk.slotIndex
        invariant.cursorInRange
      exact ⟨_, rfl, fun slot => (congrFun (slotIsAllocInTable_of_changesOnlyMarkBits colors
        changes) slot).trans (table1Alloc slot), changes.inField_of table1Field⟩
    · exact ⟨_, rfl, table1Alloc, table1Field⟩
  have tableEq : table2 = (if (slotIndexToAddr chunk chunk.slotIndex != 0 &&
      concurrentMarkPhase) = true then
        objMarkBlackInTable (slotIndexToAddr chunk chunk.slotIndex) chunk.slotSize
          (allocSlotInTable colors chunk.table chunk.slotIndex).value
      else (allocSlotInTable colors chunk.table chunk.slotIndex).value) := by
    rw [allocSlot]
    exact marked.symm
  rw [slotIndexToAddr] at marked
  have scanned : firstSlot (fun slot => !slotIsAllocInTable colors table2 slot)
      (chunk.slotIndex + 1) (L.scanLimit chunk.slotNum) =
      firstSlot (fun slot => !slotIsAllocInTable colors chunk.table slot)
      (chunk.slotIndex + 1) (L.scanLimit chunk.slotNum) :=
    firstSlot_congr fun slot after _ => by
      simp [table2Alloc, show chunk.slotIndex ≠ slot by omega]
  refine ⟨table2, tableEq, table2Alloc, table2Field, ?_⟩
  simp only [allocInChunk, Bool.false_and, Bool.false_eq_true, ↓reduceIte, Bool.not_false,
    Bool.true_and, allocSlot, Checked.pure_bind, allocNum_lt_slotNum invariant, decide_True,
    Checked.assert_true_bind, invariant.cursorFree, marked,
    nextFreeSlotIndexInTable_eq colors table2 chunk.slotIndex chunk.slotNum
      (by simp [table2Alloc]), scanned, nextFreeCursor]
  rcases invariant.nextFreeCursor_eq_or_lt with exhausted | inRange
  · unfold nextFreeCursor at exhausted
    simp only [exhausted, beq_self_eq_true, Bool.true_or, Checked.pure_bind,
      Checked.assert_true_bind, ↓reduceIte]
    rfl
  · unfold nextFreeCursor at inRange
    simp only [beq_eq_false_iff_ne.mpr (ne_maxSlotIndex_of_lt_slotNum chunk inRange),
      Checked.pure_bind, Bool.false_or, inRange, decide_True, Checked.assert_true_bind,
      Bool.false_eq_true, ↓reduceIte]
    rfl

theorem allocInChunk_contract (colors : AllocColors L)
    (objMarkBlackInTable : BitVec L.bitsPerWord → Nat → Table L.bitsPerWord →
      Table L.bitsPerWord)
    (concurrentMarkPhase : Bool) (chunk : Chunk L.bitsPerWord) (memory : Memory L.bitsPerWord)
    (invariant : ChunkInvariant colors chunk)
    (marks : concurrentMarkPhase = true →
      MarksOnlyOwnField colors objMarkBlackInTable chunk.base chunk.slotSize chunk.slotNum) :
    AllocContract colors chunk
      (allocInChunk false colors objMarkBlackInTable concurrentMarkPhase chunk memory) := by
  obtain ⟨table, -, tableAlloc, tableField, call⟩ := allocInChunk_false_eq colors
    objMarkBlackInTable concurrentMarkPhase chunk memory invariant marks
  rw [call]
  have counted := allocatedCount_of_allocate colors invariant.cursorInRange
    invariant.cursorFree tableAlloc
  have allocatedBelow : ∀ bound, (∀ slot, chunk.slotIndex < slot → slot < bound →
      slotIsAllocInTable colors chunk.table slot = true) →
      ∀ slot < bound, slotIsAllocInTable colors table slot = true := by
    intro bound between slot below
    rcases Nat.lt_trichotomy slot chunk.slotIndex with before | rfl | later
    · simp [tableAlloc, invariant.allocatedBelowCursor slot before]
    · simp [tableAlloc]
    · simp [tableAlloc, between slot later below]
  have counts : chunk.allocNum + 1 = allocatedCount colors table chunk.slotNum := by
    rw [invariant.allocNumCounts, counted]
  rcases nextFreeCursor_cases colors chunk with
    ⟨exhausted, rest⟩ | ⟨after, inside, free, between⟩
  · refine ⟨by simp, rfl, tableAlloc, tableField, rfl, rfl, ⟨rfl, rfl, rfl⟩,
      fun kept => by simp [exhausted] at kept, fun _ => ?_⟩
    have allAllocated := allocatedBelow _ rest
    refine ⟨allAllocated, ?_, exhausted, by simp [exhausted]⟩
    rw [counts]
    exact allocatedCount_of_allAllocated colors fun slot below =>
      allAllocated slot (Nat.lt_of_lt_of_le below (L.le_scanLimit _))
  · have inRange := invariant.lt_slotNum_of_free inside free
    refine ⟨by simp, rfl, tableAlloc, tableField, rfl, rfl, ⟨rfl, rfl, rfl⟩,
      fun _ => ?_, fun cleared => ?_⟩
    · refine ⟨invariant.slotNumPositive, inRange, allocatedBelow _ between, ?_, counts,
        fun slot padding inside => ?_, invariant.colorBitsFit⟩
      · simp [tableAlloc, free, Nat.ne_of_lt after]
      · simp [tableAlloc, invariant.paddingAllocated slot padding inside]
    · simp [ne_maxSlotIndex_of_lt_slotNum chunk inRange] at cleared

end Sspace
end Drlvm
