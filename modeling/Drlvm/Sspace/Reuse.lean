import Drlvm.Sspace.Run

/-!
# Allocating from a cleared chunk

A chunk set up for reuse has its table cleared below `slot_num` by
`clear_free_slot_in_table`, its cursor at slot `0` and no slot counted.
`alloc_in_chunk` then hands out its slots in order, one a call, and hands the
chunk back with the last one.  The clear leaves the fields of the last table
word past `slot_num` as they were, and the free-slot scan reads them: the chunk
is used up after `slot_num` calls only when those fields carry the alloc
colour, as they always do when `slot_num` fills whole table words.
-/

namespace Drlvm
namespace Sspace

variable {L : TableLayout}

/-- The slots of a chunk from the cursor on are all free. -/
def FreeFromCursor (colors : AllocColors L) (chunk : Chunk L.bitsPerWord) : Prop :=
  ∀ slot, chunk.slotIndex ≤ slot → slot < chunk.slotNum →
    slotIsAllocInTable colors chunk.table slot = false

/-- With every slot from the cursor on free, the cursor moves one slot on, and
from the last slot to `MAX_SLOT_INDEX`. -/
theorem nextFreeCursor_of_freeFromCursor {colors : AllocColors L}
    {chunk : Chunk L.bitsPerWord} (invariant : ChunkInvariant colors chunk)
    (free : FreeFromCursor colors chunk) :
    nextFreeCursor colors chunk =
      if chunk.slotIndex + 1 < chunk.slotNum then chunk.slotIndex + 1 else maxSlotIndex := by
  rcases nextFreeCursor_cases colors chunk with
    ⟨exhausted, rest⟩ | ⟨after, inside, found, between⟩
  · split
    · rename_i more
      have := rest _ (Nat.lt_succ_self _) (Nat.lt_of_lt_of_le more (L.le_scanLimit _))
      rw [free _ (Nat.le_succ _) more] at this
      exact absurd this Bool.false_ne_true
    · exact exhausted
  · have inRange := invariant.lt_slotNum_of_free inside found
    have next : nextFreeCursor colors chunk = chunk.slotIndex + 1 := by
      refine Nat.le_antisymm (Nat.le_of_not_lt fun later => ?_) after
      have := between _ (Nat.lt_succ_self _) later
      rw [free _ (Nat.le_succ _) (by omega)] at this
      exact Bool.false_ne_true this
    rw [next, if_pos (next ▸ inRange)]

section

variable (colors : AllocColors L)
  (objMarkBlackInTable : BitVec L.bitsPerWord → Nat → Table L.bitsPerWord →
    Table L.bitsPerWord)

/-- One call with the concurrent-mark phase off, on a chunk free from its cursor
on: it returns the cursor slot and fails no assertion; before the last slot it
moves the cursor one slot on and keeps both properties, and at the last slot it
hands the chunk back as `CHUNK_USED | CHUNK_NORMAL`. -/
theorem allocInChunk_freeFromCursor (chunk : Chunk L.bitsPerWord) (memory : Memory L.bitsPerWord)
    (invariant : ChunkInvariant colors chunk) (free : FreeFromCursor colors chunk)
    (baseNonNull : chunk.base ≠ 0) :
    let call := allocInChunk false colors objMarkBlackInTable false chunk memory
    call.failed = [] ∧ call.value.pObj = slotIndexToAddr chunk chunk.slotIndex ∧
      slotIndexToAddr call.value.chunk = slotIndexToAddr chunk ∧
      call.value.chunk.base = chunk.base ∧ call.value.chunk.slotNum = chunk.slotNum ∧
      (chunk.slotIndex + 1 < chunk.slotNum → call.value.chunkCleared = false ∧
        call.value.chunk.slotIndex = chunk.slotIndex + 1 ∧
        ChunkInvariant colors call.value.chunk ∧ FreeFromCursor colors call.value.chunk) ∧
      (chunk.slotNum ≤ chunk.slotIndex + 1 → call.value.chunkCleared = true ∧
        call.value.chunk.status = ChunkStatus.usedNormal) := by
  intro call
  have contract : AllocContract colors chunk call :=
    allocInChunk_contract colors objMarkBlackInTable false chunk memory invariant nofun
  obtain ⟨sameBase, sameSlotSize, sameSlotNum⟩ := contract.keepsGeometry
  have cursor := contract.movesCursor
  rw [nextFreeCursor_of_freeFromCursor invariant free] at cursor
  refine ⟨by rw [contract.onlyBaseAssertion, if_neg baseNonNull], contract.returnsCursorSlot,
    slotIndexToAddr_congr sameBase sameSlotSize, sameBase, sameSlotNum, fun more => ?_,
    fun last => ?_⟩
  · rw [if_pos more] at cursor
    have kept : call.value.chunkCleared = false := Bool.eq_false_iff.mpr fun cleared =>
      ne_maxSlotIndex_of_lt_slotNum chunk more
        (cursor ▸ (contract.handsBackFull cleared).cursorExhausted)
    refine ⟨kept, cursor, contract.keepsInvariant kept, fun slot after below => ?_⟩
    rw [contract.allocatesCursorSlot, free slot (by omega) (sameSlotNum ▸ below)]
    simp only [Bool.or_false, decide_eq_false_iff_not]
    omega
  · rw [if_neg (Nat.not_lt.mpr last)] at cursor
    have cleared : call.value.chunkCleared = true := by
      by_contra kept
      have inRange := (contract.keepsInvariant (Bool.eq_false_iff.mpr kept)).cursorInRange
      rw [cursor, sameSlotNum] at inRange
      exact ne_maxSlotIndex_of_lt_slotNum chunk inRange rfl
    exact ⟨cleared, (contract.handsBackFull cleared).statusUsedNormal⟩

/-- A run of requests with the concurrent-mark phase off, on a chunk free from
its cursor on, hands out the slots from the cursor on in order, fails no
assertion, and releases the chunk, as `CHUNK_USED | CHUNK_NORMAL`, with its last
slot. -/
theorem allocRun_freeFromCursor (requests : Nat) (chunk : Chunk L.bitsPerWord)
    (memory : Memory L.bitsPerWord) (invariant : ChunkInvariant colors chunk)
    (free : FreeFromCursor colors chunk) (baseNonNull : chunk.base ≠ 0) :
    let run := allocRun false colors objMarkBlackInTable (List.replicate requests false)
      ⟨chunk, true, memory⟩
    run.failed = [] ∧
      run.value.1 = (List.range' chunk.slotIndex
        (min requests (chunk.slotNum - chunk.slotIndex))).map (slotIndexToAddr chunk) ∧
      run.value.2.chunkHeld = decide (requests < chunk.slotNum - chunk.slotIndex) ∧
      (chunk.slotNum - chunk.slotIndex ≤ requests →
        run.value.2.chunk.status = ChunkStatus.usedNormal) := by
  have cursorInRange := invariant.cursorInRange
  induction requests generalizing chunk memory with
  | zero =>
      refine ⟨rfl, by simp [allocRun], by simp [allocRun, cursorInRange], fun none => ?_⟩
      omega
  | succ requests ih =>
      obtain ⟨noFailure, returned, sameAddresses, sameBase, sameSlotNum, more, last⟩ :=
        allocInChunk_freeFromCursor colors objMarkBlackInTable chunk memory invariant free
          baseNonNull
      simp only [List.replicate_succ, allocRun, if_true, Checked.failed_bind,
        Checked.value_bind, Checked.value_pure, Checked.failed_pure, List.append_nil,
        noFailure, List.nil_append, returned]
      rcases Nat.lt_or_ge (chunk.slotIndex + 1) chunk.slotNum with below | atLast
      · obtain ⟨kept, cursor, keptInvariant, keptFree⟩ := more below
        obtain ⟨restFailed, restAddresses, restHeld, restStatus⟩ :=
          ih _ (allocInChunk false colors objMarkBlackInTable false chunk memory).value.memory
            keptInvariant keptFree (sameBase ▸ baseNonNull) keptInvariant.cursorInRange
        simp only [kept, Bool.not_false]
        simp only [cursor, sameSlotNum, sameAddresses] at restAddresses
        simp only [cursor, sameSlotNum] at restHeld restStatus
        refine ⟨restFailed, ?_, restHeld.trans (decide_eq_decide.mpr (by omega)),
          fun used => restStatus (by omega)⟩
        rw [restAddresses, show min (requests + 1) (chunk.slotNum - chunk.slotIndex) =
          min requests (chunk.slotNum - (chunk.slotIndex + 1)) + 1 by omega, List.range'_succ,
          List.map_cons]
      · obtain ⟨cleared, used⟩ := last atLast
        simp only [cleared, Bool.not_true, allocRun_released, Checked.failed_pure,
          Checked.value_pure]
        refine ⟨trivial, ?_, (decide_eq_false (by omega)).symm, fun _ => used⟩
        rw [show min (requests + 1) (chunk.slotNum - chunk.slotIndex) = 1 by omega]
        rfl

end

/-! ## A chunk set up for reuse -/

/-- Modelled from the spec: a chunk set up for reuse (the code that sets it up
is not in src/): the table after `clear_free_slot_in_table(table, slot_num)`,
the cursor at slot `0` and no slot counted.  The clear's assertion holds for
every `slot_num` in `[1, MAX_SLOT_INDEX)` (`clearFreeSlotInTable_failed`);
`chunkCycles` keeps what it reports. -/
def clearedChunk (table : Table L.bitsPerWord) (base : BitVec L.bitsPerWord)
    (slotSize slotNum : Nat) (status : ChunkStatus) (slotNumFits : slotNum < 2 ^ 32) :
    Chunk L.bitsPerWord :=
  ⟨(L.clearFreeSlotInTable table slotNum).value, base, slotSize, slotNum, 0, 0, status,
    slotNumFits⟩

/-- A chunk set up for reuse has the representation invariant and all its slots
free, provided the padding fields of its last table word carry the alloc colour
before the clear. -/
theorem clearedChunk_invariant (colors : AllocColors L) (table : Table L.bitsPerWord)
    (base : BitVec L.bitsPerWord) (slotSize : Nat) {slotNum : Nat} (status : ChunkStatus)
    (fits : slotNum * L.colorBitsPerObj < 2 ^ 32) (positive : 1 ≤ slotNum)
    (paddingAllocated : ∀ slot, slotNum ≤ slot → slot < L.scanLimit slotNum →
      slotIsAllocInTable colors table slot = true) :
    let chunk := clearedChunk table base slotSize slotNum status (L.lt_two_pow_of_mul_lt fits)
    ChunkInvariant colors chunk ∧ FreeFromCursor colors chunk := by
  have cleared := L.slotIsAllocInTable_clearFreeSlotInTable colors table slotNum
  have free : ∀ slot < slotNum,
      slotIsAllocInTable colors (L.clearFreeSlotInTable table slotNum).value slot = false :=
    fun slot below => by simp [cleared, Nat.not_le.mpr below]
  refine ⟨⟨positive, positive, fun slot below => absurd below (Nat.not_lt_zero _),
    free 0 positive, ?_, fun slot padding inside => ?_, fits⟩,
    fun slot _ below => free slot below⟩
  · exact (List.countP_eq_zero.mpr fun slot member =>
      by simp [clearedChunk, free slot (List.mem_range.mp member)]).symm
  · change slotIsAllocInTable colors (L.clearFreeSlotInTable table slotNum).value slot = true
    rw [cleared, decide_eq_true (show slotNum ≤ slot from padding),
      paddingAllocated slot padding inside, Bool.true_and]

section

variable (colors : AllocColors L)
  (objMarkBlackInTable : BitVec L.bitsPerWord → Nat → Table L.bitsPerWord →
    Table L.bitsPerWord)

/-- Modelled from the spec: `cycles` cycles of one chunk's life (the code that
drives them is not in src/).  Each cycle clears the table with
`clear_free_slot_in_table(table, slot_num)` and sets the chunk up for reuse,
keeping its geometry and status; its owner then allocates from it with the
concurrent-mark phase off until its pointer is cleared: `slot_num + 1` requests
are more than a cycle can meet.  Returns the addresses each cycle handed out and
the chunk the last one left. -/
def chunkCycles : Nat → Chunk L.bitsPerWord → Memory L.bitsPerWord →
    Checked (List (List (BitVec L.bitsPerWord)) × Chunk L.bitsPerWord)
  | 0, chunk, _ => pure ([], chunk)
  | cycles + 1, chunk, memory => do
    let table ← L.clearFreeSlotInTable chunk.table chunk.slotNum
    let run ← allocRun false colors objMarkBlackInTable
      (List.replicate (chunk.slotNum + 1) false)
      ⟨{ chunk with table := table, slotIndex := 0, allocNum := 0 }, true, memory⟩
    let rest ← chunkCycles cycles run.2.chunk run.2.memory
    pure (run.1 :: rest.1, rest.2)

/-- One cycle: from a chunk whose padding fields carry the alloc colour, the
owner gets the chunk's `slot_num` addresses in order, no assertion fails, and
the chunk is handed back full with its geometry, so its padding fields still
carry the alloc colour. -/
theorem allocRun_clearedChunk_exhausts (chunk : Chunk L.bitsPerWord)
    (memory : Memory L.bitsPerWord) (positive : 1 ≤ chunk.slotNum) (baseNonNull : chunk.base ≠ 0)
    (fits : chunk.slotNum * L.colorBitsPerObj < 2 ^ 32)
    (paddingAllocated : ∀ slot, chunk.slotNum ≤ slot → slot < L.scanLimit chunk.slotNum →
      slotIsAllocInTable colors chunk.table slot = true) :
    let run := allocRun false colors objMarkBlackInTable (List.replicate (chunk.slotNum + 1) false)
      ⟨clearedChunk chunk.table chunk.base chunk.slotSize chunk.slotNum chunk.status
        chunk.slotNumFits, true, memory⟩
    run.failed = [] ∧ run.value.1 = (List.range chunk.slotNum).map (slotIndexToAddr chunk) ∧
      ChunkExhausted colors run.value.2.chunk ∧ run.value.2.chunk.base = chunk.base ∧
      run.value.2.chunk.slotSize = chunk.slotSize ∧ run.value.2.chunk.slotNum = chunk.slotNum := by
  intro run
  obtain ⟨invariant, free⟩ := clearedChunk_invariant colors chunk.table chunk.base chunk.slotSize
    chunk.status fits positive paddingAllocated
  obtain ⟨noFailure, addresses, released, -⟩ := allocRun_freeFromCursor colors
    objMarkBlackInTable (chunk.slotNum + 1) _ memory invariant free baseNonNull
  have contract := allocRun_contract colors objMarkBlackInTable
    (List.replicate (chunk.slotNum + 1) false)
    ⟨clearedChunk chunk.table chunk.base chunk.slotSize chunk.slotNum chunk.status
      chunk.slotNumFits, true, memory⟩ invariant
    fun marking => Bool.noConfusion (List.mem_replicate.mp marking).2
  have held : run.value.2.chunkHeld = false :=
    released.trans (decide_eq_false (show ¬chunk.slotNum + 1 < chunk.slotNum - 0 by omega))
  have exhausted := contract.keepsInvariant
  rw [AllocatorInvariant, held, if_neg Bool.false_ne_true] at exhausted
  refine ⟨noFailure, addresses.trans ?_, exhausted, contract.keepsGeometry⟩
  show List.map (slotIndexToAddr chunk)
    (List.range' 0 (min (chunk.slotNum + 1) (chunk.slotNum - 0))) = _
  rw [show min (chunk.slotNum + 1) (chunk.slotNum - 0) = chunk.slotNum by omega,
    List.range_eq_range']

/-- A chunk whose padding fields carry the alloc colour can be reused for ever:
in every cycle the clear and the allocations fail no assertion and the owner
gets the same `slot_num` addresses, `base`, `base + slot_size`, ..., in order,
and after the first cycle the chunk is left handed back full. -/
theorem chunkCycles_reusesSlots (chunk : Chunk L.bitsPerWord) (memory : Memory L.bitsPerWord)
    (positive : 1 ≤ chunk.slotNum) (belowMax : chunk.slotNum < maxSlotIndex)
    (fits : chunk.slotNum * L.colorBitsPerObj < 2 ^ 32) (baseNonNull : chunk.base ≠ 0)
    (paddingAllocated : ∀ slot, chunk.slotNum ≤ slot → slot < L.scanLimit chunk.slotNum →
      slotIsAllocInTable colors chunk.table slot = true) (cycles : Nat) :
    let life := chunkCycles colors objMarkBlackInTable cycles chunk memory
    life.failed = [] ∧
      life.value.1 =
        List.replicate cycles ((List.range chunk.slotNum).map (slotIndexToAddr chunk)) ∧
      (0 < cycles → ChunkExhausted colors life.value.2) := by
  induction cycles generalizing chunk memory with
  | zero => exact ⟨rfl, rfl, fun none => absurd none (Nat.lt_irrefl 0)⟩
  | succ cycles ih =>
    have cycle := allocRun_clearedChunk_exhausts colors objMarkBlackInTable chunk memory positive
      baseNonNull fits paddingAllocated
    have cleared := L.clearFreeSlotInTable_failed chunk.table positive belowMax
    have chunkEq : clearedChunk chunk.table chunk.base chunk.slotSize chunk.slotNum chunk.status
        chunk.slotNumFits =
        { chunk with
          table := (L.clearFreeSlotInTable chunk.table chunk.slotNum).value
          slotIndex := 0
          allocNum := 0 } := rfl
    rw [chunkCycles]
    simp only [Checked.failed_bind, Checked.value_bind, cleared, List.nil_append, ← chunkEq]
    generalize allocRun false colors objMarkBlackInTable (List.replicate (chunk.slotNum + 1) false)
      ⟨clearedChunk chunk.table chunk.base chunk.slotSize chunk.slotNum chunk.status
        chunk.slotNumFits, true, memory⟩ = run at cycle ⊢
    obtain ⟨noFailure, addresses, exhausted, sameBase, sameSlotSize, sameSlotNum⟩ := cycle
    obtain ⟨restFailed, restAddresses, restExhausted⟩ := ih run.value.2.chunk run.value.2.memory
      (sameSlotNum ▸ positive) (sameSlotNum ▸ belowMax) (sameSlotNum ▸ fits)
      (sameBase ▸ baseNonNull) fun slot _ inside => exhausted.allAllocated slot inside
    rw [slotIndexToAddr_congr sameBase sameSlotSize, sameSlotNum] at restAddresses
    simp only [noFailure, restFailed, addresses, restAddresses, Checked.failed_pure,
      Checked.value_pure, List.replicate_succ, List.append_nil]
    refine ⟨trivial, trivial, fun _ => ?_⟩
    cases cycles with
    | zero => exact exhausted
    | succ cycles => exact restExhausted (Nat.succ_pos _)

end

/-- A three-slot chunk at `0x1000` whose table word has the alloc colour in every
field. -/
def usedChunk3 : Chunk 32 :=
  ⟨fun _ => 0x55555555#32, 0x1000#32, 16, 3, maxSlotIndex, 3, ChunkStatus.usedNormal, by decide⟩

theorem chunkCycles_reusesSlots_usedChunk3 :
    let life := chunkCycles AllocColors.word32 (fun _ _ table => table) 2 usedChunk3 fun _ => 0
    life.failed = [] ∧
      life.value.1 = List.replicate 2 ((List.range 3).map (slotIndexToAddr usedChunk3)) ∧
      (0 < 2 → ChunkExhausted AllocColors.word32 life.value.2) :=
  chunkCycles_reusesSlots AllocColors.word32 (fun _ _ table => table) usedChunk3 (fun _ => 0)
    (by decide) (by decide) (by decide) (by decide) (by decide) 2

end Sspace
end Drlvm
