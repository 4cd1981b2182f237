import Drlvm.Sspace.Reuse

/-!
# The fresh-chunk build

With `ENABLE_FRESH_CHUNK_ALLOC` defined, `alloc_in_chunk` on a chunk with
`CHUNK_FRESH` set increments `slot_index` and sets `chunk->slot_index` from it.
The `else` that follows governs only the allocate-black statement, so the
cursor is then set again by `next_free_slot_index_in_table`, called from the
incremented `slot_index`: on a free slot, against the assertion at line 82, and
returning the slot after it.  Every call of this build on a fresh chunk with room
skips one free slot, and none marks the new object black.

Over a whole run from a fresh chunk the build hands out every other slot, and
hands the chunk back as `CHUNK_USED | CHUNK_NORMAL` with the slots it skipped
still free: about half the chunk stays unused until the next sweep.  In the
concurrent-mark phase as out of it, the run writes the table only through
`alloc_slot_in_table`: no object it hands out is marked black.
-/

namespace Drlvm
namespace Sspace

variable {L : TableLayout}

section

variable (colors : AllocColors L)
  (objMarkBlackInTable : BitVec L.bitsPerWord → Nat → Table L.bitsPerWord →
    Table L.bitsPerWord)

/-- In the fresh-chunk build, on a fresh chunk free from its cursor on with two
more slots after the cursor: the cursor moves two slots on, past a free slot;
`next_free_slot_index_in_table` is called on that free slot and its assertion
fails; and the table is the one `alloc_slot_in_table` leaves, never marked black.
The default build moves the cursor one slot on. -/
theorem allocInChunk_fresh_skipsSlot (concurrentMarkPhase : Bool) (chunk : Chunk L.bitsPerWord)
    (memory : Memory L.bitsPerWord) (invariant : ChunkInvariant colors chunk)
    (free : FreeFromCursor colors chunk) (fresh : chunk.status.fresh = true)
    (room : chunk.slotIndex + 2 < chunk.slotNum)
    (marks : concurrentMarkPhase = true →
      MarksOnlyOwnField colors objMarkBlackInTable chunk.base chunk.slotSize chunk.slotNum) :
    (allocInChunk true colors objMarkBlackInTable concurrentMarkPhase chunk
        memory).value.chunk.slotIndex = chunk.slotIndex + 2 ∧
      slotIsAllocInTable colors (allocInChunk true colors objMarkBlackInTable
        concurrentMarkPhase chunk memory).value.chunk.table (chunk.slotIndex + 1) = false ∧
      (allocInChunk true colors objMarkBlackInTable concurrentMarkPhase chunk
        memory).value.chunk.table = (allocSlotInTable colors chunk.table chunk.slotIndex).value ∧
      "slot_is_alloc_in_table(table, slot_index)" ∈
        (allocInChunk true colors objMarkBlackInTable concurrentMarkPhase chunk memory).failed ∧
      (allocInChunk false colors objMarkBlackInTable concurrentMarkPhase chunk
        memory).value.chunk.slotIndex = chunk.slotIndex + 1 := by
  obtain ⟨table1, allocSlot, table1Alloc, -⟩ :=
    allocSlotInTable_of_free colors chunk.table invariant.cursorFree
  have skipped : slotIsAllocInTable colors table1 (chunk.slotIndex + 1) = false := by
    simp [table1Alloc, free (chunk.slotIndex + 1) (by omega) (by omega)]
  have found : firstSlot (fun slot => !slotIsAllocInTable colors table1 slot)
      (chunk.slotIndex + 1 + 1) (L.scanLimit chunk.slotNum) = some (chunk.slotIndex + 2) := by
    rw [firstSlot_of_lt (Nat.lt_of_lt_of_le room (L.le_scanLimit _))]
    simp [table1Alloc, free (chunk.slotIndex + 2) (by omega) room]
  have defaultCursor := (allocInChunk_contract colors objMarkBlackInTable concurrentMarkPhase
    chunk memory invariant marks).movesCursor
  rw [nextFreeCursor_of_freeFromCursor invariant free, if_pos (by omega)] at defaultCursor
  refine ⟨?_, ?_, ?_, ?_, defaultCursor⟩ <;>
  simp only [allocInChunk, fresh, Bool.true_and, ↓reduceIte, Bool.not_true, Bool.false_and,
    Bool.false_eq_true, allocSlot, Checked.pure_bind, nextFreeSlotIndexInTable_eq_assert,
    skipped, found, Option.getD_some, invariant.cursorFree, allocNum_lt_slotNum invariant,
    decide_True, Bool.not_false, Checked.assert_true_bind, Checked.value_bind, Checked.value_pure,
    Checked.failed_bind, Checked.failed_pure, Checked.failed_assert,
    beq_eq_false_iff_ne.mpr (ne_maxSlotIndex_of_lt_slotNum chunk room), Bool.false_or, room,
    Bool.false_eq_true]
  simp

end

/-- An empty chunk of sixteen 16-byte slots at `0x1000` with `CHUNK_FRESH` set. -/
def freshChunk16 : Chunk TableLayout.word32.bitsPerWord :=
  ⟨fun _ => 0, 0x1000#32, 16, 16, 0, 0, ⟨false, false, true, false⟩, by decide⟩

theorem allocInChunk_fresh_skipsSlot_freshChunk16 :
    (allocInChunk true AllocColors.word32 (fun _ _ table => table) false freshChunk16
        fun _ => 0).value.chunk.slotIndex = freshChunk16.slotIndex + 2 ∧
      slotIsAllocInTable AllocColors.word32 (allocInChunk true AllocColors.word32
        (fun _ _ table => table) false freshChunk16 fun _ => 0).value.chunk.table
        (freshChunk16.slotIndex + 1) = false ∧
      (allocInChunk true AllocColors.word32 (fun _ _ table => table) false freshChunk16
        fun _ => 0).value.chunk.table =
          (allocSlotInTable AllocColors.word32 freshChunk16.table freshChunk16.slotIndex).value ∧
      "slot_is_alloc_in_table(table, slot_index)" ∈
        (allocInChunk true AllocColors.word32 (fun _ _ table => table) false freshChunk16
          fun _ => 0).failed ∧
      (allocInChunk false AllocColors.word32 (fun _ _ table => table) false freshChunk16
        fun _ => 0).value.chunk.slotIndex = freshChunk16.slotIndex + 1 :=
  allocInChunk_fresh_skipsSlot AllocColors.word32 (fun _ _ table => table) false freshChunk16
    (fun _ => 0)
    ⟨by decide, by decide, by decide, by decide, by decide, by decide, by decide⟩
    (by unfold FreeFromCursor; decide) rfl (by decide) nofun

/-- The first allocation from the fresh chunk in the concurrent-mark phase: the
fresh-chunk build moves the cursor to slot `2`, fails the assertion of
`next_free_slot_index_in_table` and leaves slot `0` allocated but not marked;
the default build moves the cursor to slot `1`, fails nothing, and marks slot
`0` black. -/
theorem allocInChunk_freshChunk16 :
    (allocInChunk true AllocColors.word32 markBlack32 true freshChunk16
        fun _ => 0).value.chunk.slotIndex = 2 ∧
      (allocInChunk false AllocColors.word32 markBlack32 true freshChunk16
        fun _ => 0).value.chunk.slotIndex = 1 ∧
      (allocInChunk true AllocColors.word32 markBlack32 true freshChunk16 fun _ => 0).failed =
        ["slot_is_alloc_in_table(table, slot_index)"] ∧
      (allocInChunk false AllocColors.word32 markBlack32 true freshChunk16
        fun _ => 0).failed = [] ∧
      (allocInChunk true AllocColors.word32 markBlack32 true freshChunk16
        fun _ => 0).value.chunk.table 0 = 1#32 ∧
      (allocInChunk false AllocColors.word32 markBlack32 true freshChunk16
        fun _ => 0).value.chunk.table 0 = 3#32 := by
  decide

/-! ## A run of the fresh-chunk build -/

/-- A chunk the fresh-chunk build allocates from as fresh: the cursor is a slot
of the chunk, every slot from it on is free, no more slots are counted than lie
below it, the padding slots carry the alloc colour, and `CHUNK_FRESH` is set.
The fresh path scans from two slots past the cursor, so the colour bits of one
slot more than the chunk has must fit in an `unsigned int` for the indices it
computes to be exact. -/
structure FreshChunkState (colors : AllocColors L) (chunk : Chunk L.bitsPerWord) : Prop where
  cursorInRange : chunk.slotIndex < chunk.slotNum
  freeFromCursor : FreeFromCursor colors chunk
  countedBelowCursor : chunk.allocNum ≤ chunk.slotIndex
  paddingAllocated : ∀ slot, chunk.slotNum ≤ slot → slot < L.scanLimit chunk.slotNum →
    slotIsAllocInTable colors chunk.table slot = true
  fresh : chunk.status.fresh = true
  colorBitsFit : (chunk.slotNum + 1) * L.colorBitsPerObj < 2 ^ 32

/-- The chunk after a call that leaves it held keeps the state, its cursor two
slots on. -/
theorem FreshChunkState.next {colors : AllocColors L} {chunk : Chunk L.bitsPerWord}
    (state : FreshChunkState colors chunk) (room : chunk.slotIndex + 2 < chunk.slotNum) :
    FreshChunkState colors
      { chunk with
        table := (allocSlotInTable colors chunk.table chunk.slotIndex).value
        slotIndex := chunk.slotIndex + 2
        allocNum := chunk.allocNum + 1 } where
  cursorInRange := room
  freeFromCursor slot after below := by
    dsimp only at after below ⊢
    simp only [slotIsAllocInTable_allocSlotInTable, state.freeFromCursor slot (by omega) below,
      Bool.or_false, decide_eq_false_iff_not]
    omega
  countedBelowCursor := Nat.succ_le_succ (Nat.le_succ_of_le state.countedBelowCursor)
  paddingAllocated slot after below := by
    dsimp only at after below ⊢
    simp [slotIsAllocInTable_allocSlotInTable, state.paddingAllocated slot after below]
  fresh := state.fresh
  colorBitsFit := state.colorBitsFit

section

variable (colors : AllocColors L)
  (objMarkBlackInTable : BitVec L.bitsPerWord → Nat → Table L.bitsPerWord →
    Table L.bitsPerWord)

/-- One call of the fresh-chunk build on a fresh chunk with a non-null base: it
returns the cursor slot and allocates it; the cursor moves two slots on, or to
`MAX_SLOT_INDEX` with the chunk handed back as `CHUNK_USED | CHUNK_NORMAL` when
fewer than two slots follow; the only assertion that can fail is the one of
`next_free_slot_index_in_table` on the slot after the cursor. -/
theorem allocInChunk_freshCall (concurrentMarkPhase : Bool) (chunk : Chunk L.bitsPerWord)
    (memory : Memory L.bitsPerWord) (state : FreshChunkState colors chunk)
    (baseNonNull : chunk.base ≠ 0) :
    let call := allocInChunk true colors objMarkBlackInTable concurrentMarkPhase chunk memory
    call.failed = (if slotIsAllocInTable colors chunk.table (chunk.slotIndex + 1) then []
        else ["slot_is_alloc_in_table(table, slot_index)"]) ∧
      call.value.pObj = slotIndexToAddr chunk chunk.slotIndex ∧
      call.value.chunk =
        { chunk with
          table := (allocSlotInTable colors chunk.table chunk.slotIndex).value
          slotIndex := if chunk.slotIndex + 2 < chunk.slotNum then chunk.slotIndex + 2
            else maxSlotIndex
          allocNum := chunk.allocNum + 1
          status := if chunk.slotIndex + 2 < chunk.slotNum then chunk.status
            else ChunkStatus.usedNormal } ∧
      call.value.chunkCleared = decide (chunk.slotNum ≤ chunk.slotIndex + 2) := by
  have cursorFree := state.freeFromCursor _ le_rfl state.cursorInRange
  obtain ⟨table1, allocSlot, table1Alloc, -⟩ :=
    allocSlotInTable_of_free colors chunk.table cursorFree
  have skipped : slotIsAllocInTable colors table1 (chunk.slotIndex + 1) =
      slotIsAllocInTable colors chunk.table (chunk.slotIndex + 1) := by
    simp [table1Alloc]
  have next : (firstSlot (fun slot => !slotIsAllocInTable colors table1 slot)
      (chunk.slotIndex + 1 + 1) (L.scanLimit chunk.slotNum)).getD maxSlotIndex =
      if chunk.slotIndex + 2 < chunk.slotNum then chunk.slotIndex + 2 else maxSlotIndex := by
    split
    · rename_i room
      rw [firstSlot_of_lt (Nat.lt_of_lt_of_le room (L.le_scanLimit _))]
      simp [table1Alloc, state.freeFromCursor (chunk.slotIndex + 2) (by omega) room]
    · rename_i full
      rw [firstSlot_eq_none_iff.mpr fun slot after inside => by
        simp [table1Alloc, state.paddingAllocated slot (by omega) inside]]
      rfl
  have based : (chunk.base != 0) = true := bne_iff_ne.mpr baseNonNull
  simp only [allocInChunk, state.fresh, Bool.true_and, ↓reduceIte, Bool.not_true, Bool.false_and,
    Bool.false_eq_true, allocSlot, Checked.pure_bind, nextFreeSlotIndexInTable_eq_assert,
    skipped, next, cursorFree, Nat.lt_of_le_of_lt state.countedBelowCursor state.cursorInRange,
    decide_True, Bool.not_false, Checked.assert_true_bind, based, Checked.value_bind,
    Checked.failed_bind, Checked.value_pure, Checked.failed_pure, Checked.failed_assert,
    slotIndexToAddr]
  by_cases room : chunk.slotIndex + 2 < chunk.slotNum
  · simp [room, beq_eq_false_iff_ne.mpr (ne_maxSlotIndex_of_lt_slotNum chunk room),
      Nat.not_le.mpr room]
  · simp only [room, ↓reduceIte, beq_self_eq_true, decide_eq_true (Nat.le_of_not_lt room)]
    simp

/-- Every run of calls of the fresh-chunk build on a held fresh chunk with a
non-null base hands out every other slot from the cursor on, one a call; keeps
the owner's pointer while such slots remain; allocates exactly the slots handed
out; hands the chunk back as `CHUNK_USED | CHUNK_NORMAL` with the slots skipped
still free; and fails the assertion of `next_free_slot_index_in_table` at every
call with a slot after the next, and at the last call on an odd count only when
the slot past the chunk reads free. -/
theorem allocRun_fresh_everyOtherSlot (phases : List Bool) (allocator : Allocator L.bitsPerWord)
    (held : allocator.chunkHeld = true) (state : FreshChunkState colors allocator.chunk)
    (baseNonNull : allocator.chunk.base ≠ 0) :
    let run := allocRun true colors objMarkBlackInTable phases allocator
    let calls := (allocator.chunk.slotNum - allocator.chunk.slotIndex + 1) / 2
    let handedOut := (List.range' allocator.chunk.slotIndex calls 2).take phases.length
    run.value.1 = handedOut.map (slotIndexToAddr allocator.chunk) ∧
      run.value.2.chunkHeld = decide (phases.length < calls) ∧
      (∀ slot, slotIsAllocInTable colors run.value.2.chunk.table slot =
        (decide (slot ∈ handedOut) || slotIsAllocInTable colors allocator.chunk.table slot)) ∧
      (calls ≤ phases.length → run.value.2.chunk.status = ChunkStatus.usedNormal) ∧
      run.failed = List.replicate
          (min phases.length ((allocator.chunk.slotNum - allocator.chunk.slotIndex) / 2))
          "slot_is_alloc_in_table(table, slot_index)" ++
        if (allocator.chunk.slotNum - allocator.chunk.slotIndex) % 2 = 1 ∧ calls ≤ phases.length ∧
          slotIsAllocInTable colors allocator.chunk.table allocator.chunk.slotNum = false
        then ["slot_is_alloc_in_table(table, slot_index)"] else [] := by
  induction phases generalizing allocator with
  | nil =>
    have := state.cursorInRange
    simp [allocRun, held]
    omega
  | cons concurrentMarkPhase phases ih =>
    obtain ⟨failedEq, pObjEq, chunkEq, clearedEq⟩ := allocInChunk_freshCall colors
      objMarkBlackInTable concurrentMarkPhase allocator.chunk allocator.memory state baseNonNull
    dsimp only
    simp only [allocRun, held, ↓reduceIte, Checked.value_bind, Checked.value_pure,
      Checked.failed_bind, Checked.failed_pure, List.append_nil]
    generalize allocInChunk true colors objMarkBlackInTable concurrentMarkPhase allocator.chunk
      allocator.memory = call at failedEq pObjEq chunkEq clearedEq ⊢
    rw [failedEq, pObjEq, chunkEq, clearedEq]
    have inRange := state.cursorInRange
    by_cases room : allocator.chunk.slotIndex + 2 < allocator.chunk.slotNum
    · have calls : (allocator.chunk.slotNum - allocator.chunk.slotIndex + 1) / 2 =
          (allocator.chunk.slotNum - (allocator.chunk.slotIndex + 2) + 1) / 2 + 1 := by omega
      obtain ⟨addresses, stillHeld, allocated, handedBack, failures⟩ :=
        ih ⟨_, true, call.value.memory⟩ rfl (state.next room) baseNonNull
      dsimp only at addresses stillHeld allocated handedBack failures
      have fewer :
          min (phases.length + 1) ((allocator.chunk.slotNum - allocator.chunk.slotIndex) / 2) =
            min phases.length ((allocator.chunk.slotNum - (allocator.chunk.slotIndex + 2)) / 2) +
              1 := by
        omega
      have parity : (allocator.chunk.slotNum - (allocator.chunk.slotIndex + 2)) % 2 =
          (allocator.chunk.slotNum - allocator.chunk.slotIndex) % 2 := by omega
      simp only [room, ↓reduceIte, decide_eq_false (Nat.not_le.mpr room), Bool.not_false,
        state.freeFromCursor (allocator.chunk.slotIndex + 1) (by omega) (by omega),
        Bool.false_eq_true, addresses, stillHeld, allocated, failures, calls, List.range'_succ,
        List.length_cons, List.take_succ_cons, List.map_cons, slotIndexToAddr,
        Nat.add_lt_add_iff_right, slotIsAllocInTable_allocSlotInTable, fewer, parity,
        List.replicate_succ, Nat.add_le_add_iff_right, List.cons_append, List.singleton_append,
        decide_eq_false (Nat.ne_of_lt inRange), Bool.false_or, List.nil_append]
      refine ⟨rfl, trivial, fun slot => ?_, fun last => handedBack (by omega), trivial⟩
      simp only [List.mem_cons, Bool.decide_or, eq_comm, Bool.or_assoc, Bool.or_left_comm]
    · have oneCall : (allocator.chunk.slotNum - allocator.chunk.slotIndex + 1) / 2 = 1 := by omega
      simp only [room, ↓reduceIte, decide_eq_true (Nat.le_of_not_lt room), Bool.not_true,
        allocRun_released, Checked.value_pure, Checked.failed_pure, List.append_nil, oneCall,
        List.range'_succ, List.range'_zero, List.length_cons, List.take_succ_cons, List.take_nil,
        List.map_cons, List.map_nil, slotIsAllocInTable_allocSlotInTable, List.mem_singleton,
        Nat.le_add_left, true_and, imp_self, and_true]
      refine ⟨by simp, fun slot => by simp only [@eq_comm _ slot], ?_⟩
      obtain two | one : allocator.chunk.slotNum = allocator.chunk.slotIndex + 2 ∨
          allocator.chunk.slotNum = allocator.chunk.slotIndex + 1 := by omega
      · simp [two, state.freeFromCursor (allocator.chunk.slotIndex + 1) (by omega) (by omega)]
      · simp only [one]
        cases slotIsAllocInTable colors allocator.chunk.table (allocator.chunk.slotIndex + 1) <;>
          simp

end

theorem allocRun_fresh_everyOtherSlot_freshChunk16 :
    let run := allocRun true AllocColors.word32 markBlack32 [false, true, false]
      ⟨freshChunk16, true, fun _ => 0⟩
    let calls := (freshChunk16.slotNum - freshChunk16.slotIndex + 1) / 2
    let handedOut := (List.range' freshChunk16.slotIndex calls 2).take 3
    run.value.1 = handedOut.map (slotIndexToAddr freshChunk16) ∧
      run.value.2.chunkHeld = decide (3 < calls) ∧
      (∀ slot, slotIsAllocInTable AllocColors.word32 run.value.2.chunk.table slot =
        (decide (slot ∈ handedOut) ||
          slotIsAllocInTable AllocColors.word32 freshChunk16.table slot)) ∧
      (calls ≤ 3 → run.value.2.chunk.status = ChunkStatus.usedNormal) ∧
      run.failed = List.replicate (min 3 ((freshChunk16.slotNum - freshChunk16.slotIndex) / 2))
          "slot_is_alloc_in_table(table, slot_index)" ++
        if (freshChunk16.slotNum - freshChunk16.slotIndex) % 2 = 1 ∧ calls ≤ 3 ∧
          slotIsAllocInTable AllocColors.word32 freshChunk16.table freshChunk16.slotNum = false
        then ["slot_is_alloc_in_table(table, slot_index)"] else [] :=
  allocRun_fresh_everyOtherSlot AllocColors.word32 markBlack32 [false, true, false]
    ⟨freshChunk16, true, fun _ => 0⟩ rfl
    ⟨by decide, by unfold FreeFromCursor; decide, by decide, by decide, rfl, by decide⟩
    (by decide)

section

variable (colors : AllocColors L)
  (objMarkBlackInTable : BitVec L.bitsPerWord → Nat → Table L.bitsPerWord →
    Table L.bitsPerWord)

/-- Every run of calls of the fresh-chunk build on a held fresh chunk with a
non-null base, in or out of the concurrent-mark phase, leaves the table that
`alloc_slot_in_table` leaves on the slots handed out, one after another:
`obj_mark_black_in_table` is never called, and no object handed out is marked
black. -/
theorem allocRun_fresh_neverMarks (phases : List Bool) (allocator : Allocator L.bitsPerWord)
    (held : allocator.chunkHeld = true) (state : FreshChunkState colors allocator.chunk)
    (baseNonNull : allocator.chunk.base ≠ 0) :
    (allocRun true colors objMarkBlackInTable phases allocator).value.2.chunk.table =
      ((List.range' allocator.chunk.slotIndex
          ((allocator.chunk.slotNum - allocator.chunk.slotIndex + 1) / 2) 2).take
        phases.length).foldl (fun table slot => (allocSlotInTable colors table slot).value)
        allocator.chunk.table := by
  induction phases generalizing allocator with
  | nil => simp [allocRun]
  | cons concurrentMarkPhase phases ih =>
    obtain ⟨-, -, chunkEq, clearedEq⟩ := allocInChunk_freshCall colors objMarkBlackInTable
      concurrentMarkPhase allocator.chunk allocator.memory state baseNonNull
    simp only [allocRun, held, ↓reduceIte, Checked.value_bind, Checked.value_pure]
    generalize allocInChunk true colors objMarkBlackInTable concurrentMarkPhase allocator.chunk
      allocator.memory = call at chunkEq clearedEq ⊢
    rw [chunkEq, clearedEq]
    have inRange := state.cursorInRange
    by_cases room : allocator.chunk.slotIndex + 2 < allocator.chunk.slotNum
    · have calls : (allocator.chunk.slotNum - allocator.chunk.slotIndex + 1) / 2 =
          (allocator.chunk.slotNum - (allocator.chunk.slotIndex + 2) + 1) / 2 + 1 := by omega
      simp only [room, ↓reduceIte, decide_eq_false (Nat.not_le.mpr room), Bool.not_false,
        calls, List.range'_succ, List.length_cons, List.take_succ_cons, List.foldl_cons]
      exact ih ⟨_, true, call.value.memory⟩ rfl (state.next room) baseNonNull
    · have oneCall : (allocator.chunk.slotNum - allocator.chunk.slotIndex + 1) / 2 = 1 := by omega
      simp [room, oneCall, decide_eq_true (Nat.le_of_not_lt room)]

end

theorem allocRun_fresh_neverMarks_freshChunk16 :
    (allocRun true AllocColors.word32 markBlack32 [true, true, true]
        ⟨freshChunk16, true, fun _ => 0⟩).value.2.chunk.table =
      ((List.range' freshChunk16.slotIndex
          ((freshChunk16.slotNum - freshChunk16.slotIndex + 1) / 2) 2).take 3).foldl
        (fun table slot => (allocSlotInTable AllocColors.word32 table slot).value)
        freshChunk16.table :=
  allocRun_fresh_neverMarks AllocColors.word32 markBlack32 [true, true, true]
    ⟨freshChunk16, true, fun _ => 0⟩ rfl
    ⟨by decide, by unfold FreeFromCursor; decide, by decide, by decide, rfl, by decide⟩
    (by decide)

end Sspace
end Drlvm
