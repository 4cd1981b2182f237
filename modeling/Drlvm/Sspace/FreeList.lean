import Drlvm.Sspace.Run
import Drlvm.Sspace.Enumeration

/-!
# The allocator as a free list

What the slot allocator is for, in its own terms: a chunk has a list of free
slots, lowest first, and each allocation takes the lowest.  In the default
build every run of `alloc_in_chunk` calls refines this view, in and out of the
concurrent-mark phase: the run hands out the free slots in increasing order, one
a call, and the owner's pointer is cleared exactly when the last free slot goes.
The walk of `next_alloc_slot_in_chunk` calls over the chunk afterwards finds
every slot the run handed out and every slot allocated before it.
-/

namespace Drlvm
namespace Sspace

variable {L : TableLayout}

/-- The free slots of a chunk, lowest first. -/
def freeSlots (colors : AllocColors L) (chunk : Chunk L.bitsPerWord) : List Nat :=
  (List.range chunk.slotNum).filter fun slot => !slotIsAllocInTable colors chunk.table slot

/-- The cursor of a chunk with the invariant is its lowest free slot. -/
theorem freeSlots_eq_cons {colors : AllocColors L} {chunk : Chunk L.bitsPerWord}
    (invariant : ChunkInvariant colors chunk) :
    freeSlots colors chunk = chunk.slotIndex ::
      (List.range' (chunk.slotIndex + 1) (chunk.slotNum - (chunk.slotIndex + 1))).filter
        fun slot => !slotIsAllocInTable colors chunk.table slot := by
  have found : firstSlot (fun slot => !slotIsAllocInTable colors chunk.table slot) 0
      chunk.slotNum = some chunk.slotIndex :=
    firstSlot_eq_some_iff.mpr ⟨Nat.zero_le _, invariant.cursorInRange,
      by simp [invariant.cursorFree],
      fun other _ before => by simp [invariant.allocatedBelowCursor other before]⟩
  have lowest := filter_range'_of_firstSlot found
  rwa [Nat.sub_zero, ← List.range_eq_range'] at lowest

section

variable (colors : AllocColors L)
  (objMarkBlackInTable : BitVec L.bitsPerWord → Nat → Table L.bitsPerWord →
    Table L.bitsPerWord)

/-- One call on a chunk with the invariant takes its lowest free slot: the free
slots after the call are the others, and the owner's pointer is cleared exactly
when none is left. -/
theorem allocInChunk_takesLowestFree (concurrentMarkPhase : Bool) (chunk : Chunk L.bitsPerWord)
    (memory : Memory L.bitsPerWord) (invariant : ChunkInvariant colors chunk)
    (marks : concurrentMarkPhase = true →
      MarksOnlyOwnField colors objMarkBlackInTable chunk.base chunk.slotSize chunk.slotNum) :
    let call := allocInChunk false colors objMarkBlackInTable concurrentMarkPhase chunk memory
    freeSlots colors call.value.chunk = (freeSlots colors chunk).tail ∧
      call.value.chunkCleared = (freeSlots colors call.value.chunk).isEmpty := by
  intro call
  have contract : AllocContract colors chunk call :=
    allocInChunk_contract colors objMarkBlackInTable concurrentMarkPhase chunk memory invariant
      marks
  have others : freeSlots colors call.value.chunk =
      (freeSlots colors chunk).filter fun slot => !decide (chunk.slotIndex = slot) := by
    simp only [freeSlots, contract.keepsGeometry.2.2, contract.allocatesCursorSlot,
      List.filter_filter, Bool.not_or]
  have later : ∀ slot ∈ (List.range' (chunk.slotIndex + 1)
      (chunk.slotNum - (chunk.slotIndex + 1))).filter
        (fun slot => !slotIsAllocInTable colors chunk.table slot),
      (!decide (chunk.slotIndex = slot)) = true := fun slot member => by
    have := List.mem_range'_1.mp (List.mem_filter.mp member).1
    simp only [Bool.not_eq_true', decide_eq_false_iff_not]
    omega
  refine ⟨?_, ?_⟩
  · rw [others, freeSlots_eq_cons invariant, List.filter_cons_of_neg (by simp),
      List.filter_eq_self.mpr later, List.tail_cons]
  · cases cleared : call.value.chunkCleared
    · rw [freeSlots_eq_cons (contract.keepsInvariant cleared)]
      rfl
    · have full := (contract.handsBackFull cleared).allAllocated
      refine (List.isEmpty_iff.mpr (List.filter_eq_nil_iff.mpr fun slot member => ?_)).symm
      rw [full slot (Nat.lt_of_lt_of_le (List.mem_range.mp member) (L.le_scanLimit _))]
      exact Bool.false_ne_true

/-- Every run of calls on a held chunk with the invariant, each with the
concurrent-mark flag of its moment, hands out the chunk's free slots lowest
first, one a call; leaves the others free; and keeps the owner's pointer exactly
while free slots remain. -/
theorem allocRun_takesLowestFree (phases : List Bool) (allocator : Allocator L.bitsPerWord)
    (held : allocator.chunkHeld = true) (invariant : ChunkInvariant colors allocator.chunk)
    (marks : true ∈ phases → MarksOnlyOwnField colors objMarkBlackInTable allocator.chunk.base
      allocator.chunk.slotSize allocator.chunk.slotNum) :
    let run := allocRun false colors objMarkBlackInTable phases allocator
    run.value.1 = ((freeSlots colors allocator.chunk).take phases.length).map
        (slotIndexToAddr allocator.chunk) ∧
      run.value.2.chunkHeld = decide (phases.length < (freeSlots colors allocator.chunk).length) ∧
      freeSlots colors run.value.2.chunk =
        (freeSlots colors allocator.chunk).drop phases.length := by
  induction phases generalizing allocator with
  | nil =>
    refine ⟨rfl, ?_, rfl⟩
    simp only [allocRun, Checked.value_pure, held, freeSlots_eq_cons invariant, List.length_nil,
      List.length_cons, Nat.zero_lt_succ, decide_True]
  | cons concurrentMarkPhase phases ih =>
    have contract := allocInChunk_contract colors objMarkBlackInTable concurrentMarkPhase
      allocator.chunk allocator.memory invariant fun phase => marks (phase ▸ List.mem_cons_self _ _)
    obtain ⟨taken, clearedIff⟩ := allocInChunk_takesLowestFree colors objMarkBlackInTable
      concurrentMarkPhase allocator.chunk allocator.memory invariant
      fun phase => marks (phase ▸ List.mem_cons_self _ _)
    obtain ⟨sameBase, sameSlotSize, sameSlotNum⟩ := contract.keepsGeometry
    rw [freeSlots_eq_cons invariant, List.tail_cons] at taken
    rw [freeSlots_eq_cons invariant]
    simp only [allocRun, held, ↓reduceIte, Checked.value_bind, Checked.value_pure,
      contract.returnsCursorSlot, List.length_cons, List.take_succ_cons, List.map_cons,
      List.drop_succ_cons]
    generalize allocInChunk false colors objMarkBlackInTable concurrentMarkPhase allocator.chunk
      allocator.memory = call at contract taken clearedIff sameBase sameSlotSize sameSlotNum ⊢
    generalize (List.range' (allocator.chunk.slotIndex + 1) _).filter _ = rest at taken ⊢
    cases cleared : call.value.chunkCleared
    · obtain ⟨addresses, restHeld, restFree⟩ := ih ⟨call.value.chunk, true, call.value.memory⟩ rfl
        (contract.keepsInvariant cleared) (contract.marksRest marks)
      simp only [Bool.not_false, addresses, restHeld, restFree, taken,
        slotIndexToAddr_congr sameBase sameSlotSize, Nat.add_lt_add_iff_right, and_self]
    · have empty : rest = [] := List.isEmpty_iff.mp (taken ▸ clearedIff ▸ cleared)
      simp [empty, taken]

end

theorem allocRun_takesLowestFree_gappyChunk16 :
    let run := allocRun false AllocColors.word32 markBlack32 [true, false, true]
      ⟨gappyChunk16, true, fun _ => 0⟩
    run.value.1 = ((freeSlots AllocColors.word32 gappyChunk16).take 3).map
        (slotIndexToAddr gappyChunk16) ∧
      run.value.2.chunkHeld = decide (3 < (freeSlots AllocColors.word32 gappyChunk16).length) ∧
      freeSlots AllocColors.word32 run.value.2.chunk =
        (freeSlots AllocColors.word32 gappyChunk16).drop 3 :=
  allocRun_takesLowestFree AllocColors.word32 markBlack32 [true, false, true]
    ⟨gappyChunk16, true, fun _ => 0⟩ rfl
    ⟨by decide, by decide, by decide, by decide, by decide, by decide, by decide⟩
    fun _ => markBlack32_marksOnlyOwnField

/-! ## The walk of allocated slots finds what the allocator handed out -/

section

variable (colors : AllocColors L)
  (objMarkBlackInTable : BitVec L.bitsPerWord → Nat → Table L.bitsPerWord →
    Table L.bitsPerWord)

/-- After every run of calls on a chunk whose owner keeps the invariant, the
walk of `next_alloc_slot_in_chunk` calls from slot `0`, given enough calls,
returns the address of every slot the run handed out and of every slot
allocated before it: no object the allocator hands out is missed. -/
theorem allocRun_walkFindsAllocated (phases : List Bool) (allocator : Allocator L.bitsPerWord)
    (invariant : AllocatorInvariant colors allocator)
    (marks : true ∈ phases → MarksOnlyOwnField colors objMarkBlackInTable allocator.chunk.base
      allocator.chunk.slotSize allocator.chunk.slotNum) (fuel : Nat)
    (colorBitsFit : L.scanLimit allocator.chunk.slotNum * L.colorBitsPerObj < 2 ^ 32)
    (enough : L.scanLimit allocator.chunk.slotNum < fuel) :
    let run := allocRun false colors objMarkBlackInTable phases allocator
    ∃ found, (allocatedSlotWalk colors fuel { run.value.2.chunk with slotIndex := 0 }).value =
        some found ∧ (∀ pObj ∈ run.value.1, pObj ∈ found) ∧
      ∀ slot < allocator.chunk.slotNum, slotIsAllocInTable colors allocator.chunk.table slot →
        slotIndexToAddr allocator.chunk slot ∈ found := by
  intro run
  have contract := allocRun_contract colors objMarkBlackInTable phases allocator invariant marks
  obtain ⟨sameBase, sameSlotSize, sameSlotNum⟩ := contract.keepsGeometry
  obtain ⟨slots, -, addresses, handedOut⟩ := contract.handsOutFreeSlots
  have walked := allocatedSlotWalk_eq colors fuel { run.value.2.chunk with slotIndex := 0 }
    (by rw [sameSlotNum]; exact L.scanLimit_le_maxSlotIndex colorBitsFit)
    (by dsimp only; rw [sameSlotNum]; omega)
  have inWalk : ∀ slot < allocator.chunk.slotNum,
      slotIsAllocInTable colors run.value.2.chunk.table slot →
      slotIndexToAddr allocator.chunk slot ∈
        ((List.range' 0 (L.scanLimit run.value.2.chunk.slotNum - 0)).filter
          (slotIsAllocInTable colors run.value.2.chunk.table)).map
            (slotIndexToAddr { run.value.2.chunk with slotIndex := 0 }) :=
    fun slot below allocated => List.mem_map.mpr ⟨slot, List.mem_filter.mpr
      ⟨List.mem_range'_1.mpr ⟨Nat.zero_le _, by
        have := L.le_scanLimit allocator.chunk.slotNum
        rw [sameSlotNum]
        omega⟩, allocated⟩, congrFun (slotIndexToAddr_congr sameBase sameSlotSize) slot⟩
  refine ⟨_, congrArg Checked.value walked, fun pObj member => ?_,
    fun slot below allocated => inWalk slot below (contract.keepsAllocated slot allocated)⟩
  rw [addresses] at member
  obtain ⟨slot, slotIn, rfl⟩ := List.mem_map.mp member
  obtain ⟨below, -, nowAllocated⟩ := handedOut slot slotIn
  exact inWalk slot below nowAllocated

end

theorem allocRun_walkFindsAllocated_gappyChunk16 :
    let run := allocRun false AllocColors.word32 markBlack32 [true, false]
      ⟨gappyChunk16, true, fun _ => 0⟩
    ∃ found, (allocatedSlotWalk AllocColors.word32 17
        { run.value.2.chunk with slotIndex := 0 }).value = some found ∧
      (∀ pObj ∈ run.value.1, pObj ∈ found) ∧
      ∀ slot < gappyChunk16.slotNum, slotIsAllocInTable AllocColors.word32 gappyChunk16.table slot →
        slotIndexToAddr gappyChunk16 slot ∈ found :=
  allocRun_walkFindsAllocated AllocColors.word32 markBlack32 [true, false]
    ⟨gappyChunk16, true, fun _ => 0⟩
    (by
      rw [AllocatorInvariant, if_pos rfl]
      exact ⟨by decide, by decide, by decide, by decide, by decide, by decide, by decide⟩)
    (fun _ => markBlack32_marksOnlyOwnField) 17 (by decide) (by decide)

end Sspace
end Drlvm
