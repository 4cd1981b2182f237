import Drlvm.Sspace.FreeList

/-!
# What allocation writes

`alloc_in_chunk` writes three things: object bytes, with
`memset(p_obj, 0, slot_size)` when the chunk's status has `CHUNK_NEED_ZEROING`;
the colour table, through `alloc_slot_in_table` and, in the concurrent-mark
phase, `obj_mark_black_in_table`; and the chunk header's `slot_index`,
`alloc_num` and `status`.  The model keeps the table and the header as fields of
the chunk and the object bytes as `Memory`, so this module accounts for each
kind of write.  Over a run of calls on a held chunk it gives the object bytes in
closed form: with the flag set, the bytes of the slots handed out read zero and
every other byte keeps its value; without it they are untouched.  The flag stays
while the chunk is held, the status being reset to `CHUNK_USED | CHUNK_NORMAL`
only when the chunk is handed back.  The table changes only in bits of the
colour fields of the slots handed out, and the header keeps its geometry.  When
the chunk's slot area `[base, base + slot_num * slot_size)` does not wrap around
the address space, no object byte outside it changes.
-/

namespace Drlvm
namespace Sspace

variable {L : TableLayout}

/-- Without wrap-around, the address of a slot of the chunk is
`base + slot_size * slot` as a number. -/
theorem slotIndexToAddr_toNat {w : Nat} {chunk : Chunk w} {slot : Nat}
    (fits : chunk.base.toNat + chunk.slotNum * chunk.slotSize ≤ 2 ^ w)
    (inChunk : slot < chunk.slotNum) (positive : 0 < chunk.slotSize) :
    (slotIndexToAddr chunk slot).toNat = chunk.base.toNat + chunk.slotSize * slot ∧
      chunk.slotSize * slot + chunk.slotSize ≤ chunk.slotNum * chunk.slotSize := by
  have below : chunk.slotSize * slot + chunk.slotSize ≤ chunk.slotNum * chunk.slotSize := by
    rw [Nat.mul_comm, ← Nat.succ_mul]
    exact Nat.mul_le_mul_right _ inChunk
  have offset : (BitVec.ofNat w chunk.slotSize * BitVec.ofNat w slot).toNat =
      chunk.slotSize * slot := by
    rw [BitVec.toNat_mul, BitVec.toNat_ofNat, BitVec.toNat_ofNat, ← Nat.mul_mod,
      Nat.mod_eq_of_lt (by omega)]
  refine ⟨?_, below⟩
  rw [slotIndexToAddr, BitVec.toNat_add, offset, Nat.mod_eq_of_lt (by omega)]

/-- Without wrap-around, the bytes `memset` clears at a slot of the chunk lie in
the chunk's slot area. -/
theorem mem_slotArea {w : Nat} {chunk : Chunk w} {slot : Nat} {byte : BitVec w}
    (fits : chunk.base.toNat + chunk.slotNum * chunk.slotSize ≤ 2 ^ w)
    (inChunk : slot < chunk.slotNum)
    (within : (byte - slotIndexToAddr chunk slot).toNat < chunk.slotSize) :
    chunk.base.toNat ≤ byte.toNat ∧
      byte.toNat < chunk.base.toNat + chunk.slotNum * chunk.slotSize := by
  obtain ⟨address, below⟩ := slotIndexToAddr_toNat fits inChunk (by omega)
  rcases Nat.lt_or_ge byte.toNat (slotIndexToAddr chunk slot).toNat with before | after
  · rw [BitVec.toNat_sub_of_lt before] at within
    omega
  · rw [BitVec.toNat_sub_of_le after] at within
    omega

section

variable (colors : AllocColors L)
  (objMarkBlackInTable : BitVec L.bitsPerWord → Nat → Table L.bitsPerWord →
    Table L.bitsPerWord)

/-- One call clears the cursor slot's bytes when the chunk needs zeroing, and
leaves the status as it was while the chunk stays held. -/
theorem allocInChunk_memory (concurrentMarkPhase : Bool) (chunk : Chunk L.bitsPerWord)
    (memory : Memory L.bitsPerWord) (invariant : ChunkInvariant colors chunk)
    (marks : concurrentMarkPhase = true →
      MarksOnlyOwnField colors objMarkBlackInTable chunk.base chunk.slotSize chunk.slotNum) :
    let call := allocInChunk false colors objMarkBlackInTable concurrentMarkPhase chunk memory
    call.value.memory = (if chunk.status.needZeroing then
        memory.memsetZero (slotIndexToAddr chunk chunk.slotIndex) chunk.slotSize else memory) ∧
      (call.value.chunkCleared = false → call.value.chunk.status = chunk.status) := by
  obtain ⟨table, -, -, -, call⟩ := allocInChunk_false_eq colors objMarkBlackInTable
    concurrentMarkPhase chunk memory invariant marks
  simp only [call, Checked.value_bind, Checked.value_pure, true_and]
  exact fun kept => by simp [kept]

/-- The heap after a run of calls on a held chunk with the invariant, byte by
byte: zero in the slots handed out when the chunk needs zeroing, as before
everywhere else. -/
theorem allocRun_memory (phases : List Bool) (allocator : Allocator L.bitsPerWord)
    (held : allocator.chunkHeld = true) (invariant : ChunkInvariant colors allocator.chunk)
    (marks : true ∈ phases → MarksOnlyOwnField colors objMarkBlackInTable allocator.chunk.base
      allocator.chunk.slotSize allocator.chunk.slotNum) (byte : BitVec L.bitsPerWord) :
    (allocRun false colors objMarkBlackInTable phases allocator).value.2.memory byte =
      if allocator.chunk.status.needZeroing = true ∧
          ∃ slot ∈ (freeSlots colors allocator.chunk).take phases.length,
            (byte - slotIndexToAddr allocator.chunk slot).toNat < allocator.chunk.slotSize
      then 0 else allocator.memory byte := by
  induction phases generalizing allocator with
  | nil => simp [allocRun]
  | cons concurrentMarkPhase phases ih =>
    have firstMarks := fun phase : concurrentMarkPhase = true =>
      marks (phase ▸ List.mem_cons_self _ _)
    have contract := allocInChunk_contract colors objMarkBlackInTable concurrentMarkPhase
      allocator.chunk allocator.memory invariant firstMarks
    obtain ⟨taken, clearedIff⟩ := allocInChunk_takesLowestFree colors objMarkBlackInTable
      concurrentMarkPhase allocator.chunk allocator.memory invariant firstMarks
    obtain ⟨zeroed, sameStatus⟩ := allocInChunk_memory colors objMarkBlackInTable
      concurrentMarkPhase allocator.chunk allocator.memory invariant firstMarks
    rw [freeSlots_eq_cons invariant, List.tail_cons] at taken
    rw [freeSlots_eq_cons invariant, List.length_cons, List.take_succ_cons]
    simp only [allocRun, held, ↓reduceIte, Checked.value_bind, Checked.value_pure]
    generalize allocInChunk false colors objMarkBlackInTable concurrentMarkPhase allocator.chunk
      allocator.memory = call at contract taken clearedIff zeroed sameStatus ⊢
    obtain ⟨sameBase, sameSlotSize, -⟩ := contract.keepsGeometry
    generalize (List.range' (allocator.chunk.slotIndex + 1) _).filter _ = rest at taken ⊢
    cases cleared : call.value.chunkCleared
    · rw [Bool.not_false, ih ⟨call.value.chunk, true, call.value.memory⟩ rfl
        (contract.keepsInvariant cleared) (contract.marksRest marks)]
      simp only [sameStatus cleared, taken, slotIndexToAddr_congr sameBase sameSlotSize,
        sameSlotSize, zeroed, List.mem_cons, exists_eq_or_imp, ite_apply, Memory.memsetZero]
      cases allocator.chunk.status.needZeroing
      · simp
      · by_cases first : (byte - slotIndexToAddr allocator.chunk allocator.chunk.slotIndex).toNat <
          allocator.chunk.slotSize <;>
        simp only [first, true_and, true_or, false_or, ↓reduceIte, ite_self]
    · have empty : rest = [] := List.isEmpty_iff.mp (taken ▸ clearedIff ▸ cleared)
      simp only [Bool.not_true, allocRun_released, Checked.value_pure, empty, List.take_nil,
        List.mem_singleton, exists_eq_left, zeroed, ite_apply, Memory.memsetZero]
      cases allocator.chunk.status.needZeroing <;> simp

/-- The table after a run of calls on a held chunk with the invariant differs
from the table before only in bits of the colour fields of the slots handed
out. -/
theorem allocRun_changesOnlyHandedOutFields (phases : List Bool)
    (allocator : Allocator L.bitsPerWord) (held : allocator.chunkHeld = true)
    (invariant : ChunkInvariant colors allocator.chunk)
    (marks : true ∈ phases → MarksOnlyOwnField colors objMarkBlackInTable allocator.chunk.base
      allocator.chunk.slotSize allocator.chunk.slotNum) (wordIndex bit : Nat)
    (differs : ((allocRun false colors objMarkBlackInTable phases allocator).value.2.chunk.table
      wordIndex).getLsbD bit ≠ (allocator.chunk.table wordIndex).getLsbD bit) :
    ∃ slot ∈ (freeSlots colors allocator.chunk).take phases.length,
      L.InField slot wordIndex bit := by
  induction phases generalizing allocator with
  | nil => exact absurd rfl differs
  | cons concurrentMarkPhase phases ih =>
    have firstMarks := fun phase : concurrentMarkPhase = true =>
      marks (phase ▸ List.mem_cons_self _ _)
    have contract := allocInChunk_contract colors objMarkBlackInTable concurrentMarkPhase
      allocator.chunk allocator.memory invariant firstMarks
    obtain ⟨taken, -⟩ := allocInChunk_takesLowestFree colors objMarkBlackInTable
      concurrentMarkPhase allocator.chunk allocator.memory invariant firstMarks
    rw [freeSlots_eq_cons invariant, List.tail_cons] at taken
    rw [freeSlots_eq_cons invariant, List.length_cons, List.take_succ_cons]
    simp only [allocRun, held, ↓reduceIte, Checked.value_bind, Checked.value_pure] at differs
    generalize allocInChunk false colors objMarkBlackInTable concurrentMarkPhase allocator.chunk
      allocator.memory = call at contract taken differs
    by_cases first : (call.value.chunk.table wordIndex).getLsbD bit =
        (allocator.chunk.table wordIndex).getLsbD bit
    · rw [← first] at differs
      cases cleared : call.value.chunkCleared
      · rw [cleared, Bool.not_false] at differs
        obtain ⟨slot, handedOut, inField⟩ := ih ⟨call.value.chunk, true, call.value.memory⟩ rfl
          (contract.keepsInvariant cleared) (contract.marksRest marks) differs
        rw [taken] at handedOut
        exact ⟨slot, List.mem_cons_of_mem _ handedOut, inField⟩
      · rw [cleared, Bool.not_true, allocRun_released _ _ _ _ rfl] at differs
        exact absurd rfl differs
    · exact ⟨_, List.mem_cons_self _ _, contract.changesOnlyCursorField wordIndex bit first⟩

/-- What a run of allocations writes.  With `CHUNK_NEED_ZEROING` set, the object
bytes of the slots handed out (the lowest free ones, one a call) read zero and
every other byte keeps its value, and without it they are untouched; the table
changes only in bits of the colour fields of the slots handed out; the header
keeps `base`, `slot_size` and `slot_num`; and when the chunk's slot area does
not wrap around the address space, no object byte outside it changes. -/
theorem allocRun_writesOnlyHandedOutSlots (phases : List Bool)
    (allocator : Allocator L.bitsPerWord) (held : allocator.chunkHeld = true)
    (invariant : ChunkInvariant colors allocator.chunk)
    (marks : true ∈ phases → MarksOnlyOwnField colors objMarkBlackInTable allocator.chunk.base
      allocator.chunk.slotSize allocator.chunk.slotNum) :
    let run := allocRun false colors objMarkBlackInTable phases allocator
    let handedOut := (freeSlots colors allocator.chunk).take phases.length
    (∀ byte, run.value.2.memory byte =
      if allocator.chunk.status.needZeroing = true ∧
          ∃ slot ∈ handedOut,
            (byte - slotIndexToAddr allocator.chunk slot).toNat < allocator.chunk.slotSize
      then 0 else allocator.memory byte) ∧
    (∀ wordIndex bit, (run.value.2.chunk.table wordIndex).getLsbD bit ≠
        (allocator.chunk.table wordIndex).getLsbD bit →
      ∃ slot ∈ handedOut, L.InField slot wordIndex bit) ∧
    (run.value.2.chunk.base = allocator.chunk.base ∧
      run.value.2.chunk.slotSize = allocator.chunk.slotSize ∧
      run.value.2.chunk.slotNum = allocator.chunk.slotNum) ∧
    (allocator.chunk.base.toNat + allocator.chunk.slotNum * allocator.chunk.slotSize ≤
        2 ^ L.bitsPerWord →
      ∀ byte, (byte.toNat < allocator.chunk.base.toNat ∨
          allocator.chunk.base.toNat + allocator.chunk.slotNum * allocator.chunk.slotSize ≤
            byte.toNat) →
        run.value.2.memory byte = allocator.memory byte) := by
  have memory := allocRun_memory colors objMarkBlackInTable phases allocator held invariant marks
  refine ⟨memory, allocRun_changesOnlyHandedOutFields colors objMarkBlackInTable phases allocator
    held invariant marks,
    (allocRun_contract colors objMarkBlackInTable phases allocator
      (by rw [AllocatorInvariant, if_pos held]; exact invariant) marks).keepsGeometry,
    fun fits byte outside => ?_⟩
  rw [memory, if_neg]
  rintro ⟨-, slot, handedOut, within⟩
  have inChunk : slot < allocator.chunk.slotNum :=
    List.mem_range.mp (List.mem_filter.mp (List.mem_of_mem_take handedOut)).1
  have := mem_slotArea fits inChunk within
  omega

end

/-- The chunk of `gappyChunk16` with `CHUNK_NEED_ZEROING` set. -/
def zeroingChunk16 : Chunk TableLayout.word32.bitsPerWord :=
  { gappyChunk16 with status := ⟨false, false, false, true⟩ }

theorem allocRun_writesOnlyHandedOutSlots_zeroingChunk16 :
    let run := allocRun false AllocColors.word32 markBlack32 [true, false, true]
      ⟨zeroingChunk16, true, fun _ => 0xFF#8⟩
    let handedOut := (freeSlots AllocColors.word32 zeroingChunk16).take 3
    (∀ byte, run.value.2.memory byte =
      if zeroingChunk16.status.needZeroing = true ∧
          ∃ slot ∈ handedOut,
            (byte - slotIndexToAddr zeroingChunk16 slot).toNat < zeroingChunk16.slotSize
      then 0 else 0xFF#8) ∧
    (∀ wordIndex bit, (run.value.2.chunk.table wordIndex).getLsbD bit ≠
        (zeroingChunk16.table wordIndex).getLsbD bit →
      ∃ slot ∈ handedOut, TableLayout.word32.InField slot wordIndex bit) ∧
    (run.value.2.chunk.base = zeroingChunk16.base ∧
      run.value.2.chunk.slotSize = zeroingChunk16.slotSize ∧
      run.value.2.chunk.slotNum = zeroingChunk16.slotNum) ∧
    (zeroingChunk16.base.toNat + zeroingChunk16.slotNum * zeroingChunk16.slotSize ≤ 2 ^ 32 →
      ∀ byte, (byte.toNat < zeroingChunk16.base.toNat ∨
          zeroingChunk16.base.toNat + zeroingChunk16.slotNum * zeroingChunk16.slotSize ≤
            byte.toNat) →
        run.value.2.memory byte = 0xFF#8) :=
  allocRun_writesOnlyHandedOutSlots AllocColors.word32 markBlack32 [true, false, true]
    ⟨zeroingChunk16, true, fun _ => 0xFF#8⟩ rfl
    ⟨by decide, by decide, by decide, by decide, by decide, by decide, by decide⟩
    fun _ => markBlack32_marksOnlyOwnField

end Sspace
end Drlvm
