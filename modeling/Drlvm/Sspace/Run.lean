import Drlvm.Sspace.Allocation

/-!
# Runs of allocations

The owner of a chunk calls `alloc_in_chunk` on its local chunk pointer once per
request, until a call clears the pointer.  Over every such run in the default
build the owner's chunk keeps the representation invariant, every request gets
the address of a slot that was free, no slot is handed out twice, and no
assertion fails but `assert(chunk->base)`.
-/

namespace Drlvm
namespace Sspace

variable {L : TableLayout}

/-- The owner's side of a chunk: the chunk, whether the owner's local chunk
pointer still points to it, and the heap bytes. -/
structure Allocator (w : Nat) where
  chunk : Chunk w
  chunkHeld : Bool
  memory : Memory w

/-- Modelled from the spec: the owner calls `alloc_in_chunk` once per request
while its local chunk pointer is non-null (the callers are not in src/), each
call with the concurrent-mark flag of its moment.  The run returns the addresses
handed out. -/
def allocRun (enableFreshChunkAlloc : Bool) (colors : AllocColors L)
    (objMarkBlackInTable : BitVec L.bitsPerWord → Nat → Table L.bitsPerWord →
      Table L.bitsPerWord) :
    List Bool → Allocator L.bitsPerWord →
      Checked (List (BitVec L.bitsPerWord) × Allocator L.bitsPerWord)
  | [], allocator => pure ([], allocator)
  | concurrentMarkPhase :: phases, allocator =>
      if allocator.chunkHeld then do
        let result ← allocInChunk enableFreshChunkAlloc colors objMarkBlackInTable
          concurrentMarkPhase allocator.chunk allocator.memory
        let rest ← allocRun enableFreshChunkAlloc colors objMarkBlackInTable phases
          ⟨result.chunk, !result.chunkCleared, result.memory⟩
        pure (result.pObj :: rest.1, rest.2)
      else pure ([], allocator)

/-- An owner whose pointer was cleared makes no more calls. -/
@[simp] theorem allocRun_released (enableFreshChunkAlloc : Bool) (colors : AllocColors L)
    (objMarkBlackInTable : BitVec L.bitsPerWord → Nat → Table L.bitsPerWord →
      Table L.bitsPerWord) (phases : List Bool) {allocator : Allocator L.bitsPerWord}
    (released : allocator.chunkHeld = false) :
    allocRun enableFreshChunkAlloc colors objMarkBlackInTable phases allocator =
      pure ([], allocator) := by
  cases phases <;> simp [allocRun, released]

/-- What the owner's side keeps: a held chunk has the representation invariant,
a released one was handed back full. -/
def AllocatorInvariant (colors : AllocColors L) (allocator : Allocator L.bitsPerWord) : Prop :=
  if allocator.chunkHeld then ChunkInvariant colors allocator.chunk
  else ChunkExhausted colors allocator.chunk

/-- What a run of allocations does: only `assert(chunk->base)` fails, once per
call, and only on a null base; the addresses handed out are those of distinct
slots of the chunk, each free before the run and allocated after it; no
allocated slot is freed; `alloc_num` counts the calls; and the owner's side
keeps its invariant. -/
structure RunContract (colors : AllocColors L) (allocator : Allocator L.bitsPerWord)
    (run : Checked (List (BitVec L.bitsPerWord) × Allocator L.bitsPerWord)) : Prop where
  onlyBaseAssertions : run.failed =
    if allocator.chunk.base = 0 then List.replicate run.value.1.length "chunk->base" else []
  handsOutFreeSlots : ∃ slots : List Nat, slots.Nodup ∧
    run.value.1 = slots.map (slotIndexToAddr allocator.chunk) ∧
    ∀ slot ∈ slots, slot < allocator.chunk.slotNum ∧
      slotIsAllocInTable colors allocator.chunk.table slot = false ∧
      slotIsAllocInTable colors run.value.2.chunk.table slot = true
  keepsAllocated : ∀ slot, slotIsAllocInTable colors allocator.chunk.table slot = true →
    slotIsAllocInTable colors run.value.2.chunk.table slot = true
  countsAllocations : run.value.2.chunk.allocNum = allocator.chunk.allocNum + run.value.1.length
  keepsGeometry : run.value.2.chunk.base = allocator.chunk.base ∧
    run.value.2.chunk.slotSize = allocator.chunk.slotSize ∧
    run.value.2.chunk.slotNum = allocator.chunk.slotNum
  keepsInvariant : AllocatorInvariant colors run.value.2

section

variable (colors : AllocColors L)
  (objMarkBlackInTable : BitVec L.bitsPerWord → Nat → Table L.bitsPerWord →
    Table L.bitsPerWord)

/-- A run with no request, or on a released chunk, changes nothing. -/
theorem runContract_pure {allocator : Allocator L.bitsPerWord}
    (invariant : AllocatorInvariant colors allocator) :
    RunContract colors allocator (pure ([], allocator)) :=
  ⟨by simp, ⟨[], List.nodup_nil, rfl, by simp⟩, fun _ allocated => allocated, rfl,
    ⟨rfl, rfl, rfl⟩, invariant⟩

/-- The owner's side after one call of `alloc_in_chunk` keeps its invariant. -/
theorem AllocContract.allocatorInvariant {chunk : Chunk L.bitsPerWord}
    {call : Checked (AllocResult L.bitsPerWord)} (contract : AllocContract colors chunk call) :
    AllocatorInvariant colors
      ⟨call.value.chunk, !call.value.chunkCleared, call.value.memory⟩ := by
  unfold AllocatorInvariant
  cases cleared : call.value.chunkCleared
  · exact contract.keepsInvariant cleared
  · exact contract.handsBackFull cleared

/-- The marking assumption of a run holds of the rest of the run: a call keeps
the chunk's geometry. -/
theorem AllocContract.marksRest {colors : AllocColors L}
    {objMarkBlackInTable : BitVec L.bitsPerWord → Nat → Table L.bitsPerWord →
      Table L.bitsPerWord}
    {chunk : Chunk L.bitsPerWord} {call : Checked (AllocResult L.bitsPerWord)}
    (contract : AllocContract colors chunk call) {phase : Bool} {phases : List Bool}
    (marks : true ∈ phase :: phases → MarksOnlyOwnField colors objMarkBlackInTable chunk.base
      chunk.slotSize chunk.slotNum) :
    true ∈ phases → MarksOnlyOwnField colors objMarkBlackInTable call.value.chunk.base
      call.value.chunk.slotSize call.value.chunk.slotNum := fun later => by
  obtain ⟨sameBase, sameSlotSize, sameSlotNum⟩ := contract.keepsGeometry
  rw [sameBase, sameSlotSize, sameSlotNum]
  exact marks (List.mem_cons_of_mem _ later)

theorem allocRun_contract (phases : List Bool) (allocator : Allocator L.bitsPerWord)
    (invariant : AllocatorInvariant colors allocator)
    (marks : true ∈ phases → MarksOnlyOwnField colors objMarkBlackInTable allocator.chunk.base
      allocator.chunk.slotSize allocator.chunk.slotNum) :
    RunContract colors allocator (allocRun false colors objMarkBlackInTable phases allocator) := by
  induction phases generalizing allocator with
  | nil => exact runContract_pure colors invariant
  | cons concurrentMarkPhase phases ih =>
      unfold allocRun
      by_cases held : allocator.chunkHeld = true
      · rw [if_pos held]
        rw [AllocatorInvariant, if_pos held] at invariant
        have contract := allocInChunk_contract colors objMarkBlackInTable concurrentMarkPhase
          allocator.chunk allocator.memory invariant fun phase =>
            marks (phase ▸ List.mem_cons_self _ _)
        obtain ⟨sameBase, sameSlotSize, sameSlotNum⟩ := contract.keepsGeometry
        have rest := ih _ contract.allocatorInvariant (contract.marksRest marks)
        obtain ⟨restBase, restSlotSize, restSlotNum⟩ := rest.keepsGeometry
        obtain ⟨slots, distinct, addresses, handedOut⟩ := rest.handsOutFreeSlots
        have cursorAllocated := contract.allocatesCursorSlot allocator.chunk.slotIndex
        simp only [decide_True, Bool.true_or] at cursorAllocated
        have grows : ∀ slot, slotIsAllocInTable colors allocator.chunk.table slot = true →
            slotIsAllocInTable colors
              (allocInChunk false colors objMarkBlackInTable concurrentMarkPhase allocator.chunk
                allocator.memory).value.chunk.table slot = true := fun slot allocated => by
          simp [contract.allocatesCursorSlot, allocated]
        refine ⟨?_, ⟨allocator.chunk.slotIndex :: slots, ?_, ?_, ?_⟩,
          fun slot allocated => rest.keepsAllocated slot (grows slot allocated), ?_,
          ⟨restBase.trans sameBase, restSlotSize.trans sameSlotSize,
            restSlotNum.trans sameSlotNum⟩, rest.keepsInvariant⟩
        · simp only [Checked.failed_bind, Checked.failed_pure, List.append_nil,
            contract.onlyBaseAssertion, rest.onlyBaseAssertions, Checked.value_bind,
            Checked.value_pure, List.length_cons, sameBase]
          split <;> simp [List.replicate_succ]
        · refine List.nodup_cons.mpr ⟨fun member => ?_, distinct⟩
          have := (handedOut _ member).2.1
          rw [cursorAllocated] at this
          exact Bool.false_ne_true this.symm
        · simp only [Checked.value_bind, Checked.value_pure, List.map_cons, addresses,
            contract.returnsCursorSlot, slotIndexToAddr_congr sameBase sameSlotSize]
        · intro slot member
          rcases List.mem_cons.mp member with rfl | later
          · exact ⟨invariant.cursorInRange, invariant.cursorFree,
              rest.keepsAllocated _ cursorAllocated⟩
          · obtain ⟨below, free, allocated⟩ := handedOut slot later
            refine ⟨sameSlotNum ▸ below, ?_, allocated⟩
            cases before : slotIsAllocInTable colors allocator.chunk.table slot
            · rfl
            · rwa [grows slot before] at free
        · simp only [Checked.value_bind, Checked.value_pure, List.length_cons,
            rest.countsAllocations, contract.countsAllocation]
          omega
      · rw [if_neg held]
        exact runContract_pure colors invariant

/-- One call of `alloc_in_chunk` in the default build keeps the representation
invariant of the chunk and meets its contract, and so does every run of calls
made by the chunk's owner. -/
theorem allocInChunk_keepsInvariant :
    (∀ concurrentMarkPhase chunk memory, ChunkInvariant colors chunk →
      MarksOnlyOwnField colors objMarkBlackInTable chunk.base chunk.slotSize chunk.slotNum →
      AllocContract colors chunk
        (allocInChunk false colors objMarkBlackInTable concurrentMarkPhase chunk memory)) ∧
    ∀ phases allocator, AllocatorInvariant colors allocator →
      MarksOnlyOwnField colors objMarkBlackInTable allocator.chunk.base
        allocator.chunk.slotSize allocator.chunk.slotNum →
      RunContract colors allocator (allocRun false colors objMarkBlackInTable phases allocator) :=
  ⟨fun concurrentMarkPhase chunk memory invariant marks => allocInChunk_contract colors
    objMarkBlackInTable concurrentMarkPhase chunk memory invariant fun _ => marks,
    fun phases allocator invariant marks =>
      allocRun_contract colors objMarkBlackInTable phases allocator invariant fun _ => marks⟩

end

/-! ## A marking that meets the assumption -/

/-- Marking an object black in the layout `TableLayout.word32`, for chunks at
`0x1000`: set the upper bit of the field of the object's slot. -/
def markBlack32 (pObj : BitVec 32) (slotSize : Nat) (table : Table 32) : Table 32 :=
  let slot := (pObj - 0x1000#32).toNat / slotSize
  table.write (slot / 16) (table (slot / 16) ||| 2#32 <<< (slot % 16 * 2))

/-- A mark colour for the layout `TableLayout.word32`: the upper bit of every
field, disjoint from the alloc colour of `AllocColors.word32`. -/
def markColors32 : AllocColors TableLayout.word32 :=
  ⟨2#32, 0xAAAAAAAA#32, by decide, by decide, by decide⟩

/-- `markBlack32` sets the mark colour in the field of the object's slot, as
`alloc_slot_in_table` sets a colour. -/
theorem markBlack32_eq (pObj : BitVec 32) (slotSize : Nat) (table : Table 32) :
    markBlack32 pObj slotSize table =
      (allocSlotInTable markColors32 table ((pObj - 0x1000#32).toNat / slotSize)).value := by
  simp only [markBlack32, allocSlotInTable, Checked.value_bind, Checked.value_pure,
    TableLayout.word32, markColors32]
  generalize (pObj - 0x1000#32).toNat / slotSize = slot
  rw [show slot * 2 / 32 = slot / 16 by omega, show slot * 2 % 32 = slot % 16 * 2 by omega]

/-- On the sixteen 16-byte slots at `0x1000`, the address decodes to its slot. -/
theorem slotOfAddr_0x1000 {slot : Nat} (below : slot < 16) :
    (0x1000#32 + BitVec.ofNat 32 16 * BitVec.ofNat 32 slot - 0x1000#32).toNat / 16 = slot := by
  rw [add_sub_cancel_left, BitVec.toNat_mul, BitVec.toNat_ofNat, BitVec.toNat_ofNat]
  omega

/-- `markBlack32` changes only the mark bit of the object's field on a chunk of
sixteen 16-byte slots at `0x1000`. -/
theorem markBlack32_marksOnlyOwnField :
    MarksOnlyOwnField AllocColors.word32 markBlack32 0x1000#32 16 16 := by
  show ∀ (table : Table 32) slot, slot < 16 → ChangesOnlyMarkBits AllocColors.word32 table
    (markBlack32 (0x1000#32 + BitVec.ofNat 32 16 * BitVec.ofNat 32 slot) 16 table) slot
  intro table slot below wordIndex bit differs
  rw [markBlack32_eq, slotOfAddr_0x1000 below] at differs
  obtain ⟨inField, markBit⟩ := changedBit_of_allocSlotInTable markColors32 table slot wordIndex
    bit differs
  have disjoint : ∀ k, ((1#32 : BitVec 32).getLsbD k && (2#32 : BitVec 32).getLsbD k) = false :=
    fun k => by
      rw [← BitVec.getLsbD_and, show (1#32 &&& 2#32 : BitVec 32) = 0#32 by decide,
        BitVec.getLsbD_zero]
  have allocBit := disjoint
    (bit - slot * TableLayout.word32.colorBitsPerObj % TableLayout.word32.bitsPerWord)
  rw [show (2#32 : BitVec 32).getLsbD _ = true from markBit, Bool.and_true] at allocBit
  exact ⟨inField, allocBit⟩

/-- Sixteen 16-byte slots at `0x1000` with slots `0`, `1`, `3` and `5` taken
and the cursor at slot `2`. -/
def gappyChunk16 : Chunk TableLayout.word32.bitsPerWord :=
  ⟨fun wordIndex => if wordIndex = 0 then 0x445#32 else 0, 0x1000#32, 16, 16, 2, 4,
    ⟨false, false, false, false⟩, by decide⟩

theorem allocInChunk_keepsInvariant_gappyChunk16 :
    ChunkInvariant AllocColors.word32 gappyChunk16 ∧
      AllocContract AllocColors.word32 gappyChunk16
        (allocInChunk false AllocColors.word32 markBlack32 true gappyChunk16 fun _ => 0) ∧
      RunContract AllocColors.word32 ⟨gappyChunk16, true, fun _ => 0⟩
        (allocRun false AllocColors.word32 markBlack32 [true, false, true]
          ⟨gappyChunk16, true, fun _ => 0⟩) :=
  have invariant : ChunkInvariant AllocColors.word32 gappyChunk16 :=
    ⟨by decide, by decide, by decide, by decide, by decide, by decide, by decide⟩
  ⟨invariant,
    (allocInChunk_keepsInvariant AllocColors.word32 markBlack32).1 true gappyChunk16
      (fun _ => 0) invariant markBlack32_marksOnlyOwnField,
    (allocInChunk_keepsInvariant AllocColors.word32 markBlack32).2 [true, false, true]
      ⟨gappyChunk16, true, fun _ => 0⟩ (by rw [AllocatorInvariant, if_pos rfl]; exact invariant)
      markBlack32_marksOnlyOwnField⟩

end Sspace
end Drlvm
