import Drlvm.Sspace.SlotScan

/-!
# Chunks and slot allocation

A chunk owned by one allocator: the header fields the allocation paths read
and write, `alloc_in_chunk` (the allocation fast path, in the default build and
in the build with `ENABLE_FRESH_CHUNK_ALLOC` defined) and
`next_alloc_slot_in_chunk` (the walk over allocated slots after sweeping).
-/

namespace Drlvm
namespace Sspace

/-- The flags of `chunk->status` that `alloc_in_chunk` tests or sets. -/
structure ChunkStatus where
  used : Bool
  normal : Bool
  fresh : Bool
  needZeroing : Bool
  deriving DecidableEq, Repr

/-- `CHUNK_USED | CHUNK_NORMAL`. -/
def ChunkStatus.usedNormal : ChunkStatus := ⟨true, true, false, false⟩

/-- The heap bytes the objects are made of, addressed by `POINTER_SIZE_INT`
values.  The chunk header and its colour table, which the code also keeps in
the heap, are the fields of `Chunk`. -/
abbrev Memory (w : Nat) := BitVec w → BitVec 8

/-- `memset(p, 0, size)`. -/
def Memory.memsetZero {w : Nat} (memory : Memory w) (p : BitVec w) (size : Nat) : Memory w :=
  fun address => if (address - p).toNat < size then 0 else memory address

/-- The fields of a `Chunk_Header` that the allocation paths use.  `slot_num`
is an `unsigned int`. -/
structure Chunk (w : Nat) where
  table : Table w
  base : BitVec w
  slotSize : Nat
  slotNum : Nat
  slotIndex : Nat
  allocNum : Nat
  status : ChunkStatus
  slotNumFits : slotNum < 2 ^ 32

/-- Modelled from the spec: `slot_index_to_addr` of `sspace_chunk.h` (not in
src/), the slot address "base + slot_index * slot_size". -/
def slotIndexToAddr {w : Nat} (chunk : Chunk w) (slotIndex : Nat) : BitVec w :=
  chunk.base + BitVec.ofNat w chunk.slotSize * BitVec.ofNat w slotIndex

/-- Slot addresses depend only on the chunk's base and slot size. -/
theorem slotIndexToAddr_congr {w : Nat} {chunk other : Chunk w} (sameBase : other.base = chunk.base)
    (sameSlotSize : other.slotSize = chunk.slotSize) :
    slotIndexToAddr other = slotIndexToAddr chunk := by
  funext slotIndex
  rw [slotIndexToAddr, slotIndexToAddr, sameBase, sameSlotSize]

/-- What one call of `alloc_in_chunk` leaves: the address it returns, the chunk
header, whether it cleared the caller's chunk pointer, and the heap bytes. -/
structure AllocResult (w : Nat) where
  pObj : BitVec w
  chunk : Chunk w
  chunkCleared : Bool
  memory : Memory w

variable {L : TableLayout}

/-- `alloc_in_chunk`.  `enableFreshChunkAlloc` selects the build with
`ENABLE_FRESH_CHUNK_ALLOC` defined; `objMarkBlackInTable` is the collector's
`obj_mark_black_in_table` (not in src/), and `concurrentMarkPhase` is
`gc_is_concurrent_mark_phase()`.  In the fresh-chunk build the `else` at line
194 governs only the allocate-black statement; the cursor is then always set by
`next_free_slot_index_in_table`, from the incremented `slot_index` on the fresh
path. -/
def allocInChunk (enableFreshChunkAlloc : Bool) (colors : AllocColors L)
    (objMarkBlackInTable : BitVec L.bitsPerWord → Nat → Table L.bitsPerWord →
      Table L.bitsPerWord)
    (concurrentMarkPhase : Bool) (chunk : Chunk L.bitsPerWord)
    (memory : Memory L.bitsPerWord) : Checked (AllocResult L.bitsPerWord) := do
  let slotIndex := chunk.slotIndex
  Checked.assert (chunk.allocNum < chunk.slotNum) "chunk->alloc_num < chunk->slot_num"
  let chunk := { chunk with allocNum := chunk.allocNum + 1 }
  Checked.assert (chunk.base != 0) "chunk->base"
  let pObj := chunk.base +
    BitVec.ofNat L.bitsPerWord chunk.slotSize * BitVec.ofNat L.bitsPerWord slotIndex
  Checked.assert (!slotIsAllocInTable colors chunk.table slotIndex)
    "!slot_is_alloc_in_table(table, slot_index)"
  let table ← allocSlotInTable colors chunk.table slotIndex
  let memory := if chunk.status.needZeroing then memory.memsetZero pObj chunk.slotSize
    else memory
  let freshPath := enableFreshChunkAlloc && chunk.status.fresh
  let slotIndex := if freshPath then slotIndex + 1 else slotIndex
  let chunk := if freshPath then
      { chunk with slotIndex := if slotIndex < chunk.slotNum then slotIndex else maxSlotIndex }
    else chunk
  let table := if !freshPath && pObj != 0 && concurrentMarkPhase then
      objMarkBlackInTable pObj chunk.slotSize table
    else table
  let next ← nextFreeSlotIndexInTable colors table slotIndex chunk.slotNum
  let chunk := { chunk with table := table, slotIndex := next }
  let chunkCleared := next == maxSlotIndex
  let chunk := if chunkCleared then { chunk with status := ChunkStatus.usedNormal } else chunk
  Checked.assert (chunkCleared || chunk.slotIndex < chunk.slotNum)
    "!chunk || chunk->slot_index < chunk->slot_num"
  pure ⟨pObj, chunk, chunkCleared, memory⟩

/-- The text of the assertion at lines 131-132 of `next_alloc_slot_in_chunk`. -/
def nextAllocSlotAssertion : String :=
  "(slot_index == MAX_SLOT_INDEX) || (slot_index < chunk->slot_num) && slot_is_alloc_in_table(table, slot_index)"

/-- `next_alloc_slot_in_chunk`: the address of the next allocated slot from the
cursor on, with the cursor moved past it, or `NULL`. -/
def nextAllocSlotInChunk (colors : AllocColors L) (chunk : Chunk L.bitsPerWord) :
    Checked (Option (BitVec L.bitsPerWord) × Chunk L.bitsPerWord) := do
  let table := chunk.table
  let slotIndex ← nextAllocSlotIndexInTable colors table chunk.slotIndex chunk.slotNum
  Checked.assert (slotIndex == maxSlotIndex ||
      slotIndex < chunk.slotNum && slotIsAllocInTable colors table slotIndex)
    nextAllocSlotAssertion
  if slotIndex == maxSlotIndex then pure (none, chunk)
  else pure (some (slotIndexToAddr chunk slotIndex), { chunk with slotIndex := slotIndex + 1 })

end Sspace
end Drlvm
