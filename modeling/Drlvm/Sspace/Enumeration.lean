import Drlvm.Sspace.Allocation

/-!
# Walking the allocated slots

`next_alloc_slot_in_chunk` returns the next allocated slot of a chunk from its
cursor on and moves the cursor past it, or returns `NULL`.  The walk that calls
it until `NULL` returns the allocated slots of every table word the chunk
covers, in order, and so also those of the fields past `slot_num` in the last
word: for each of these it returns an address past the chunk and the assertion
at lines 131-132 fails.
-/

namespace Drlvm
namespace Sspace

variable {L : TableLayout}

/-- When the colour bits of the words a chunk's scans read fit in 32 bits, so
do the slot indices: none of them is `MAX_SLOT_INDEX`. -/
theorem TableLayout.scanLimit_le_maxSlotIndex {slotNum : Nat}
    (colorBitsFit : L.scanLimit slotNum * L.colorBitsPerObj < 2 ^ 32) :
    L.scanLimit slotNum ≤ maxSlotIndex := by
  have := L.lt_two_pow_of_mul_lt colorBitsFit
  unfold maxSlotIndex
  omega

/-- One call of `next_alloc_slot_in_chunk`, when the slots the scan reads have
indices below `MAX_SLOT_INDEX`: `NULL` when no slot from the cursor on is
allocated, and otherwise the first allocated one, with the assertion failing
exactly when that slot lies past `slot_num`. -/
theorem nextAllocSlotInChunk_eq (colors : AllocColors L) (chunk : Chunk L.bitsPerWord)
    (bounded : L.scanLimit chunk.slotNum ≤ maxSlotIndex) :
    nextAllocSlotInChunk colors chunk =
      match firstSlot (slotIsAllocInTable colors chunk.table) chunk.slotIndex
          (L.scanLimit chunk.slotNum) with
      | none => pure (none, chunk)
      | some slot => ⟨(some (slotIndexToAddr chunk slot), { chunk with slotIndex := slot + 1 }),
          if slot < chunk.slotNum then [] else [nextAllocSlotAssertion]⟩ := by
  rw [nextAllocSlotInChunk, nextAllocSlotIndexInTable_eq]
  cases found : firstSlot (slotIsAllocInTable colors chunk.table) chunk.slotIndex
      (L.scanLimit chunk.slotNum) with
  | none => simp
  | some slot =>
      obtain ⟨-, inside, allocated, -⟩ := firstSlot_eq_some_iff.mp found
      have notMax : (slot == maxSlotIndex) = false := beq_eq_false_iff_ne.mpr (by omega)
      simp only [Option.getD_some, notMax, allocated, Bool.and_true, Bool.false_or,
        Checked.pure_bind, Bool.false_eq_true, ↓reduceIte]
      exact Checked.ext rfl (by by_cases below : slot < chunk.slotNum <;> simp [below])

/-- Modelled from the spec: the walk over a chunk's allocated slots, calling
`next_alloc_slot_in_chunk` until it returns `NULL` (its callers are not in
src/), with at most `fuel` calls; `none` when the fuel runs out first. -/
def allocatedSlotWalk (colors : AllocColors L) :
    Nat → Chunk L.bitsPerWord → Checked (Option (List (BitVec L.bitsPerWord)))
  | 0, _ => pure none
  | fuel + 1, chunk => do
      let step ← nextAllocSlotInChunk colors chunk
      match step.1 with
      | none => pure (some [])
      | some pObj => do
          let rest ← allocatedSlotWalk colors fuel step.2
          pure (rest.map (pObj :: ·))

/-- The slots from `first` up to `last` at which `p` holds start at the first
one. -/
theorem filter_range'_of_firstSlot {p : Nat → Bool} {first last slot : Nat}
    (found : firstSlot p first last = some slot) :
    (List.range' first (last - first)).filter p =
      slot :: (List.range' (slot + 1) (last - (slot + 1))).filter p := by
  obtain ⟨lower, upper, holds, before⟩ := firstSlot_eq_some_iff.mp found
  rw [show last - first = (last - (slot + 1) + 1) + (slot - first) by omega,
    ← List.range'_append_1, List.filter_append, show first + (slot - first) = slot by omega,
    List.range'_succ, List.filter_cons_of_pos holds,
    List.filter_eq_nil_iff.mpr fun other member => ?_, List.nil_append]
  rw [List.mem_range'_1] at member
  simp [before other member.1 (by omega)]

/-- The walk with enough fuel returns the allocated slots of every table word
the chunk covers, from the cursor on and in order, and fails the assertion of
lines 131-132 once for each of them that lies past `slot_num`. -/
theorem allocatedSlotWalk_eq (colors : AllocColors L) (fuel : Nat) (chunk : Chunk L.bitsPerWord)
    (bounded : L.scanLimit chunk.slotNum ≤ maxSlotIndex)
    (enough : L.scanLimit chunk.slotNum - chunk.slotIndex < fuel) :
    allocatedSlotWalk colors fuel chunk =
      ⟨some (((List.range' chunk.slotIndex (L.scanLimit chunk.slotNum - chunk.slotIndex)).filter
          (slotIsAllocInTable colors chunk.table)).map (slotIndexToAddr chunk)),
        (((List.range' chunk.slotIndex (L.scanLimit chunk.slotNum - chunk.slotIndex)).filter
          (slotIsAllocInTable colors chunk.table)).filter (chunk.slotNum ≤ ·)).map
            fun _ => nextAllocSlotAssertion⟩ := by
  induction fuel generalizing chunk with
  | zero => omega
  | succ fuel ih =>
      rw [allocatedSlotWalk, nextAllocSlotInChunk_eq colors chunk bounded]
      cases found : firstSlot (slotIsAllocInTable colors chunk.table) chunk.slotIndex
          (L.scanLimit chunk.slotNum) with
      | none =>
          rw [List.filter_eq_nil_iff.mpr fun slot member => by
            rw [List.mem_range'_1] at member
            simp [firstSlot_eq_none_iff.mp found slot member.1 (by omega)]]
          rfl
      | some slot =>
          obtain ⟨lower, inside, -, -⟩ := firstSlot_eq_some_iff.mp found
          have rest := ih { chunk with slotIndex := slot + 1 } bounded (by simp; omega)
          dsimp only at rest
          rw [filter_range'_of_firstSlot found]
          apply Checked.ext
          · simp only [Checked.value_bind, rest, Checked.value_pure, Option.map_some']
            rfl
          · simp only [Checked.failed_bind, Checked.value_bind, rest, Checked.failed_pure,
              List.append_nil]
            by_cases below : slot < chunk.slotNum
            · simp [below]
            · simp [below, Nat.le_of_not_lt below]

/-- The walk over a chunk the allocator handed back full, started at any slot of
the chunk, returns every slot up to the end of the last table word, and fails
the assertion of lines 131-132 once for each field past `slot_num`. -/
theorem allocatedSlotWalk_of_exhausted (colors : AllocColors L) {chunk : Chunk L.bitsPerWord}
    (exhausted : ChunkExhausted colors chunk) (first fuel : Nat) (start : first ≤ chunk.slotNum)
    (colorBitsFit : L.scanLimit chunk.slotNum * L.colorBitsPerObj < 2 ^ 32)
    (enough : L.scanLimit chunk.slotNum - first < fuel) :
    allocatedSlotWalk colors fuel { chunk with slotIndex := first } =
      ⟨some ((List.range' first (L.scanLimit chunk.slotNum - first)).map (slotIndexToAddr chunk)),
        List.replicate (L.scanLimit chunk.slotNum - chunk.slotNum) nextAllocSlotAssertion⟩ := by
  have allAllocated : (List.range' first (L.scanLimit chunk.slotNum - first)).filter
      (slotIsAllocInTable colors chunk.table) =
      List.range' first (L.scanLimit chunk.slotNum - first) :=
    List.filter_eq_self.mpr fun slot member => by
      rw [List.mem_range'_1] at member
      exact exhausted.allAllocated slot (by omega)
  have := L.le_scanLimit chunk.slotNum
  rw [allocatedSlotWalk_eq colors fuel { chunk with slotIndex := first }
    (L.scanLimit_le_maxSlotIndex colorBitsFit) enough]
  refine Checked.ext (by simp only [allAllocated]; rfl) ?_
  dsimp only
  rw [allAllocated, show L.scanLimit chunk.slotNum - first =
      (L.scanLimit chunk.slotNum - chunk.slotNum) + (chunk.slotNum - first) by omega,
    ← List.range'_append_1, List.filter_append, Nat.add_sub_cancel' start,
    List.filter_eq_nil_iff.mpr fun slot member => ?_,
    List.filter_eq_self.mpr fun slot member => ?_, List.nil_append, List.map_const',
    List.length_range']
  all_goals
    rw [List.mem_range'_1] at member
    simp only [decide_eq_true_eq, Nat.not_le]
    omega

/-- A chunk of one slot as the allocator hands it back: its table word carries
the alloc colour in all sixteen fields. -/
def fullOneSlotChunk : Chunk TableLayout.word32.bitsPerWord :=
  ⟨fun _ => 0x55555555#32, 0x1000#32, 16, 1, maxSlotIndex, 1, ChunkStatus.usedNormal, by decide⟩

theorem allocatedSlotWalk_of_exhausted_fullOneSlotChunk :
    allocatedSlotWalk AllocColors.word32 17 { fullOneSlotChunk with slotIndex := 0 } =
      ⟨some ((List.range' 0 (TableLayout.word32.scanLimit 1 - 0)).map
          (slotIndexToAddr fullOneSlotChunk)),
        List.replicate (TableLayout.word32.scanLimit 1 - 1) nextAllocSlotAssertion⟩ :=
  allocatedSlotWalk_of_exhausted AllocColors.word32
    ⟨by decide, rfl, rfl, rfl⟩ 0 17 (by decide) (by decide) (by decide)

/-- The walk over the full one-slot chunk from slot `0` returns sixteen
addresses, all but the first past the chunk, and fails the assertion of lines
131-132 fifteen times. -/
theorem allocatedSlotWalk_fullOneSlotChunk :
    (allocatedSlotWalk AllocColors.word32 17 { fullOneSlotChunk with slotIndex := 0 }).value =
        some ((List.range 16).map fun slot => 0x1000#32 + 16#32 * BitVec.ofNat 32 slot) ∧
      (allocatedSlotWalk AllocColors.word32 17 { fullOneSlotChunk with slotIndex := 0 }).failed =
        List.replicate 15 nextAllocSlotAssertion := by
  decide

end Sspace
end Drlvm
