import Mathlib
import Drlvm.Sspace.FreshChunk

/-!
# Allocate-black

In the concurrent-mark phase `alloc_in_chunk` passes the new object to
`obj_mark_black_in_table` before returning it, so that a collector that has
already traced past the slot does not reclaim the object.  Neither the mark
colour nor `obj_mark_black_in_table` is in src/, so the mark test `marked` and
the marking function are parameters, with three assumptions: the marking marks
the object's slot (`MarksBlack`) and changes only mark bits of its field
(`MarksOnlyOwnField`), and `marked` reads only a slot's own field
(`ReadsOwnField`, which `slot_is_alloc_in_table` satisfies for every colour).

Under them one call of the default build marks the slot it returns and no other
(`allocInChunk_marksBlack`), and every run in the mark phase leaves marked
exactly the slots it handed out, besides those marked before
(`allocRun_marksBlack`).  The fresh-chunk build never marks
(`allocInChunk_fresh_skipsSlot`).
-/

namespace Drlvm
namespace Sspace

variable {L : TableLayout}

/-- Two colour fields share no bit. -/
theorem TableLayout.InField.unique {slot other wordIndex bit : Nat}
    (inSlot : L.InField slot wordIndex bit) (inOther : L.InField other wordIndex bit) :
    slot = other := by
  obtain ⟨word, lower, upper⟩ := inSlot
  obtain ⟨otherWord, otherLower, otherUpper⟩ := inOther
  rw [L.colorBitsIndex_div] at word otherWord
  rw [L.colorBitsIndex_mod] at lower upper otherLower otherUpper
  have sameField : slot % L.slotNumPerWordInTable = other % L.slotNumPerWordInTable :=
    L.field_eq_of_fieldBit_eq
      (show bit - slot % L.slotNumPerWordInTable * L.colorBitsPerObj < L.colorBitsPerObj by omega)
      (show bit - other % L.slotNumPerWordInTable * L.colorBitsPerObj < L.colorBitsPerObj by
        omega)
      (by omega)
  calc slot = L.slotNumPerWordInTable * (slot / L.slotNumPerWordInTable) +
        slot % L.slotNumPerWordInTable := (Nat.div_add_mod _ _).symm
    _ = L.slotNumPerWordInTable * (other / L.slotNumPerWordInTable) +
        other % L.slotNumPerWordInTable := by rw [← word, ← otherWord, sameField]
    _ = other := Nat.div_add_mod _ _

/-- A test on a slot of a table that reads only the slot's own colour field. -/
def ReadsOwnField (marked : Table L.bitsPerWord → Nat → Bool) : Prop :=
  ∀ before after slot, (∀ wordIndex bit, L.InField slot wordIndex bit →
    (after wordIndex).getLsbD bit = (before wordIndex).getLsbD bit) →
    marked after slot = marked before slot

/-- `obj_mark_black_in_table`, called on the address of one of the `slotNum`
slots of a chunk with this `base` and `slotSize`, marks that slot. -/
def MarksBlack (marked : Table L.bitsPerWord → Nat → Bool)
    (objMarkBlackInTable : BitVec L.bitsPerWord → Nat → Table L.bitsPerWord →
      Table L.bitsPerWord)
    (base : BitVec L.bitsPerWord) (slotSize slotNum : Nat) : Prop :=
  ∀ table slot, slot < slotNum → marked
    (objMarkBlackInTable (base + BitVec.ofNat _ slotSize * BitVec.ofNat _ slot) slotSize table)
    slot = true

/-- `slot_is_alloc_in_table` reads only the slot's own field, whatever the colour. -/
theorem slotIsAllocInTable_readsOwnField (colors : AllocColors L) :
    ReadsOwnField (slotIsAllocInTable colors) := by
  intro before after slot agree
  have sameBits :
      ∀ bit < L.colorBitsPerObj, L.fieldBit after slot bit = L.fieldBit before slot bit :=
    fun bit low => agree _ _ ⟨rfl, Nat.le_add_right _ _, Nat.add_lt_add_left low _⟩
  rw [Bool.eq_iff_iff, slotIsAllocInTable_iff, slotIsAllocInTable_iff]
  constructor <;> rintro ⟨bit, low, colorBit, set⟩
  · exact ⟨bit, low, colorBit, sameBits bit low ▸ set⟩
  · exact ⟨bit, low, colorBit, (sameBits bit low).symm ▸ set⟩

/-- A test that reads only a slot's own field sees no change to a slot whose
field was not written. -/
theorem ReadsOwnField.eq_of_inField {marked : Table L.bitsPerWord → Nat → Bool}
    (reads : ReadsOwnField marked) {before after : Table L.bitsPerWord} {changed slot : Nat}
    (frame : ∀ wordIndex bit, (after wordIndex).getLsbD bit ≠ (before wordIndex).getLsbD bit →
      L.InField changed wordIndex bit)
    (other : slot ≠ changed) : marked after slot = marked before slot :=
  reads before after slot fun wordIndex bit inSlot => by
    by_contra differs
    exact other (inSlot.unique (frame wordIndex bit differs))

section

variable (colors : AllocColors L)
  (objMarkBlackInTable : BitVec L.bitsPerWord → Nat → Table L.bitsPerWord →
    Table L.bitsPerWord)
  (marked : Table L.bitsPerWord → Nat → Bool)

/-- The step lemma: in the concurrent-mark phase one call of the default build
marks the slot it returns and leaves the mark of every other slot as it was. -/
theorem allocInChunk_marksBlack (reads : ReadsOwnField marked) (chunk : Chunk L.bitsPerWord)
    (memory : Memory L.bitsPerWord) (invariant : ChunkInvariant colors chunk)
    (marks : MarksOnlyOwnField colors objMarkBlackInTable chunk.base chunk.slotSize chunk.slotNum)
    (black : MarksBlack marked objMarkBlackInTable chunk.base chunk.slotSize chunk.slotNum)
    (nonNull : slotIndexToAddr chunk chunk.slotIndex ≠ 0) :
    marked (allocInChunk false colors objMarkBlackInTable true chunk memory).value.chunk.table
        chunk.slotIndex = true ∧
      ∀ slot, slot ≠ chunk.slotIndex →
        marked (allocInChunk false colors objMarkBlackInTable true chunk memory).value.chunk.table
          slot = marked chunk.table slot := by
  obtain ⟨table, tableEq, -, tableField, call⟩ := allocInChunk_false_eq colors
    objMarkBlackInTable true chunk memory invariant fun _ => marks
  have final : (allocInChunk false colors objMarkBlackInTable true chunk memory).value.chunk.table =
      table := by
    rw [call]
    rfl
  rw [final]
  refine ⟨?_, fun slot other => reads.eq_of_inField tableField other⟩
  rw [tableEq, if_pos (by simpa using nonNull)]
  exact black _ _ invariant.cursorInRange

/-- The run lemma, allocate-black over whole runs: in the concurrent-mark phase
every run of the default build leaves marked the distinct slots it handed out,
each free before the run, and the mark of every other slot as it was. -/
theorem allocRun_marksBlack (reads : ReadsOwnField marked) (requests : Nat)
    (allocator : Allocator L.bitsPerWord) (invariant : AllocatorInvariant colors allocator)
    (marks : MarksOnlyOwnField colors objMarkBlackInTable allocator.chunk.base
      allocator.chunk.slotSize allocator.chunk.slotNum)
    (black : MarksBlack marked objMarkBlackInTable allocator.chunk.base allocator.chunk.slotSize
      allocator.chunk.slotNum)
    (nonNull : ∀ slot < allocator.chunk.slotNum, slotIndexToAddr allocator.chunk slot ≠ 0) :
    let run := allocRun false colors objMarkBlackInTable (List.replicate requests true) allocator
    ∃ slots : List Nat, slots.Nodup ∧ run.value.1 = slots.map (slotIndexToAddr allocator.chunk) ∧
      (∀ slot ∈ slots, slotIsAllocInTable colors allocator.chunk.table slot = false ∧
        marked run.value.2.chunk.table slot = true) ∧
      ∀ slot, slot ∉ slots →
        marked run.value.2.chunk.table slot = marked allocator.chunk.table slot := by
  induction requests generalizing allocator with
  | zero => exact ⟨[], List.nodup_nil, rfl, by simp, fun _ _ => rfl⟩
  | succ requests ih =>
    by_cases held : allocator.chunkHeld = true
    case neg =>
      rw [allocRun_released _ _ _ _ (Bool.eq_false_iff.mpr held)]
      exact ⟨[], List.nodup_nil, rfl, by simp, fun _ _ => rfl⟩
    case pos =>
      rw [AllocatorInvariant, if_pos held] at invariant
      have contract := allocInChunk_contract colors objMarkBlackInTable true allocator.chunk
        allocator.memory invariant fun _ => marks
      obtain ⟨cursorMarked, othersKept⟩ := allocInChunk_marksBlack colors objMarkBlackInTable
        marked reads allocator.chunk allocator.memory invariant marks black
        (nonNull _ invariant.cursorInRange)
      obtain ⟨sameBase, sameSlotSize, sameSlotNum⟩ := contract.keepsGeometry
      have sameAddr := slotIndexToAddr_congr sameBase sameSlotSize
      obtain ⟨slots, distinct, addresses, handedOut, restKept⟩ := ih _ contract.allocatorInvariant
        (by rwa [sameBase, sameSlotSize, sameSlotNum])
        (by rwa [sameBase, sameSlotSize, sameSlotNum])
        (by rwa [sameAddr, sameSlotNum])
      have cursorAllocated := contract.allocatesCursorSlot allocator.chunk.slotIndex
      simp only [decide_True, Bool.true_or] at cursorAllocated
      have cursorNotLater : allocator.chunk.slotIndex ∉ slots := fun member => by
        rw [(handedOut _ member).1] at cursorAllocated
        exact Bool.false_ne_true cursorAllocated
      simp only [allocRun, held, ↓reduceIte, List.replicate_succ, Checked.value_bind,
        Checked.value_pure]
      refine ⟨allocator.chunk.slotIndex :: slots, List.nodup_cons.mpr ⟨cursorNotLater, distinct⟩,
        by rw [List.map_cons, addresses, contract.returnsCursorSlot, sameAddr],
        fun slot member => ?_, fun slot notHanded => ?_⟩
      · rcases List.mem_cons.mp member with rfl | later
        · exact ⟨invariant.cursorFree, (restKept _ cursorNotLater).trans cursorMarked⟩
        · have freeLater := (handedOut slot later).1
          rw [contract.allocatesCursorSlot, Bool.or_eq_false_iff] at freeLater
          exact ⟨freeLater.2, (handedOut slot later).2⟩
      · rw [List.mem_cons, not_or] at notHanded
        exact (restKept slot notHanded.2).trans (othersKept slot notHanded.1)

end

/-! ## A marking that meets the assumptions -/

/-- `markBlack32` marks the object's slot under the mark colour. -/
theorem markBlack32_marksBlack :
    MarksBlack (slotIsAllocInTable markColors32) markBlack32 0x1000#32 16 16 := by
  show ∀ (table : Table 32) slot, slot < 16 → slotIsAllocInTable markColors32
    (markBlack32 (0x1000#32 + BitVec.ofNat 32 16 * BitVec.ofNat 32 slot) 16 table) slot = true
  intro table slot below
  rw [markBlack32_eq, slotOfAddr_0x1000 below, slotIsAllocInTable_allocSlotInTable]
  simp

/-- An empty chunk of sixteen 16-byte slots at `0x1000`. -/
def emptyChunk16 : Chunk TableLayout.word32.bitsPerWord :=
  ⟨fun _ => 0, 0x1000#32, 16, 16, 0, 0, ⟨false, false, false, false⟩, by decide⟩

theorem allocRun_marksBlack_emptyChunk16 :
    let run := allocRun false AllocColors.word32 markBlack32 (List.replicate 3 true)
      ⟨emptyChunk16, true, fun _ => 0⟩
    ∃ slots : List Nat, slots.Nodup ∧
      run.value.1 = slots.map (slotIndexToAddr emptyChunk16) ∧
      (∀ slot ∈ slots, slotIsAllocInTable AllocColors.word32 emptyChunk16.table slot = false ∧
        slotIsAllocInTable markColors32 run.value.2.chunk.table slot = true) ∧
      ∀ slot, slot ∉ slots → slotIsAllocInTable markColors32 run.value.2.chunk.table slot =
        slotIsAllocInTable markColors32 emptyChunk16.table slot :=
  allocRun_marksBlack AllocColors.word32 markBlack32 (slotIsAllocInTable markColors32)
    (slotIsAllocInTable_readsOwnField markColors32) 3 ⟨emptyChunk16, true, fun _ => 0⟩
    (by
      rw [AllocatorInvariant, if_pos rfl]
      exact ⟨by decide, by decide, by decide, by decide, by decide, by decide, by decide⟩)
    markBlack32_marksOnlyOwnField markBlack32_marksBlack (by decide)

end Sspace
end Drlvm
