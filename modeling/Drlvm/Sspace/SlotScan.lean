import Drlvm.Sspace.ColorTable

/-!
# Slot scans

`next_free_slot_index_in_table` and `next_alloc_slot_index_in_table` walk a
colour table one word at a time.  They skip a whole word that cannot hold what
they look for (a word equal to `cur_alloc_mask`, a zero word) and scan the
other words field by field.  Both return exactly what the per-slot search
`firstSlot` returns over the slots of the words they read: the word skip is
invisible.
-/

namespace Drlvm
namespace Sspace

variable {L : TableLayout}

/-! ## Scanning one colour word -/

/-- The `while (index < BITS_PER_WORD)` loop of the two colour-word scans: the
first of `index`, `index + COLOR_BITS_PER_OBJ`, ... below `BITS_PER_WORD` that
passes `test`, or `MAX_SLOT_INDEX`.  `fuel` bounds the iterations. -/
def colorWordScan (L : TableLayout) (test : Nat → Bool) : (fuel index : Nat) → Nat
  | 0, _ => maxSlotIndex
  | fuel + 1, index =>
      if index < L.bitsPerWord then
        if test index then index else colorWordScan L test fuel (index + L.colorBitsPerObj)
      else maxSlotIndex

/-- `next_free_index_in_color_word`. -/
def nextFreeIndexInColorWord (colors : AllocColors L) (word : BitVec L.bitsPerWord)
    (index : Nat) : Nat :=
  colorWordScan L (fun index => !colorMeets colors word index) L.bitsPerWord index

/-- `next_alloc_index_in_color_word`. -/
def nextAllocIndexInColorWord (colors : AllocColors L) (word : BitVec L.bitsPerWord)
    (index : Nat) : Nat :=
  colorWordScan L (colorMeets colors word) L.bitsPerWord index

/-- Started at a field, the colour-word loop finds the first field from there
on whose offset passes the test. -/
theorem colorWordScan_field (test : Nat → Bool) {fuel field : Nat}
    (enough : L.slotNumPerWordInTable - field ≤ fuel) :
    colorWordScan L test fuel (field * L.colorBitsPerObj) =
      ((firstSlot (fun other => test (other * L.colorBitsPerObj)) field
        L.slotNumPerWordInTable).map (· * L.colorBitsPerObj)).getD maxSlotIndex := by
  induction fuel generalizing field with
  | zero => rw [firstSlot_of_le (by omega)]; rfl
  | succ fuel ih =>
      by_cases inWord : field < L.slotNumPerWordInTable
      · have := L.field_end_le inWord
        have := L.colorBitsPositive
        rw [colorWordScan, if_pos (by omega), firstSlot_of_lt inWord]
        split
        · rfl
        · rw [← Nat.succ_mul, ih (by omega)]
      · have := Nat.mul_le_mul_right L.colorBitsPerObj (Nat.le_of_not_lt inWord)
        rw [colorWordScan, if_neg (by rw [L.bitsPerWord_eq]; omega),
          firstSlot_of_le (Nat.le_of_not_lt inWord)]
        rfl

/-! ## Scanning the table -/

/-- `composed_slot_index`. -/
def composedSlotIndex (L : TableLayout) (wordIndex indexInWord : Nat) : Nat :=
  let colorBitsIndex := wordIndex * L.bitsPerWord + indexInWord
  colorBitsIndex / L.colorBitsPerObj

theorem composedSlotIndex_field (wordIndex field : Nat) :
    composedSlotIndex L wordIndex (field * L.colorBitsPerObj) =
      wordIndex * L.slotNumPerWordInTable + field := by
  rw [composedSlotIndex, L.bitsPerWord_eq, ← Nat.mul_assoc, ← Nat.add_mul,
    Nat.mul_div_cancel _ L.colorBitsPositive]

/-- Slot `field` of word `wordIndex` is tested at that word and field. -/
theorem slotIsAllocInTable_field (colors : AllocColors L) (table : Table L.bitsPerWord)
    (wordIndex : Nat) {field : Nat} (inWord : field < L.slotNumPerWordInTable) :
    slotIsAllocInTable colors table (wordIndex * L.slotNumPerWordInTable + field) =
      colorMeets colors (table wordIndex) (field * L.colorBitsPerObj) := by
  have positive := L.slotNumPerWordInTable_pos
  rw [slotIsAllocInTable_eq, Nat.mul_comm, Nat.mul_add_div positive,
    Nat.mul_add_mod, Nat.div_eq_of_lt inWord, Nat.mod_eq_of_lt inWord, Nat.add_zero]

/-- The search over the slots of one word, shifted to that word's fields. -/
theorem firstSlot_shift (p : Nat → Bool) (base first last : Nat) :
    firstSlot p (base + first) (base + last) =
      (firstSlot (fun slot => p (base + slot)) first last).map (base + ·) := by
  simp only [firstSlot, Nat.add_sub_add_left, ← List.map_add_range', List.find?_map]
  rfl

/-- The `for (; word_index <= max_word_index; ++word_index, index_in_word = 0)`
loop of the two table scans: `skip` is the whole-word test, `inWord` the
colour-word scan, and `fuel` the number of words left. -/
def scanTableWords (L : TableLayout) (table : Table L.bitsPerWord)
    (skip : BitVec L.bitsPerWord → Bool) (inWord : BitVec L.bitsPerWord → Nat → Nat) :
    (fuel wordIndex indexInWord : Nat) → Checked Nat
  | 0, _, _ => pure maxSlotIndex
  | fuel + 1, wordIndex, indexInWord =>
      if skip (table wordIndex) then scanTableWords L table skip inWord fuel (wordIndex + 1) 0
      else
        let indexInWord := inWord (table wordIndex) indexInWord
        if indexInWord ≠ maxSlotIndex then do
          Checked.assert (indexInWord < L.bitsPerWord) "index_in_word < BITS_PER_WORD"
          pure (composedSlotIndex L wordIndex indexInWord)
        else scanTableWords L table skip inWord fuel (wordIndex + 1) 0

/-- The word loop is the per-slot search for `p` over the words it reads, when
`inWord` finds the first field satisfying `p` and `skip` holds only of words
without one. -/
theorem scanTableWords_eq (table : Table L.bitsPerWord) (skip : BitVec L.bitsPerWord → Bool)
    (inWord : BitVec L.bitsPerWord → Nat → Nat) (p : Nat → Bool)
    (inWordFinds : ∀ wordIndex field, field < L.slotNumPerWordInTable →
      inWord (table wordIndex) (field * L.colorBitsPerObj) =
        ((firstSlot (fun other => p (wordIndex * L.slotNumPerWordInTable + other)) field
          L.slotNumPerWordInTable).map (· * L.colorBitsPerObj)).getD maxSlotIndex)
    (skipSound : ∀ wordIndex, skip (table wordIndex) = true →
      ∀ field < L.slotNumPerWordInTable, p (wordIndex * L.slotNumPerWordInTable + field) = false)
    (fuel wordIndex : Nat) {field : Nat} (inWordStart : field < L.slotNumPerWordInTable) :
    scanTableWords L table skip inWord fuel wordIndex (field * L.colorBitsPerObj) =
      pure ((firstSlot p (wordIndex * L.slotNumPerWordInTable + field)
        ((wordIndex + fuel) * L.slotNumPerWordInTable)).getD maxSlotIndex) := by
  induction fuel generalizing wordIndex field with
  | zero =>
      rw [Nat.add_zero, firstSlot_of_le (Nat.le_add_right _ _)]
      rfl
  | succ fuel ih =>
      have positive := L.slotNumPerWordInTable_pos
      have next : scanTableWords L table skip inWord fuel (wordIndex + 1) 0 =
          pure ((firstSlot p (wordIndex * L.slotNumPerWordInTable + L.slotNumPerWordInTable)
            ((wordIndex + fuel + 1) * L.slotNumPerWordInTable)).getD maxSlotIndex) := by
        have := ih (wordIndex + 1) positive
        rwa [Nat.zero_mul, Nat.add_zero, Nat.succ_mul, Nat.add_right_comm wordIndex 1 fuel]
          at this
      have upper : wordIndex * L.slotNumPerWordInTable + L.slotNumPerWordInTable ≤
          (wordIndex + fuel + 1) * L.slotNumPerWordInTable := by
        rw [← Nat.succ_mul]
        exact Nat.mul_le_mul_right _ (by omega)
      rw [← Nat.add_assoc, firstSlot_split (by omega) upper, firstSlot_shift]
      simp only [scanTableWords]
      split
      · rename_i skipped
        rw [firstSlot_eq_none_iff.mpr fun other _ inside =>
          skipSound wordIndex skipped other inside]
        exact next
      · rw [inWordFinds wordIndex field inWordStart]
        cases found : firstSlot (fun other => p (wordIndex * L.slotNumPerWordInTable + other))
            field L.slotNumPerWordInTable with
        | none =>
            simp only [Option.map_none', Option.getD_none, ne_eq, not_true_eq_false, if_false,
              Option.none_or]
            exact next
        | some other =>
            obtain ⟨-, inside, -⟩ := firstSlot_eq_some_iff.mp found
            have := L.field_end_le inside
            have := L.colorBitsPositive
            have := L.bitsPerWordFits
            simp only [Option.map_some', Option.getD_some, Option.or_some]
            rw [if_pos (by unfold maxSlotIndex; omega), composedSlotIndex_field]
            simp [Checked.assert, show other * L.colorBitsPerObj < L.bitsPerWord by omega]
            rfl

/-- `next_free_slot_index_in_table`: the slot after `slotIndex` whose field
does not meet the alloc colour, skipping every word equal to `cur_alloc_mask`. -/
def nextFreeSlotIndexInTable (colors : AllocColors L) (table : Table L.bitsPerWord)
    (slotIndex slotNum : Nat) : Checked Nat := do
  Checked.assert (slotIsAllocInTable colors table slotIndex)
    "slot_is_alloc_in_table(table, slot_index)"
  let slotIndex := slotIndex + 1
  let maxWordIndex := (slotNum - 1) * L.colorBitsPerObj / L.bitsPerWord
  let colorBitsIndex := slotIndex * L.colorBitsPerObj
  let wordIndex := colorBitsIndex / L.bitsPerWord
  let indexInWord := colorBitsIndex % L.bitsPerWord
  scanTableWords L table (· == colors.curAllocMask) (nextFreeIndexInColorWord colors)
    (maxWordIndex + 1 - wordIndex) wordIndex indexInWord

/-- `next_alloc_slot_index_in_table`: the first slot from `slotIndex` on whose
field meets the alloc colour, skipping every zero word. -/
def nextAllocSlotIndexInTable (colors : AllocColors L) (table : Table L.bitsPerWord)
    (slotIndex slotNum : Nat) : Checked Nat :=
  let maxWordIndex := (slotNum - 1) * L.colorBitsPerObj / L.bitsPerWord
  let colorBitsIndex := slotIndex * L.colorBitsPerObj
  let wordIndex := colorBitsIndex / L.bitsPerWord
  let indexInWord := colorBitsIndex % L.bitsPerWord
  scanTableWords L table (· == 0) (nextAllocIndexInColorWord colors)
    (maxWordIndex + 1 - wordIndex) wordIndex indexInWord

/-- The loop of both table scans, started at a slot, searches from that slot to
`scanLimit`. -/
theorem scanTableWords_from (table : Table L.bitsPerWord) (skip : BitVec L.bitsPerWord → Bool)
    (inWord : BitVec L.bitsPerWord → Nat → Nat) (p : Nat → Bool)
    (inWordFinds : ∀ wordIndex field, field < L.slotNumPerWordInTable →
      inWord (table wordIndex) (field * L.colorBitsPerObj) =
        ((firstSlot (fun other => p (wordIndex * L.slotNumPerWordInTable + other)) field
          L.slotNumPerWordInTable).map (· * L.colorBitsPerObj)).getD maxSlotIndex)
    (skipSound : ∀ wordIndex, skip (table wordIndex) = true →
      ∀ field < L.slotNumPerWordInTable, p (wordIndex * L.slotNumPerWordInTable + field) = false)
    (first slotNum : Nat) :
    scanTableWords L table skip inWord
        ((slotNum - 1) * L.colorBitsPerObj / L.bitsPerWord + 1 -
          first * L.colorBitsPerObj / L.bitsPerWord)
        (first * L.colorBitsPerObj / L.bitsPerWord) (first * L.colorBitsPerObj % L.bitsPerWord) =
      pure ((firstSlot p first (L.scanLimit slotNum)).getD maxSlotIndex) := by
  have positive := L.slotNumPerWordInTable_pos
  have whole := Nat.div_add_mod' first L.slotNumPerWordInTable
  rw [L.colorBitsIndex_div, L.colorBitsIndex_div, L.colorBitsIndex_mod,
    scanTableWords_eq table skip inWord p inWordFinds skipSound _ _ (Nat.mod_lt _ positive),
    whole, TableLayout.scanLimit, L.colorBitsIndex_div, Nat.mul_comm L.slotNumPerWordInTable]
  by_cases reached : first / L.slotNumPerWordInTable ≤
      (slotNum - 1) / L.slotNumPerWordInTable + 1
  · rw [Nat.add_sub_cancel' reached]
  · have late := Nat.mul_le_mul_right L.slotNumPerWordInTable (Nat.le_of_not_le reached)
    rw [Nat.sub_eq_zero_of_le (Nat.le_of_not_le reached), Nat.add_zero,
      firstSlot_of_le (by omega), firstSlot_of_le (by omega)]

/-- A colour-word scan testing the alloc colour finds the first field, from the
start on, whose slot passes the same test. -/
theorem colorWordScan_slots (colors : AllocColors L) (table : Table L.bitsPerWord)
    (wordIndex : Nat) (test : Bool → Bool) (field : Nat) :
    colorWordScan L (fun index => test (colorMeets colors (table wordIndex) index))
        L.bitsPerWord (field * L.colorBitsPerObj) =
      ((firstSlot (fun other => test (slotIsAllocInTable colors table
          (wordIndex * L.slotNumPerWordInTable + other))) field
        L.slotNumPerWordInTable).map (· * L.colorBitsPerObj)).getD maxSlotIndex := by
  have enough : L.slotNumPerWordInTable - field ≤ L.bitsPerWord := by
    rw [L.bitsPerWord_eq]
    exact Nat.le_trans (Nat.sub_le _ _) (Nat.le_mul_of_pos_right _ L.colorBitsPositive)
  rw [colorWordScan_field _ enough]
  congr 2
  exact firstSlot_congr fun other _ inside => by rw [slotIsAllocInTable_field colors table _ inside]

/-- `next_free_slot_index_in_table` checks that its start slot is allocated and
returns the first free slot of `[slotIndex + 1, scanLimit)`. -/
theorem nextFreeSlotIndexInTable_eq_assert (colors : AllocColors L) (table : Table L.bitsPerWord)
    (slotIndex slotNum : Nat) :
    nextFreeSlotIndexInTable colors table slotIndex slotNum =
      Checked.assert (slotIsAllocInTable colors table slotIndex)
          "slot_is_alloc_in_table(table, slot_index)" >>= fun _ =>
        pure ((firstSlot (fun slot => !slotIsAllocInTable colors table slot) (slotIndex + 1)
          (L.scanLimit slotNum)).getD maxSlotIndex) := by
  rw [nextFreeSlotIndexInTable]
  congr 1
  funext
  exact scanTableWords_from table _ _ _
    (fun wordIndex field _ => colorWordScan_slots colors table wordIndex (! ·) field)
    (fun wordIndex skipped field inWord => by
      rw [slotIsAllocInTable_field colors table wordIndex inWord, beq_iff_eq.mp skipped,
        colorMeets_mask colors inWord, Bool.not_true]) _ _

/-- `next_free_slot_index_in_table` from an allocated slot returns the first
free slot of `[slotIndex + 1, scanLimit)`, and fails no assertion. -/
theorem nextFreeSlotIndexInTable_eq (colors : AllocColors L) (table : Table L.bitsPerWord)
    (slotIndex slotNum : Nat) (allocated : slotIsAllocInTable colors table slotIndex = true) :
    nextFreeSlotIndexInTable colors table slotIndex slotNum =
      pure ((firstSlot (fun slot => !slotIsAllocInTable colors table slot) (slotIndex + 1)
        (L.scanLimit slotNum)).getD maxSlotIndex) := by
  rw [nextFreeSlotIndexInTable_eq_assert, allocated, Checked.assert_true_bind]

/-- `next_alloc_slot_index_in_table` returns the first allocated slot of
`[slotIndex, scanLimit)`. -/
theorem nextAllocSlotIndexInTable_eq (colors : AllocColors L) (table : Table L.bitsPerWord)
    (slotIndex slotNum : Nat) :
    nextAllocSlotIndexInTable colors table slotIndex slotNum =
      pure ((firstSlot (slotIsAllocInTable colors table) slotIndex
        (L.scanLimit slotNum)).getD maxSlotIndex) :=
  scanTableWords_from table _ _ _ (fun wordIndex field _ =>
    colorWordScan_slots colors table wordIndex id field) (fun wordIndex skipped field inWord => by
      rw [slotIsAllocInTable_field colors table wordIndex inWord, beq_iff_eq.mp skipped,
        colorMeets_zero]) _ _

/-- The word-skipping scans return what the per-slot search returns over the
slots of the words they read, `[slotIndex + 1, scanLimit)` for the free scan
and `[slotIndex, scanLimit)` for the alloc scan, and fail no assertion. -/
theorem slotScans_eq_firstSlot (colors : AllocColors L) (table : Table L.bitsPerWord)
    (slotNum : Nat) :
    (∀ slotIndex, slotIsAllocInTable colors table slotIndex = true →
      nextFreeSlotIndexInTable colors table slotIndex slotNum =
        pure ((firstSlot (fun slot => !slotIsAllocInTable colors table slot) (slotIndex + 1)
          (L.scanLimit slotNum)).getD maxSlotIndex)) ∧
      ∀ slotIndex, nextAllocSlotIndexInTable colors table slotIndex slotNum =
        pure ((firstSlot (slotIsAllocInTable colors table) slotIndex
          (L.scanLimit slotNum)).getD maxSlotIndex) :=
  ⟨fun slotIndex => nextFreeSlotIndexInTable_eq colors table slotIndex slotNum,
    fun slotIndex => nextAllocSlotIndexInTable_eq colors table slotIndex slotNum⟩

end Sspace
end Drlvm
