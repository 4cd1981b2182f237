import Drlvm.Sspace.Layout

/-!
# Colour tables

The colour table of a chunk and the table operations of `sspace_alloc.h`
that touch single slots: `slot_is_alloc_in_table`, `alloc_slot_in_table` and
`clear_free_slot_in_table`.  A slot is allocated when its colour field meets
the current alloc colour; the lemmas here reduce every such test to the bits
of one field.
-/

namespace Drlvm
namespace Sspace

/-- The colour table of a chunk, one machine word per index. -/
abbrev Table (w : Nat) := Nat → BitVec w

namespace Table

variable {w : Nat}

/-- `table[wordIndex] = word`. -/
def write (table : Table w) (wordIndex : Nat) (word : BitVec w) : Table w :=
  fun index => if index = wordIndex then word else table index

/-- `memset(table, 0, BYTES_PER_WORD * wordNum)`. -/
def memsetZero (table : Table w) (wordNum : Nat) : Table w :=
  fun index => if index < wordNum then 0 else table index

@[simp] theorem write_same (table : Table w) (wordIndex : Nat) (word : BitVec w) :
    table.write wordIndex word wordIndex = word := if_pos rfl

theorem write_ne (table : Table w) {wordIndex index : Nat} (word : BitVec w)
    (other : index ≠ wordIndex) : table.write wordIndex word index = table index :=
  if_neg other

end Table

/-- Some bit of a nonzero word is set. -/
theorem word_ne_zero_iff {w : Nat} {x : BitVec w} :
    x ≠ 0 ↔ ∃ i, x.getLsbD i = true := by
  constructor
  · intro nonzero
    by_contra none
    exact nonzero (BitVec.eq_of_getLsbD_eq fun i => by simpa using not_exists.mp none i)
  · rintro ⟨i, set⟩ rfl
    simp at set

/-- The alloc-colour globals `cur_alloc_color` and `cur_alloc_mask`, with the
facts the allocator relies on: the alloc colour is a nonzero value of one
field, and the mask carries it in every field of a word. -/
structure AllocColors (L : TableLayout) where
  curAllocColor : BitVec L.bitsPerWord
  curAllocMask : BitVec L.bitsPerWord
  colorPositive : 0 < curAllocColor.toNat
  colorFits : curAllocColor.toNat < 2 ^ L.colorBitsPerObj
  maskFields : ∀ field < L.slotNumPerWordInTable, ∀ bit < L.colorBitsPerObj,
    curAllocMask.getLsbD (field * L.colorBitsPerObj + bit) = curAllocColor.getLsbD bit

variable {L : TableLayout}

namespace AllocColors

variable (colors : AllocColors L)

theorem getLsbD_color_of_le {bit : Nat} (high : L.colorBitsPerObj ≤ bit) :
    colors.curAllocColor.getLsbD bit = false :=
  Nat.testBit_lt_two_pow
    (Nat.lt_of_lt_of_le colors.colorFits (Nat.pow_le_pow_right (by decide) high))

theorem exists_colorBit :
    ∃ bit < L.colorBitsPerObj, colors.curAllocColor.getLsbD bit = true := by
  obtain ⟨bit, set⟩ :=
    Nat.ne_zero_implies_bit_true (Nat.pos_iff_ne_zero.mp colors.colorPositive)
  refine ⟨bit, Nat.lt_of_not_le fun high => ?_, set⟩
  rw [← BitVec.getLsbD, colors.getLsbD_color_of_le high] at set
  exact Bool.false_ne_true set

end AllocColors

/-- Alloc colour `1` in the layout `TableLayout.word32`, with the mask that has
it in all sixteen fields. -/
def AllocColors.word32 : AllocColors TableLayout.word32 :=
  ⟨1#32, 0x55555555#32, by decide, by decide, by decide⟩

namespace TableLayout

variable (L)

theorem fieldBit_div (field : Nat) {bit : Nat} (low : bit < L.colorBitsPerObj) :
    (field * L.colorBitsPerObj + bit) / L.colorBitsPerObj = field := by
  rw [Nat.mul_comm, Nat.mul_add_div L.colorBitsPositive, Nat.div_eq_of_lt low, Nat.add_zero]

/-- The bits of the fields of two slots of one word do not overlap. -/
theorem field_eq_of_fieldBit_eq {field other bit otherBit : Nat}
    (low : bit < L.colorBitsPerObj) (otherLow : otherBit < L.colorBitsPerObj)
    (same : field * L.colorBitsPerObj + bit = other * L.colorBitsPerObj + otherBit) :
    field = other := by
  rw [← L.fieldBit_div field low, same, L.fieldBit_div other otherLow]

/-- A field of a word ends at or before the word's last bit. -/
theorem field_end_le {field : Nat} (inWord : field < L.slotNumPerWordInTable) :
    field * L.colorBitsPerObj + L.colorBitsPerObj ≤ L.bitsPerWord := by
  rw [L.bitsPerWord_eq, ← Nat.succ_mul]
  exact Nat.mul_le_mul_right _ inWord

/-- Fields in order lie a whole field apart. -/
theorem field_end_le_of_lt {field other : Nat} (before : field < other) :
    field * L.colorBitsPerObj + L.colorBitsPerObj ≤ other * L.colorBitsPerObj := by
  rw [← Nat.succ_mul]
  exact Nat.mul_le_mul_right _ before

end TableLayout

/-! ## The alloc-colour test -/

/-- The test `word & (cur_alloc_color << index)` that the slot scans make. -/
def colorMeets (colors : AllocColors L) (word : BitVec L.bitsPerWord) (index : Nat) : Bool :=
  (word &&& (colors.curAllocColor <<< index)) != 0

/-- A word meets the alloc colour at `index` exactly when a colour bit is set
in the field there. -/
theorem colorMeets_iff (colors : AllocColors L) (word : BitVec L.bitsPerWord) (index : Nat) :
    colorMeets colors word index = true ↔
      ∃ bit < L.colorBitsPerObj, colors.curAllocColor.getLsbD bit = true ∧
        word.getLsbD (index + bit) = true := by
  simp only [colorMeets, bne_iff_ne, ne_eq, ← ne_eq, word_ne_zero_iff,
    BitVec.getLsbD_and, BitVec.getLsbD_shiftLeft, Bool.and_eq_true, decide_eq_true_eq,
    Bool.not_eq_true', decide_eq_false_iff_not, Nat.not_lt]
  constructor
  · rintro ⟨i, wordBit, ⟨-, above⟩, colorBit⟩
    refine ⟨i - index, Nat.lt_of_not_le fun high => ?_, colorBit, by
      rwa [Nat.add_sub_cancel' above]⟩
    rw [colors.getLsbD_color_of_le high] at colorBit
    exact Bool.false_ne_true colorBit
  · rintro ⟨bit, -, colorBit, wordBit⟩
    exact ⟨index + bit, wordBit, ⟨BitVec.lt_of_getLsbD wordBit, Nat.le_add_right _ _⟩,
      by rwa [Nat.add_sub_cancel_left]⟩

@[simp] theorem colorMeets_zero (colors : AllocColors L) (index : Nat) :
    colorMeets colors 0 index = false := by
  simp [colorMeets]

/-- Every field of `cur_alloc_mask` meets the alloc colour. -/
theorem colorMeets_mask (colors : AllocColors L) {field : Nat}
    (inWord : field < L.slotNumPerWordInTable) :
    colorMeets colors colors.curAllocMask (field * L.colorBitsPerObj) = true := by
  obtain ⟨bit, low, colorBit⟩ := colors.exists_colorBit
  exact (colorMeets_iff ..).mpr
    ⟨bit, low, colorBit, by rw [colors.maskFields field inWord bit low, colorBit]⟩

/-- The colour shifted to one field sets no bit of another field. -/
theorem getLsbD_color_shift (colors : AllocColors L) {field other bit : Nat}
    (otherInWord : other < L.slotNumPerWordInTable) (low : bit < L.colorBitsPerObj) :
    (colors.curAllocColor <<< (field * L.colorBitsPerObj)).getLsbD
        (other * L.colorBitsPerObj + bit) =
      (decide (field = other) && colors.curAllocColor.getLsbD bit) := by
  have inWord := L.field_end_le otherInWord
  rw [BitVec.getLsbD_shiftLeft]
  rcases Nat.lt_trichotomy field other with before | rfl | after
  · have apart := L.field_end_le_of_lt before
    rw [colors.getLsbD_color_of_le (show L.colorBitsPerObj ≤
      other * L.colorBitsPerObj + bit - field * L.colorBitsPerObj by omega)]
    simp [show field ≠ other by omega]
  · simp [show field * L.colorBitsPerObj + bit < L.bitsPerWord by omega]
  · have apart := L.field_end_le_of_lt after
    simp [show other * L.colorBitsPerObj + bit < field * L.colorBitsPerObj by omega,
      show field ≠ other by omega]

/-- OR-ing the alloc colour into one field makes that field meet it and
leaves every other field's test as it was. -/
theorem colorMeets_or_color (colors : AllocColors L) (word : BitVec L.bitsPerWord)
    {field other : Nat} (otherInWord : other < L.slotNumPerWordInTable) :
    colorMeets colors (word ||| colors.curAllocColor <<< (field * L.colorBitsPerObj))
        (other * L.colorBitsPerObj) =
      (decide (field = other) || colorMeets colors word (other * L.colorBitsPerObj)) := by
  rw [Bool.eq_iff_iff, colorMeets_iff, Bool.or_eq_true, decide_eq_true_eq, colorMeets_iff]
  constructor
  · rintro ⟨bit, low, colorBit, wordBit⟩
    rw [BitVec.getLsbD_or, getLsbD_color_shift colors otherInWord low, Bool.or_eq_true,
      Bool.and_eq_true, decide_eq_true_eq] at wordBit
    rcases wordBit with wordBit | ⟨same, -⟩
    · exact .inr ⟨bit, low, colorBit, wordBit⟩
    · exact .inl same
  · rintro (rfl | ⟨bit, low, colorBit, wordBit⟩)
    · obtain ⟨bit, low, colorBit⟩ := colors.exists_colorBit
      refine ⟨bit, low, colorBit, ?_⟩
      simp [getLsbD_color_shift colors otherInWord low, colorBit]
    · exact ⟨bit, low, colorBit, by simp [wordBit]⟩

/-! ## Slot tests and updates -/

namespace TableLayout

/-- Bit `bit` of the colour field of slot `slot`, at the word and offset the
code computes for it. -/
def fieldBit (table : Table L.bitsPerWord) (slot bit : Nat) : Bool :=
  (table (slot * L.colorBitsPerObj / L.bitsPerWord)).getLsbD
    (slot * L.colorBitsPerObj % L.bitsPerWord + bit)

theorem fieldBit_eq (table : Table L.bitsPerWord) (slot bit : Nat) :
    L.fieldBit table slot bit =
      (table (slot / L.slotNumPerWordInTable)).getLsbD
        (slot % L.slotNumPerWordInTable * L.colorBitsPerObj + bit) := by
  rw [fieldBit, colorBitsIndex_div, colorBitsIndex_mod]

end TableLayout

/-- `slot_is_alloc_in_table`. -/
def slotIsAllocInTable (colors : AllocColors L) (table : Table L.bitsPerWord)
    (slotIndex : Nat) : Bool :=
  let colorBitsIndex := slotIndex * L.colorBitsPerObj
  let wordIndex := colorBitsIndex / L.bitsPerWord
  let indexInWord := colorBitsIndex % L.bitsPerWord
  colorMeets colors (table wordIndex) indexInWord

theorem slotIsAllocInTable_eq (colors : AllocColors L) (table : Table L.bitsPerWord)
    (slot : Nat) :
    slotIsAllocInTable colors table slot =
      colorMeets colors (table (slot / L.slotNumPerWordInTable))
        (slot % L.slotNumPerWordInTable * L.colorBitsPerObj) := by
  simp only [slotIsAllocInTable, L.colorBitsIndex_div, L.colorBitsIndex_mod]

/-- A slot is allocated exactly when a colour bit is set in its field. -/
theorem slotIsAllocInTable_iff (colors : AllocColors L) (table : Table L.bitsPerWord)
    (slot : Nat) :
    slotIsAllocInTable colors table slot = true ↔
      ∃ bit < L.colorBitsPerObj, colors.curAllocColor.getLsbD bit = true ∧
        L.fieldBit table slot bit = true := by
  rw [slotIsAllocInTable_eq, colorMeets_iff]
  simp only [L.fieldBit_eq]

/-- `alloc_slot_in_table`: OR the alloc colour into the slot's field. -/
def allocSlotInTable (colors : AllocColors L) (table : Table L.bitsPerWord)
    (slotIndex : Nat) : Checked (Table L.bitsPerWord) := do
  Checked.assert (!slotIsAllocInTable colors table slotIndex)
    "!slot_is_alloc_in_table(table, slot_index)"
  let colorBitsIndex := slotIndex * L.colorBitsPerObj
  let wordIndex := colorBitsIndex / L.bitsPerWord
  let indexInWord := colorBitsIndex % L.bitsPerWord
  pure (table.write wordIndex (table wordIndex ||| colors.curAllocColor <<< indexInWord))

/-- Allocating a slot turns exactly that slot to allocated. -/
theorem slotIsAllocInTable_allocSlotInTable (colors : AllocColors L)
    (table : Table L.bitsPerWord) (slot other : Nat) :
    slotIsAllocInTable colors (allocSlotInTable colors table slot).value other =
      (decide (slot = other) || slotIsAllocInTable colors table other) := by
  have otherInWord := Nat.mod_lt other L.slotNumPerWordInTable_pos
  simp only [allocSlotInTable, Checked.value_bind, Checked.value_pure,
    L.colorBitsIndex_div, L.colorBitsIndex_mod, slotIsAllocInTable_eq]
  by_cases sameWord : other / L.slotNumPerWordInTable = slot / L.slotNumPerWordInTable
  · rw [sameWord, Table.write_same, colorMeets_or_color colors _ otherInWord]
    congr 1
    apply decide_eq_decide.mpr
    constructor
    · intro sameField
      rw [← Nat.div_add_mod slot L.slotNumPerWordInTable, sameField, ← sameWord,
        Nat.div_add_mod]
    · rintro rfl
      rfl
  · rw [Table.write_ne _ _ sameWord]
    simp only [show slot ≠ other by rintro rfl; exact sameWord rfl, decide_False,
      Bool.false_or]

/-- `((POINTER_SIZE_INT)1 << n) - 1` has exactly the bits below `n`. -/
theorem getLsbD_lowMask {w n : Nat} (short : n < w) (i : Nat) :
    (((1 : BitVec w) <<< n) - 1).getLsbD i = decide (i < n) := by
  have pow : 2 ^ n < 2 ^ w := Nat.pow_lt_pow_right (by decide) short
  have one : 1 ≤ 2 ^ n := Nat.one_le_two_pow
  have value : (((1 : BitVec w) <<< n) - 1).toNat = 2 ^ n - 1 := by
    have oneBit : (1 : BitVec w).toNat = 1 := by
      simp [Nat.mod_eq_of_lt (Nat.lt_of_le_of_lt one pow)]
    rw [BitVec.toNat_sub, BitVec.toNat_shiftLeft, oneBit, Nat.shiftLeft_eq, Nat.one_mul,
      Nat.mod_eq_of_lt pow, show 2 ^ w - 1 + 2 ^ n = 2 ^ n - 1 + 2 ^ w by omega,
      Nat.add_mod_right, Nat.mod_eq_of_lt (by omega)]
  rw [BitVec.getLsbD, value, Nat.testBit_two_pow_sub_one]

namespace TableLayout

/-- `clear_free_slot_in_table`: zero the whole words below the ceiling, then
the fields below it in the last, partial word. -/
def clearFreeSlotInTable (table : Table L.bitsPerWord) (ceilingSlotIndex : Nat) :
    Checked (Table L.bitsPerWord) := do
  Checked.assert (ceilingSlotIndex != 0 && ceilingSlotIndex != maxSlotIndex)
    "ceiling_slot_index && ceiling_slot_index != MAX_SLOT_INDEX"
  let indexWordNum := ceilingSlotIndex / L.slotNumPerWordInTable
  let table := table.memsetZero indexWordNum
  let bitsNeedClear := ceilingSlotIndex % L.slotNumPerWordInTable
  if bitsNeedClear = 0 then pure table
  else
    let bitMask :=
      ~~~(((1 : BitVec L.bitsPerWord) <<< (bitsNeedClear * L.colorBitsPerObj)) - 1)
    pure (table.write indexWordNum (table indexWordNum &&& bitMask))

/-- The cleared table, word by word: each word is computed from the same word
before. -/
theorem clearFreeSlotInTable_apply (table : Table L.bitsPerWord) (ceiling index : Nat) :
    (L.clearFreeSlotInTable table ceiling).value index =
      if index < ceiling / L.slotNumPerWordInTable then 0
      else if index = ceiling / L.slotNumPerWordInTable ∧
          ceiling % L.slotNumPerWordInTable ≠ 0 then
        table index &&& ~~~(((1 : BitVec L.bitsPerWord) <<<
          (ceiling % L.slotNumPerWordInTable * L.colorBitsPerObj)) - 1)
      else table index := by
  simp only [clearFreeSlotInTable, Checked.value_bind]
  split
  · simp_all [Table.memsetZero]
  · by_cases last : index = ceiling / L.slotNumPerWordInTable
    · subst last
      simp_all [Table.memsetZero]
    · simp_all [Table.memsetZero, Table.write_ne]

theorem clearFreeSlotInTable_failed (table : Table L.bitsPerWord) {ceiling : Nat}
    (positive : 0 < ceiling) (belowMax : ceiling < maxSlotIndex) :
    (L.clearFreeSlotInTable table ceiling).failed = [] := by
  have holds : (ceiling != 0 && ceiling != maxSlotIndex) = true := by
    simp [Nat.pos_iff_ne_zero.mp positive, Nat.ne_of_lt belowMax]
  simp only [clearFreeSlotInTable, Checked.failed_bind, Checked.failed_assert, holds,
    if_true, List.nil_append]
  split <;> rfl

/-- Each field bit of the cleared table: zero below the ceiling, unchanged
from it on. -/
theorem fieldBit_clearFreeSlotInTable (table : Table L.bitsPerWord) (ceiling slot : Nat)
    {bit : Nat} (low : bit < L.colorBitsPerObj) :
    L.fieldBit (L.clearFreeSlotInTable table ceiling).value slot bit =
      (decide (ceiling ≤ slot) && L.fieldBit table slot bit) := by
  have positive := L.slotNumPerWordInTable_pos
  have order := @lt_iff_div_mod slot ceiling _ positive
  have inWord := L.field_end_le (Nat.mod_lt slot positive)
  rw [fieldBit_eq, fieldBit_eq, clearFreeSlotInTable_apply]
  split
  · simp [show ¬ceiling ≤ slot from fun above =>
      Nat.not_lt.mpr above (order.mpr (.inl ‹_›))]
  · split
    · rename_i lastWord
      obtain ⟨same, -⟩ := lastWord
      have fieldsLt := Nat.mod_lt ceiling positive
      have maskShort := L.field_end_le fieldsLt
      have := L.colorBitsPositive
      rw [BitVec.getLsbD_and, BitVec.getLsbD_not, getLsbD_lowMask (by omega)]
      by_cases cleared : slot % L.slotNumPerWordInTable < ceiling % L.slotNumPerWordInTable
      · have := L.field_end_le_of_lt cleared
        simp [show ¬ceiling ≤ slot from fun above =>
          Nat.not_lt.mpr above (order.mpr (.inr ⟨same, cleared⟩)), show
          slot % L.slotNumPerWordInTable * L.colorBitsPerObj + bit <
            ceiling % L.slotNumPerWordInTable * L.colorBitsPerObj by omega]
      · have := Nat.mul_le_mul_right L.colorBitsPerObj (Nat.le_of_not_lt cleared)
        have kept : ceiling ≤ slot := Nat.le_of_not_lt fun below => by
          rcases order.mp below with before | ⟨-, inside⟩ <;> omega
        simp [kept, show ¬slot % L.slotNumPerWordInTable * L.colorBitsPerObj + bit <
            ceiling % L.slotNumPerWordInTable * L.colorBitsPerObj by omega,
          show slot % L.slotNumPerWordInTable * L.colorBitsPerObj + bit <
            L.bitsPerWord by omega]
    · rename_i before notLast
      have kept : ceiling ≤ slot := Nat.le_of_not_lt fun below => by
        rcases order.mp below with earlier | ⟨same, inside⟩
        · exact before earlier
        · exact notLast ⟨same, by omega⟩
      simp [kept]

/-- After the clear a slot is allocated exactly when it lies at or past the
ceiling and was allocated before. -/
theorem slotIsAllocInTable_clearFreeSlotInTable (colors : AllocColors L)
    (table : Table L.bitsPerWord) (ceiling slot : Nat) :
    slotIsAllocInTable colors (L.clearFreeSlotInTable table ceiling).value slot =
      (decide (ceiling ≤ slot) && slotIsAllocInTable colors table slot) := by
  rw [Bool.eq_iff_iff, Bool.and_eq_true, decide_eq_true_iff, slotIsAllocInTable_iff,
    slotIsAllocInTable_iff]
  constructor
  · rintro ⟨bit, low, colorBit, set⟩
    rw [fieldBit_clearFreeSlotInTable _ _ _ low, Bool.and_eq_true, decide_eq_true_iff] at set
    exact ⟨set.1, bit, low, colorBit, set.2⟩
  · rintro ⟨above, bit, low, colorBit, set⟩
    refine ⟨bit, low, colorBit, ?_⟩
    rw [fieldBit_clearFreeSlotInTable _ _ _ low, set, decide_eq_true above, Bool.true_and]

/-- `clear_free_slot_in_table(table, ceiling)` frees every slot below the
ceiling under any alloc colour, keeps every bit of every field from the ceiling
on, and neither reads nor writes a table word at index `⌈ceiling /
SLOT_NUM_PER_WORD_IN_TABLE⌉` or above. -/
theorem clearFreeSlotInTable_effects (table : Table L.bitsPerWord) (ceiling : Nat) :
    let cleared := (L.clearFreeSlotInTable table ceiling).value
    let firstUntouched :=
      (ceiling + L.slotNumPerWordInTable - 1) / L.slotNumPerWordInTable
    (∀ slot < ceiling, (∀ bit < L.colorBitsPerObj, L.fieldBit cleared slot bit = false) ∧
        ∀ colors : AllocColors L, slotIsAllocInTable colors cleared slot = false) ∧
      (∀ slot, ceiling ≤ slot → ∀ bit < L.colorBitsPerObj,
        L.fieldBit cleared slot bit = L.fieldBit table slot bit) ∧
      (∀ index, firstUntouched ≤ index → cleared index = table index) ∧
      (∀ other : Table L.bitsPerWord, (∀ index < firstUntouched, other index = table index) →
        ∀ index < firstUntouched,
          (L.clearFreeSlotInTable other ceiling).value index = cleared index) := by
  intro cleared firstUntouched
  have positive := L.slotNumPerWordInTable_pos
  refine ⟨fun slot below => ?_, fun slot above bit low => ?_, fun index untouched => ?_,
    fun other agree index read => ?_⟩
  · exact ⟨fun bit low => by simp [cleared, fieldBit_clearFreeSlotInTable _ _ _ low,
        Nat.not_le.mpr below], fun colors => by
      simp [cleared, slotIsAllocInTable_clearFreeSlotInTable, Nat.not_le.mpr below]⟩
  · simp [cleared, fieldBit_clearFreeSlotInTable _ _ _ low, above]
  · have past := (ceilDiv_le_iff positive).mp untouched
    have whole := Nat.div_add_mod' ceiling L.slotNumPerWordInTable
    have notBelow : ¬index < ceiling / L.slotNumPerWordInTable :=
      Nat.not_lt.mpr (Nat.div_le_of_le_mul (Nat.mul_comm index _ ▸ past))
    have notLast : ¬(index = ceiling / L.slotNumPerWordInTable ∧
        ceiling % L.slotNumPerWordInTable ≠ 0) := by
      rintro ⟨rfl, nonzero⟩
      omega
    simp only [cleared, clearFreeSlotInTable_apply, notBelow, notLast, if_false]
  · simp only [cleared, clearFreeSlotInTable_apply, agree index read]

end TableLayout

end Sspace
end Drlvm
