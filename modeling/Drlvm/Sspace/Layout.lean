import Mathlib
import Drlvm.Checked

/-!
# Colour-table layout

A chunk of the mark-sweep space keeps one colour field of
`COLOR_BITS_PER_OBJ` bits per slot, packed into table words of
`BITS_PER_WORD` bits (`sspace_alloc.h`).  This module fixes the layout
constants and the arithmetic that takes a slot to its word and bit offset,
and the per-slot search that the word-skipping scans are compared with.

The code computes slot and bit indices in `unsigned int`; the model computes
them exactly, over `Nat`.  The two agree while the colour bits involved fit in
32 bits, which the allocation invariant carries as a bound on the chunk's
geometry; the module `Unsigned` translates the functions with the wrap and
proves the agreement.
-/

namespace Drlvm
namespace Sspace

/-- Modelled from the spec: `MAX_SLOT_INDEX`, the "exhausted" cursor sentinel
of `sspace_chunk.h` (not in src/), taken as the largest `unsigned int`. -/
def maxSlotIndex : Nat := 0xFFFFFFFF

/-- The compile-time layout of a colour table: `BITS_PER_WORD` bits in a
table word and `COLOR_BITS_PER_OBJ` colour bits for each slot. -/
structure TableLayout where
  bitsPerWord : Nat
  colorBitsPerObj : Nat
  bitsPerWordPositive : 0 < bitsPerWord
  colorBitsPositive : 0 < colorBitsPerObj
  colorBitsDvd : colorBitsPerObj ∣ bitsPerWord
  bitsPerWordFits : bitsPerWord < 2 ^ 32

namespace TableLayout

variable (L : TableLayout)

/-- `SLOT_NUM_PER_WORD_IN_TABLE`. -/
def slotNumPerWordInTable : Nat := L.bitsPerWord / L.colorBitsPerObj

theorem bitsPerWord_eq :
    L.bitsPerWord = L.slotNumPerWordInTable * L.colorBitsPerObj :=
  (Nat.div_mul_cancel L.colorBitsDvd).symm

theorem slotNumPerWordInTable_pos : 0 < L.slotNumPerWordInTable :=
  Nat.div_pos (Nat.le_of_dvd L.bitsPerWordPositive L.colorBitsDvd) L.colorBitsPositive

/-- The table word that holds the colour field of a slot. -/
theorem colorBitsIndex_div (slot : Nat) :
    slot * L.colorBitsPerObj / L.bitsPerWord = slot / L.slotNumPerWordInTable := by
  rw [L.bitsPerWord_eq, Nat.mul_div_mul_right _ _ L.colorBitsPositive]

/-- The bit offset of a slot's colour field inside its table word. -/
theorem colorBitsIndex_mod (slot : Nat) :
    slot * L.colorBitsPerObj % L.bitsPerWord =
      slot % L.slotNumPerWordInTable * L.colorBitsPerObj := by
  rw [L.bitsPerWord_eq, Nat.mul_mod_mul_right]

/-- Slot counts whose colour bits fit in an `unsigned int` fit in one. -/
theorem lt_two_pow_of_mul_lt {slotNum : Nat} (fits : slotNum * L.colorBitsPerObj < 2 ^ 32) :
    slotNum < 2 ^ 32 :=
  Nat.lt_of_le_of_lt (Nat.le_mul_of_pos_right _ L.colorBitsPositive) fits

/-- `SLOT_NUM_PER_WORD_IN_TABLE * (max_word_index + 1)`: the slots whose fields
lie in the table words `0 .. max_word_index` that the scans of a chunk of
`slotNum` slots read. -/
def scanLimit (slotNum : Nat) : Nat :=
  L.slotNumPerWordInTable *
    ((slotNum - 1) * L.colorBitsPerObj / L.bitsPerWord + 1)

theorem le_scanLimit (slotNum : Nat) : slotNum ≤ L.scanLimit slotNum := by
  rw [scanLimit, colorBitsIndex_div, Nat.mul_succ]
  have := Nat.div_add_mod (slotNum - 1) L.slotNumPerWordInTable
  have := Nat.mod_lt (slotNum - 1) L.slotNumPerWordInTable_pos
  omega

/-- A layout the code admits: 32-bit table words and two colour bits a slot. -/
def word32 : TableLayout := ⟨32, 2, by decide, by decide, by decide, by decide⟩

end TableLayout

/-- Comparing two slots word first, then field. -/
theorem lt_iff_div_mod {a b size : Nat} (positive : 0 < size) :
    a < b ↔ a / size < b / size ∨ (a / size = b / size ∧ a % size < b % size) := by
  have splitA := Nat.div_add_mod a size
  have splitB := Nat.div_add_mod b size
  have remA := Nat.mod_lt a positive
  have remB := Nat.mod_lt b positive
  rcases Nat.lt_trichotomy (a / size) (b / size) with before | same | after
  · have := Nat.mul_le_mul_left size (Nat.succ_le_of_lt before)
    rw [Nat.mul_succ] at this
    omega
  · rw [same] at splitA
    omega
  · have := Nat.mul_le_mul_left size (Nat.succ_le_of_lt after)
    rw [Nat.mul_succ] at this
    omega

/-- The words from `⌈ceiling / size⌉` on are those whose first slot is at or
past `ceiling`. -/
theorem ceilDiv_le_iff {ceiling size index : Nat} (positive : 0 < size) :
    (ceiling + size - 1) / size ≤ index ↔ ceiling ≤ index * size := by
  rw [Nat.div_le_iff_le_mul_add_pred positive, Nat.mul_comm]
  omega

/-! ## The per-slot reference search -/

/-- The least slot `j` with `first ≤ j < last` at which `p` holds, found by
testing one slot after another. -/
def firstSlot (p : Nat → Bool) (first last : Nat) : Option Nat :=
  (List.range' first (last - first)).find? p

theorem firstSlot_of_le {p : Nat → Bool} {first last : Nat}
    (empty : last ≤ first) : firstSlot p first last = none := by
  simp [firstSlot, Nat.sub_eq_zero_of_le empty]

theorem firstSlot_of_lt {p : Nat → Bool} {first last : Nat}
    (nonempty : first < last) :
    firstSlot p first last =
      if p first then some first else firstSlot p (first + 1) last := by
  obtain ⟨count, hcount⟩ : ∃ count, last - first = count + 1 :=
    ⟨last - first - 1, by omega⟩
  have rest : last - (first + 1) = count := by omega
  rw [firstSlot, hcount, List.range'_succ, List.find?_cons, firstSlot, rest]
  cases p first <;> rfl

/-- Splitting the searched range at `middle`. -/
theorem firstSlot_split {p : Nat → Bool} {first middle last : Nat}
    (lower : first ≤ middle) (upper : middle ≤ last) :
    firstSlot p first last =
      (firstSlot p first middle).or (firstSlot p middle last) := by
  obtain ⟨low, rfl⟩ := Nat.exists_eq_add_of_le lower
  obtain ⟨high, rfl⟩ := Nat.exists_eq_add_of_le upper
  simp only [firstSlot, show first + low + high - first = high + low by omega,
    show first + low - first = low by omega,
    show first + low + high - (first + low) = high by omega,
    ← List.range'_append_1, List.find?_append]

theorem firstSlot_eq_some_iff {p : Nat → Bool} {first last slot : Nat} :
    firstSlot p first last = some slot ↔
      first ≤ slot ∧ slot < last ∧ p slot ∧
        ∀ other, first ≤ other → other < slot → p other = false := by
  obtain ⟨count, hcount⟩ : ∃ count, last - first = count := ⟨_, rfl⟩
  induction count generalizing first with
  | zero =>
      rw [firstSlot_of_le (by omega)]
      exact ⟨nofun, fun ⟨lower, upper, _⟩ => by omega⟩
  | succ count ih =>
      rw [firstSlot_of_lt (by omega)]
      by_cases here : p first
      · simp only [here, if_true, Option.some.injEq]
        constructor
        · rintro rfl
          exact ⟨le_rfl, by omega, here, fun other lower upper => by omega⟩
        · rintro ⟨lower, -, -, before⟩
          by_contra different
          simpa [here] using before first le_rfl (by omega)
      · rw [if_neg here, ih (by omega)]
        constructor
        · rintro ⟨lower, upper, holds, before⟩
          refine ⟨by omega, upper, holds, fun other otherLower otherUpper => ?_⟩
          rcases Nat.eq_or_lt_of_le otherLower with rfl | later
          · simpa using here
          · exact before other later otherUpper
        · rintro ⟨lower, upper, holds, before⟩
          have different : slot ≠ first := by rintro rfl; exact here holds
          exact ⟨by omega, upper, holds, fun other otherLower => before other (by omega)⟩

theorem firstSlot_eq_none_iff {p : Nat → Bool} {first last : Nat} :
    firstSlot p first last = none ↔
      ∀ slot, first ≤ slot → slot < last → p slot = false := by
  simp only [firstSlot, List.find?_eq_none, List.mem_range'_1]
  constructor
  · intro absent slot lower upper
    simpa using absent slot ⟨lower, by omega⟩
  · intro absent slot member
    simpa using absent slot member.1 (by omega)

/-- The search reads `p` only on the searched range. -/
theorem firstSlot_congr {p q : Nat → Bool} {first last : Nat}
    (agree : ∀ slot, first ≤ slot → slot < last → p slot = q slot) :
    firstSlot p first last = firstSlot q first last := by
  obtain ⟨count, hcount⟩ : ∃ count, last - first = count := ⟨_, rfl⟩
  induction count generalizing first with
  | zero => rw [firstSlot_of_le (by omega), firstSlot_of_le (by omega)]
  | succ count ih =>
      have nonempty : first < last := by omega
      rw [firstSlot_of_lt (p := p) nonempty, firstSlot_of_lt (p := q) nonempty,
        agree first le_rfl nonempty,
        ih (fun slot lower upper => agree slot (by omega) upper) (by omega)]

end Sspace
end Drlvm
