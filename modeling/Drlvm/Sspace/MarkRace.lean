import Drlvm.Sspace.ColorTable

/-!
# Allocation and concurrent updates of the colour table

`alloc_slot_in_table` sets the alloc colour of a slot with
`table[word_index] |= cur_alloc_color << index_in_word`: a read of the word,
then a write of the value read with the colour set.  The comment above
`alloc_in_chunk` says no synchronization is needed, the chunk being local to
its allocator.  A colour word holds the fields of many slots, though, and in
the concurrent-mark phase the collector marks objects in the chunks' tables
(`obj_mark_black_in_table`, not in src/).

This module runs the allocating thread's read and write against any sequence
of updates of table words by other threads, each taken as atomic, under every
interleaving.  The table ends as if every update had been made in order and
the slot allocated between the read and the write, except that an update of the
allocated slot's word that falls between the read and the write is lost: the
write puts back the word as it was read.
-/

namespace Drlvm
namespace Sspace

variable {L : TableLayout}

/-- An update of one table word by another thread: the word, and what the
update makes of its value. -/
abbrev WordUpdate (w : Nat) := Nat × (BitVec w → BitVec w)

/-- A step on the shared table: the read or the write of
`table[word_index] |= cur_alloc_color << index_in_word` by the allocating
thread, or another thread's update of a word. -/
inductive WordStep (w : Nat) where
  | load
  | store
  | update (change : WordUpdate w)

/-- The shared table and the word the allocating thread has read. -/
structure WordRace (w : Nat) where
  table : Table w
  loaded : Option (BitVec w)

/-- Another thread's update, made at once. -/
def Table.update {w : Nat} (table : Table w) (change : WordUpdate w) : Table w :=
  table.write change.1 (change.2 (table change.1))

/-- The updates of the other threads, one after another. -/
def Table.updateAll {w : Nat} (table : Table w) (changes : List (WordUpdate w)) : Table w :=
  changes.foldl Table.update table

section

variable (colors : AllocColors L) (slotIndex : Nat)

/-- One step: the allocating thread works on the word of slot `slotIndex`, as
`alloc_slot_in_table` computes it. -/
def wordStep (state : WordRace L.bitsPerWord) :
    WordStep L.bitsPerWord → WordRace L.bitsPerWord
  | .load =>
    { state with loaded := some (state.table (slotIndex * L.colorBitsPerObj / L.bitsPerWord)) }
  | .store =>
    match state.loaded with
    | some word =>
      { state with
        table := state.table.write (slotIndex * L.colorBitsPerObj / L.bitsPerWord)
          (word ||| colors.curAllocColor <<< (slotIndex * L.colorBitsPerObj % L.bitsPerWord)) }
    | none => state
  | .update change => { state with table := state.table.update change }

/-- The steps in order, from `table` with nothing read. -/
def wordRace (table : Table L.bitsPerWord) (schedule : List (WordStep L.bitsPerWord)) :
    Table L.bitsPerWord :=
  (schedule.foldl (wordStep colors slotIndex) ⟨table, none⟩).table

/-- A run of other threads' updates changes the table as the updates do and
leaves what the allocating thread has read. -/
theorem foldl_wordStep_updates (state : WordRace L.bitsPerWord)
    (changes : List (WordUpdate L.bitsPerWord)) :
    (changes.map WordStep.update).foldl (wordStep colors slotIndex) state =
      ⟨state.table.updateAll changes, state.loaded⟩ := by
  induction changes generalizing state with
  | nil => rfl
  | cons change changes ih => exact ih _

end

/-- Updates of other words leave a word as it was. -/
theorem Table.updateAll_of_ne {w : Nat} (table : Table w) {wordIndex : Nat}
    (changes : List (WordUpdate w)) (others : ∀ change ∈ changes, change.1 ≠ wordIndex) :
    table.updateAll changes wordIndex = table wordIndex := by
  induction changes generalizing table with
  | nil => rfl
  | cons change changes ih =>
    rw [Table.updateAll, List.foldl_cons, ← Table.updateAll,
      ih _ fun other member => others other (List.mem_cons_of_mem _ member), Table.update,
      Table.write_ne _ _ (others change (List.mem_cons_self _ _)).symm]

/-- Off one word, a run of updates does what the updates of the other words
do, from any table that agrees off that word. -/
theorem Table.updateAll_filter {w : Nat} {table other : Table w} {wordIndex : Nat}
    (agree : ∀ index ≠ wordIndex, table index = other index) (changes : List (WordUpdate w)) :
    ∀ index ≠ wordIndex, table.updateAll changes index =
      other.updateAll (changes.filter fun change => change.1 ≠ wordIndex) index := by
  induction changes generalizing table other with
  | nil => exact agree
  | cons change changes ih =>
    by_cases same : change.1 = wordIndex
    · rw [List.filter_cons_of_neg (by simpa using same)]
      refine ih fun index differs => ?_
      rw [Table.update, Table.write_ne _ _ (same ▸ differs), agree index differs]
    · rw [List.filter_cons_of_pos (by simpa using same)]
      refine ih fun index differs => ?_
      by_cases hit : index = change.1
      · subst hit
        rw [Table.update, Table.update, Table.write_same, Table.write_same,
          agree _ differs]
      · rw [Table.update, Table.update, Table.write_ne _ _ hit, Table.write_ne _ _ hit,
          agree index differs]

/-- Under every interleaving of the allocating thread's read and write with the
other threads' updates, `before` the read, `between` the read and the write, and
`after` the write: the table ends as if the updates before the read and those of
other words between had been made, then the slot allocated, then the updates
after the write made.  An update of the allocated slot's word between the read
and the write is lost. -/
theorem wordRace_interleaving (colors : AllocColors L) (slotIndex : Nat)
    (table : Table L.bitsPerWord) (before between after : List (WordUpdate L.bitsPerWord)) :
    wordRace colors slotIndex table
        (before.map .update ++ .load :: between.map .update ++ .store :: after.map .update) =
      ((allocSlotInTable colors ((table.updateAll before).updateAll (between.filter
          fun change => change.1 ≠ slotIndex * L.colorBitsPerObj / L.bitsPerWord))
        slotIndex).value).updateAll after := by
  simp only [wordRace, List.foldl_append, List.foldl_cons, foldl_wordStep_updates, wordStep,
    allocSlotInTable, Checked.value_bind, Checked.value_pure]
  refine congrArg (Table.updateAll · after) (funext fun index => ?_)
  generalize slotIndex * L.colorBitsPerObj / L.bitsPerWord = wordIndex
  by_cases same : index = wordIndex
  · subst same
    have unaffected : (table.updateAll before).updateAll
        (between.filter fun change => change.1 ≠ index) index = table.updateAll before index :=
      Table.updateAll_of_ne _ _ fun change member => by simpa using (List.mem_filter.mp member).2
    rw [Table.write_same, Table.write_same, unaffected]
  · rw [Table.write_ne _ _ same, Table.write_ne _ _ same]
    exact Table.updateAll_filter (fun _ _ => rfl) between index same

/-- On the 32-bit layout, slot `0` allocated while another thread sets the mark
bit of slot `1` in the same word: the mark stays when it comes first or last,
and is lost when it comes between the read and the write. -/
example :
    wordRace AllocColors.word32 0 (fun _ => 0) [.update (0, (· ||| 8)), .load, .store] 0 = 9 ∧
      wordRace AllocColors.word32 0 (fun _ => 0) [.load, .store, .update (0, (· ||| 8))] 0 = 9 ∧
      wordRace AllocColors.word32 0 (fun _ => 0) [.load, .update (0, (· ||| 8)), .store] 0 =
        1 := by
  decide

end Sspace
end Drlvm
