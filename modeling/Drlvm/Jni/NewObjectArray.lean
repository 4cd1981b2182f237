import Mathlib
import Drlvm.Jni.ArrayRegion

/-!
# Creating object arrays

`NewObjectArray` checks the requested length before it asks `vm_new_vector` for
the array, since a JNI function may raise an exception but not throw one.  A
length with either of its two highest bits set is refused, with
`NegativeArraySizeException` when it is negative and `OutOfMemoryError`
otherwise, so the check lets through exactly the lengths in `[0, 2^30)`.  The
collector hands out the array with null elements, and when the initial element
is not null a loop stores it into each of them.
-/

namespace Drlvm
namespace Jni

variable {α : Type}

/-- Not in src/: `TWO_HIGHEST_BITS_SET_MASK`, the `jsize` with its two highest
bits set, as its name says. -/
def twoHighestBitsSetMask : Jsize := 0xC0000000#32

/-- The loop of `NewObjectArray` that stores the initial element,
`for (int i = 0; i < length; i++) elems[i] = elem;`, from index `i` with
`count` iterations left. -/
def fillElements (elem : α) : Nat → Int → (Int → α) → Int → α
  | 0, _, elems => elems
  | count + 1, i, elems => fillElements elem count (i + 1) (Function.update elems i elem)

/-- What `NewObjectArray` leaves. -/
inductive NewArrayResult (α : Type) where
  /-- `NULL`, raising nothing itself: an exception was pending, or the array
  class was not found. -/
  | null
  /-- `NULL`, with an exception raised by class name and message. -/
  | raised (className : String) (message : Option String)
  /-- A new array of `length` elements, references `none` for null. -/
  | created (length : Nat) (elems : Int → Option α)

/-- `NewObjectArray`.  `arrayClass` is whether `class_get_array_of_class` found
the array class, and `newVector` the exception `vm_new_vector` raised, if any;
the vector it returns has null elements. -/
def newObjectArray (pending arrayClass : Bool) (newVector : Option (String × Option String))
    (length : Jsize) (initialElement : Option α) : NewArrayResult α :=
  if pending then .null
  else if !arrayClass then .null
  else if length &&& twoHighestBitsSetMask != 0 then
    if length.slt 0 then .raised "java/lang/NegativeArraySizeException" none
    else .raised "java/lang/OutOfMemoryError" (some "VM doesn't support arrays of the requested size")
  else
    match newVector with
    | some (className, message) => .raised className message
    | none =>
      .created length.toNat
        (match initialElement with
          | some elem => fillElements (some elem) length.toInt.toNat 0 fun _ => none
          | none => fun _ => none)

/-- The loop stores `elem` at the `count` indices from `i` on and nowhere else. -/
theorem fillElements_apply (elem : α) (count : Nat) (i : Int) (elems : Int → α) (index : Int) :
    fillElements elem count i elems index =
      if i ≤ index ∧ index < i + count then elem else elems index := by
  induction count generalizing i elems with
  | zero => rw [fillElements, if_neg (by omega)]
  | succ count ih =>
    rw [fillElements, ih, Function.update_apply]
    by_cases same : index = i
    · simp [same]
    · by_cases inside : i + 1 ≤ index ∧ index < i + 1 + count
      · rw [if_pos inside, if_pos (by omega)]
      · rw [if_neg inside, if_neg same, if_neg (by omega)]

/-- Masking with `0xC0000000` keeps the two highest bits of a 32-bit value. -/
theorem and_twoHighestBits (n : Nat) : n &&& 3221225472 = 2 ^ 30 * (n / 2 ^ 30 % 4) := by
  rw [show (3221225472 : Nat) = 2 ^ 30 * 3 from rfl,
    show n / 2 ^ 30 % 4 = n / 2 ^ 30 &&& 2 ^ 2 - 1 from
      (Nat.and_pow_two_sub_one_eq_mod (n / 2 ^ 30) 2).symm]
  apply Nat.eq_of_testBit_eq
  intro j
  simp only [Nat.testBit_and, Nat.testBit_mul_pow_two, ← Nat.shiftRight_eq_div_pow,
    Nat.testBit_shiftRight]
  by_cases high : 30 ≤ j
  · simp [high, Nat.add_sub_cancel' high]
  · simp [high]

/-- The length check lets through exactly the lengths in `[0, 2^30)`. -/
theorem and_twoHighestBitsSetMask_eq_zero_iff (length : Jsize) :
    length &&& twoHighestBitsSetMask = 0 ↔ 0 ≤ length.toInt ∧ length.toInt < 2 ^ 30 := by
  have := length.isLt
  simp only [BitVec.toNat_eq, BitVec.toNat_and, twoHighestBitsSetMask, BitVec.ofNat_eq_ofNat,
    BitVec.toNat_ofNat, Nat.zero_mod]
  rw [and_twoHighestBits, BitVec.toInt_eq_toNat_cond]
  split <;> omega

/-- With no exception pending, the array class found and `vm_new_vector`
succeeding, `NewObjectArray` creates an array exactly for the lengths in
`[0, 2^30)`, with the initial element at every index; it raises
`NegativeArraySizeException` for a negative length and `OutOfMemoryError` from
`2^30` on. -/
theorem newObjectArray_eq (length : Jsize) (initialElement : Option α) :
    newObjectArray false true none length initialElement =
      if 0 ≤ length.toInt ∧ length.toInt < 2 ^ 30 then
        .created length.toNat fun index =>
          if 0 ≤ index ∧ index < length.toInt then initialElement else none
      else if length.toInt < 0 then .raised "java/lang/NegativeArraySizeException" none
      else
        .raised "java/lang/OutOfMemoryError"
          (some "VM doesn't support arrays of the requested size") := by
  have check := and_twoHighestBitsSetMask_eq_zero_iff length
  by_cases fits : 0 ≤ length.toInt ∧ length.toInt < 2 ^ 30
  · have passes : (length &&& twoHighestBitsSetMask != 0) = false := by simpa using check.mpr fits
    unfold newObjectArray
    rw [if_neg Bool.false_ne_true, if_neg (by decide), passes,
      if_neg Bool.false_ne_true, if_pos fits]
    dsimp only
    congr 1
    funext index
    cases initialElement with
    | none => simp
    | some elem => simp [fillElements_apply, Int.toNat_of_nonneg fits.1]
  · have refused : (length &&& twoHighestBitsSetMask != 0) = true := by
      simpa using mt check.mp fits
    unfold newObjectArray
    have zero : (0 : Jsize).toInt = 0 := rfl
    rw [if_neg Bool.false_ne_true, if_neg (by decide), refused, if_pos rfl, if_neg fits]
    simp only [slt_eq_decide, zero, decide_eq_true_eq]

end Jni
end Drlvm
