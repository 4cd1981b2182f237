import Mathlib

/-!
# JNI array regions

The sixteen `Get<Type>ArrayRegion` and `Set<Type>ArrayRegion` functions of
`jni_array.cpp` share one body: return if an exception is pending, check the
region `start .. start + len` against the array's length, throw
`ArrayIndexOutOfBoundsException` if it is out of range, and otherwise `memcpy`
`len` elements between the array and the native buffer.  The check adds `start`
and `len` as 32-bit `jsize` values, so the sum wraps: a region whose end lies at
or past `2^31` passes the check and the copy runs past the array.
-/

namespace Drlvm
namespace Jni

/-- A `jsize`: a 32-bit two's-complement integer. -/
abbrev Jsize := BitVec 32

/-- What the array functions read and change: the pending exception (class and
message), the Java array's length and elements, the native buffer's elements,
and whether the collector was told the array was written.  Elements are indexed
by `Int`; an index outside `[0, length)` stands for the memory next to the
array or the buffer. -/
structure JniState (α : Type) where
  pending : Option (String × String)
  length : Nat
  array : Int → α
  buf : Int → α
  heapWrote : Bool

variable {α : Type}

/-- `ThrowNew_Quick(jni_env, className, msg)`: make an exception pending. -/
def JniState.throwNew (state : JniState α) (className msg : String) : JniState α :=
  { state with pending := some (className, msg) }

/-- `GetArrayLength`: the array's `uint32` length, returned as a `jsize`. -/
def getArrayLength (length : Nat) : Jsize := BitVec.ofNat 32 length

/-- `sprintf(msg, "%d..%d", start, end)`. -/
def rangeMessage (start endIndex : Jsize) : String :=
  toString start.toInt ++ ".." ++ toString endIndex.toInt

/-- `memcpy` of `count` elements to `target` from `targetStart` on, read from
`source` from `sourceStart` on. -/
def memcpy (target source : Int → α) (targetStart sourceStart count : Int) : Int → α :=
  fun index => if targetStart ≤ index ∧ index < targetStart + count then
    source (sourceStart + (index - targetStart)) else target index

/-- The bounds check of the region functions,
`start < 0 || len < 0 || end > length` with `jsize end = start + len`. -/
def regionOutOfBounds (length : Nat) (start len : Jsize) : Bool :=
  start.slt 0 || len.slt 0 || (getArrayLength length).slt (start + len)

/-- The body of the eight `Get<Type>ArrayRegion` functions: copy `len`
elements of the array, from `start` on, to the native buffer. -/
def getArrayRegion (start len : Jsize) (state : JniState α) : JniState α :=
  if state.pending.isSome then state
  else if regionOutOfBounds state.length start len then
    state.throwNew "java/lang/ArrayIndexOutOfBoundsException" (rangeMessage start (start + len))
  else { state with buf := memcpy state.buf state.array 0 start.toInt len.toInt }

/-- The body of the eight `Set<Type>ArrayRegion` functions: copy `len`
elements of the native buffer to the array, from `start` on, and tell the
collector (`gc_heap_wrote_object`). -/
def setArrayRegion (start len : Jsize) (state : JniState α) : JniState α :=
  if state.pending.isSome then state
  else if regionOutOfBounds state.length start len then
    state.throwNew "java/lang/ArrayIndexOutOfBoundsException" (rangeMessage start (start + len))
  else
    { state with
      array := memcpy state.array state.buf start.toInt 0 len.toInt
      heapWrote := true }

/-! ## The sixteen region functions

Each element type is given by the bits `memcpy` copies. -/

/-- `GetBooleanArrayRegion`. -/
def getBooleanArrayRegion : Jsize → Jsize → JniState (BitVec 8) → JniState (BitVec 8) :=
  getArrayRegion

/-- `GetByteArrayRegion`. -/
def getByteArrayRegion : Jsize → Jsize → JniState (BitVec 8) → JniState (BitVec 8) :=
  getArrayRegion

/-- `GetCharArrayRegion`. -/
def getCharArrayRegion : Jsize → Jsize → JniState (BitVec 16) → JniState (BitVec 16) :=
  getArrayRegion

/-- `GetShortArrayRegion`. -/
def getShortArrayRegion : Jsize → Jsize → JniState (BitVec 16) → JniState (BitVec 16) :=
  getArrayRegion

/-- `GetIntArrayRegion`. -/
def getIntArrayRegion : Jsize → Jsize → JniState (BitVec 32) → JniState (BitVec 32) :=
  getArrayRegion

/-- `GetLongArrayRegion`. -/
def getLongArrayRegion : Jsize → Jsize → JniState (BitVec 64) → JniState (BitVec 64) :=
  getArrayRegion

/-- `GetFloatArrayRegion`. -/
def getFloatArrayRegion : Jsize → Jsize → JniState (BitVec 32) → JniState (BitVec 32) :=
  getArrayRegion

/-- `GetDoubleArrayRegion`. -/
def getDoubleArrayRegion : Jsize → Jsize → JniState (BitVec 64) → JniState (BitVec 64) :=
  getArrayRegion

/-- `SetBooleanArrayRegion`. -/
def setBooleanArrayRegion : Jsize → Jsize → JniState (BitVec 8) → JniState (BitVec 8) :=
  setArrayRegion

/-- `SetByteArrayRegion`. -/
def setByteArrayRegion : Jsize → Jsize → JniState (BitVec 8) → JniState (BitVec 8) :=
  setArrayRegion

/-- `SetCharArrayRegion`. -/
def setCharArrayRegion : Jsize → Jsize → JniState (BitVec 16) → JniState (BitVec 16) :=
  setArrayRegion

/-- `SetShortArrayRegion`. -/
def setShortArrayRegion : Jsize → Jsize → JniState (BitVec 16) → JniState (BitVec 16) :=
  setArrayRegion

/-- `SetIntArrayRegion`. -/
def setIntArrayRegion : Jsize → Jsize → JniState (BitVec 32) → JniState (BitVec 32) :=
  setArrayRegion

/-- `SetLongArrayRegion`. -/
def setLongArrayRegion : Jsize → Jsize → JniState (BitVec 64) → JniState (BitVec 64) :=
  setArrayRegion

/-- `SetFloatArrayRegion`. -/
def setFloatArrayRegion : Jsize → Jsize → JniState (BitVec 32) → JniState (BitVec 32) :=
  setArrayRegion

/-- `SetDoubleArrayRegion`. -/
def setDoubleArrayRegion : Jsize → Jsize → JniState (BitVec 64) → JniState (BitVec 64) :=
  setArrayRegion

/-! ## The `jsize` arithmetic of the check -/

theorem toInt_bounds (x : Jsize) : -2147483648 ≤ x.toInt ∧ x.toInt < 2147483648 := by
  rw [BitVec.toInt_eq_toNat_cond]
  have := x.isLt
  split <;> omega

theorem slt_eq_decide (x y : Jsize) : x.slt y = decide (x.toInt < y.toInt) := rfl

/-- A length below `2^31` reads back as itself. -/
theorem toInt_getArrayLength {length : Nat} (lengthFits : length < 2 ^ 31) :
    (getArrayLength length).toInt = length := by
  rw [getArrayLength, BitVec.toInt_ofNat, Int.bmod]
  split <;> omega

/-- `start + len` as a `jsize`: the integer sum, less `2^32` when it reaches
`2^31`. -/
theorem toInt_add_jsize (start len : Jsize) (startNonneg : 0 ≤ start.toInt)
    (lenNonneg : 0 ≤ len.toInt) :
    (start + len).toInt =
      if start.toInt + len.toInt < 2147483648 then start.toInt + len.toInt
      else start.toInt + len.toInt - 4294967296 := by
  have := toInt_bounds start
  have := toInt_bounds len
  rw [BitVec.toInt_add, Int.bmod]
  split <;> split <;> omega

/-- The check lets a region through exactly when `start` and `len` are
non-negative and their integer sum either stays within the array or reaches
`2^31`, where the 32-bit `end` wraps to a negative value. -/
theorem regionOutOfBounds_eq_false_iff {length : Nat} (lengthFits : length < 2 ^ 31)
    (start len : Jsize) :
    regionOutOfBounds length start len = false ↔
      0 ≤ start.toInt ∧ 0 ≤ len.toInt ∧
        (start.toInt + len.toInt ≤ length ∨ 2147483648 ≤ start.toInt + len.toInt) := by
  have zero : (0 : Jsize).toInt = 0 := rfl
  have := toInt_bounds start
  have := toInt_bounds len
  simp only [regionOutOfBounds, Bool.or_eq_false_iff, slt_eq_decide, decide_eq_false_iff_not,
    toInt_getArrayLength lengthFits, zero, Int.not_lt]
  constructor
  · rintro ⟨⟨startNonneg, lenNonneg⟩, inside⟩
    rw [toInt_add_jsize start len startNonneg lenNonneg] at inside
    split at inside <;> omega
  · rintro ⟨startNonneg, lenNonneg, inside⟩
    refine ⟨⟨startNonneg, lenNonneg⟩, ?_⟩
    rw [toInt_add_jsize start len startNonneg lenNonneg]
    split <;> omega

/-- When `start + len` stays below `2^31` the check is exact: it fails exactly
the regions that do not lie inside the array. -/
theorem regionOutOfBounds_of_lt {length : Nat} (lengthFits : length < 2 ^ 31)
    (start len : Jsize) (noWrap : start.toInt + len.toInt < 2147483648) :
    regionOutOfBounds length start len =
      !decide (0 ≤ start.toInt ∧ 0 ≤ len.toInt ∧ start.toInt + len.toInt ≤ length) := by
  have passes := regionOutOfBounds_eq_false_iff lengthFits start len
  cases check : regionOutOfBounds length start len
  · obtain ⟨startNonneg, lenNonneg, inside⟩ := passes.mp check
    simp only [decide_eq_true (show 0 ≤ start.toInt ∧ 0 ≤ len.toInt ∧
      start.toInt + len.toInt ≤ length by omega), Bool.not_true]
  · refine (Bool.not_eq_true' _).mpr (decide_eq_false fun inside => ?_) |>.symm
    rw [passes.mpr ⟨inside.1, inside.2.1, .inl inside.2.2⟩] at check
    exact Bool.false_ne_true check

/-! ## What the region functions copy -/

/-- An empty `boolean[]`, with the byte at each index next to it holding the
index. -/
def emptyBooleanArray : JniState (BitVec 8) :=
  ⟨none, 0, fun index => BitVec.ofInt 8 index, fun _ => 0, false⟩

/-- An empty `int[]` and a native buffer of `-1`s. -/
def emptyIntArray : JniState (BitVec 32) :=
  ⟨none, 0, fun _ => 0, fun _ => 0xFFFFFFFF#32, false⟩

/-- An `int[2]` of zeros and a native buffer of `-1`s. -/
def zeroIntPair : JniState (BitVec 32) :=
  ⟨none, 2, fun _ => 0, fun _ => 0xFFFFFFFF#32, false⟩

section

variable (start len : Jsize) (state : JniState α)

/-- A region that passes the check is copied, whether its end wraps or not. -/
theorem setArrayRegion_of_passes (noPending : state.pending = none)
    (passes : regionOutOfBounds state.length start len = false) :
    setArrayRegion start len state =
      { state with
        array := memcpy state.array state.buf start.toInt 0 len.toInt
        heapWrote := true } := by
  rw [setArrayRegion, noPending, Option.isSome_none, if_neg Bool.false_ne_true, passes,
    if_neg Bool.false_ne_true]

/-- The same for `Get<Type>ArrayRegion`. -/
theorem getArrayRegion_of_passes (noPending : state.pending = none)
    (passes : regionOutOfBounds state.length start len = false) :
    getArrayRegion start len state =
      { state with buf := memcpy state.buf state.array 0 start.toInt len.toInt } := by
  rw [getArrayRegion, noPending, Option.isSome_none, if_neg Bool.false_ne_true, passes,
    if_neg Bool.false_ne_true]

/-- When `start + len` stays below `2^31`, `Get<Type>ArrayRegion` copies exactly
the regions inside the array and throws `ArrayIndexOutOfBoundsException` on all
others, leaving the array and the buffer as they were. -/
theorem getArrayRegion_of_lt (noPending : state.pending = none)
    (lengthFits : state.length < 2 ^ 31)
    (noWrap : start.toInt + len.toInt < 2147483648) :
    getArrayRegion start len state =
      if 0 ≤ start.toInt ∧ 0 ≤ len.toInt ∧ start.toInt + len.toInt ≤ state.length then
        { state with buf := memcpy state.buf state.array 0 start.toInt len.toInt }
      else
        state.throwNew "java/lang/ArrayIndexOutOfBoundsException"
          (rangeMessage start (start + len)) := by
  rw [getArrayRegion, noPending, Option.isSome_none, if_neg Bool.false_ne_true,
    regionOutOfBounds_of_lt lengthFits start len noWrap]
  by_cases inside :
      0 ≤ start.toInt ∧ 0 ≤ len.toInt ∧ start.toInt + len.toInt ≤ state.length <;>
    simp [inside]

theorem getArrayRegion_of_lt_emptyBooleanArray :
    getArrayRegion 0#32 1#32 emptyBooleanArray =
      if 0 ≤ (0#32 : Jsize).toInt ∧ 0 ≤ (1#32 : Jsize).toInt ∧
          (0#32 : Jsize).toInt + (1#32 : Jsize).toInt ≤ emptyBooleanArray.length then
        { emptyBooleanArray with
          buf := memcpy emptyBooleanArray.buf emptyBooleanArray.array 0 (0#32 : Jsize).toInt
            (1#32 : Jsize).toInt }
      else
        emptyBooleanArray.throwNew "java/lang/ArrayIndexOutOfBoundsException"
          (rangeMessage 0#32 (0#32 + 1#32)) :=
  getArrayRegion_of_lt 0#32 1#32 emptyBooleanArray rfl (by decide) (by decide)

/-- The same for `Set<Type>ArrayRegion`. -/
theorem setArrayRegion_of_lt (noPending : state.pending = none)
    (lengthFits : state.length < 2 ^ 31)
    (noWrap : start.toInt + len.toInt < 2147483648) :
    setArrayRegion start len state =
      if 0 ≤ start.toInt ∧ 0 ≤ len.toInt ∧ start.toInt + len.toInt ≤ state.length then
        { state with
          array := memcpy state.array state.buf start.toInt 0 len.toInt
          heapWrote := true }
      else
        state.throwNew "java/lang/ArrayIndexOutOfBoundsException"
          (rangeMessage start (start + len)) := by
  rw [setArrayRegion, noPending, Option.isSome_none, if_neg Bool.false_ne_true,
    regionOutOfBounds_of_lt lengthFits start len noWrap]
  by_cases inside :
      0 ≤ start.toInt ∧ 0 ≤ len.toInt ∧ start.toInt + len.toInt ≤ state.length <;>
    simp [inside]

theorem setArrayRegion_of_lt_zeroIntPair :
    setArrayRegion 0#32 2#32 zeroIntPair =
      if 0 ≤ (0#32 : Jsize).toInt ∧ 0 ≤ (2#32 : Jsize).toInt ∧
          (0#32 : Jsize).toInt + (2#32 : Jsize).toInt ≤ zeroIntPair.length then
        { zeroIntPair with
          array := memcpy zeroIntPair.array zeroIntPair.buf (0#32 : Jsize).toInt 0
            (2#32 : Jsize).toInt
          heapWrote := true }
      else
        zeroIntPair.throwNew "java/lang/ArrayIndexOutOfBoundsException"
          (rangeMessage 0#32 (0#32 + 2#32)) :=
  setArrayRegion_of_lt 0#32 2#32 zeroIntPair rfl (by decide) (by decide)

/-- A region of non-negative `start` and `len` whose integer end reaches `2^31`
passes the check of `Get<Type>ArrayRegion`: no exception is raised and the
buffer receives the `len` array elements from `start` on, the last of which, at
`start + len - 1`, lies past the array. -/
theorem getArrayRegion_of_wrap (noPending : state.pending = none)
    (lengthFits : state.length < 2 ^ 31) (startNonneg : 0 ≤ start.toInt)
    (lenNonneg : 0 ≤ len.toInt) (wraps : 2147483648 ≤ start.toInt + len.toInt) :
    (getArrayRegion start len state).pending = none ∧
      (∀ offset, 0 ≤ offset → offset < len.toInt →
        (getArrayRegion start len state).buf offset = state.array (start.toInt + offset)) ∧
      (state.length : Int) ≤ start.toInt + len.toInt - 1 := by
  have passes := (regionOutOfBounds_eq_false_iff lengthFits start len).mpr
    ⟨startNonneg, lenNonneg, .inr wraps⟩
  rw [getArrayRegion_of_passes start len state noPending passes]
  refine ⟨noPending, fun offset lower upper => ?_, by omega⟩
  simp only [memcpy]
  rw [if_pos (by omega), sub_zero]

/-- The same region passes the check of `Set<Type>ArrayRegion`: no exception is
raised and the `len` array elements from `start` on, up to `start + len - 1`
past the array, are overwritten from the buffer. -/
theorem setArrayRegion_of_wrap (noPending : state.pending = none)
    (lengthFits : state.length < 2 ^ 31) (startNonneg : 0 ≤ start.toInt)
    (lenNonneg : 0 ≤ len.toInt) (wraps : 2147483648 ≤ start.toInt + len.toInt) :
    (setArrayRegion start len state).pending = none ∧
      (∀ offset, 0 ≤ offset → offset < len.toInt →
        (setArrayRegion start len state).array (start.toInt + offset) = state.buf offset) ∧
      (state.length : Int) ≤ start.toInt + len.toInt - 1 := by
  have passes := (regionOutOfBounds_eq_false_iff lengthFits start len).mpr
    ⟨startNonneg, lenNonneg, .inr wraps⟩
  rw [setArrayRegion_of_passes start len state noPending passes]
  refine ⟨noPending, fun offset lower upper => ?_, by omega⟩
  simp only [memcpy]
  rw [if_pos (by omega), zero_add, add_sub_cancel_left]

end

/-! ## A region whose end wraps -/

/-- `start = 1` and `len = 0x7FFFFFFF` on an empty array: `end` wraps to
`-2147483648`, the check passes, and no exception is raised.
`GetBooleanArrayRegion` copies the byte at index `1` into the buffer, and
`SetIntArrayRegion` overwrites the `int` at index `1`, both past the array. -/
theorem arrayRegion_wrappedEnd :
    (1#32 + 0x7FFFFFFF#32 : Jsize).toInt = -2147483648 ∧
      (getBooleanArrayRegion 1#32 0x7FFFFFFF#32 emptyBooleanArray).pending = none ∧
      (getBooleanArrayRegion 1#32 0x7FFFFFFF#32 emptyBooleanArray).buf 0 = 1#8 ∧
      (setIntArrayRegion 1#32 0x7FFFFFFF#32 emptyIntArray).pending = none ∧
      (setIntArrayRegion 1#32 0x7FFFFFFF#32 emptyIntArray).array 1 = 0xFFFFFFFF#32 := by
  obtain ⟨getPending, getCopies, -⟩ := getArrayRegion_of_wrap 1#32 0x7FFFFFFF#32 emptyBooleanArray
    rfl (by decide) (by decide) (by decide) (by decide)
  obtain ⟨setPending, setCopies, -⟩ := setArrayRegion_of_wrap 1#32 0x7FFFFFFF#32 emptyIntArray
    rfl (by decide) (by decide) (by decide) (by decide)
  exact ⟨by decide, getPending, (getCopies 0 le_rfl (by decide)).trans (by decide), setPending,
    setCopies 0 le_rfl (by decide)⟩

end Jni
end Drlvm
