import Mathlib
import Drlvm.Checked
import Drlvm.Jni.ArrayRegion

/-!
# JNI array elements

`Get<Type>ArrayElements` hands native code the elements of a primitive array:
the array's own storage when the collector has pinned the array, and otherwise
a buffer from `STD_MALLOC` that holds a copy.  `Release<Type>ArrayElements`
takes the pointer back.  A pointer into the array needs nothing.  A copy is
written back to the array in modes `0` and `JNI_COMMIT`, and freed in modes `0`
and `JNI_ABORT`; any other mode fails an `ASSERT` and does nothing.  Seven of the
eight `Release` functions share one body, which tells the collector of the
write back with `gc_heap_wrote_object`; `ReleaseDoubleArrayElements` does not.

Native code means to edit the Java array.  `elementsSession_zero` shows that the
protocol does so: a `Get`, any stores and commits through the pointer it
returned, and a final `Release` in mode `0` leave the array as the same stores
made straight into it, with every buffer freed again.  `elementsSession_abort`
shows what `JNI_ABORT` keeps: on a copy only the stores made before the last
commit, on a pinned array every store.  `doubleElementsSession_eq` carries all
of this over to `double[]`, except the report to the collector.
-/

namespace Drlvm
namespace Jni

/-- A `jint`: a 32-bit two's-complement integer. -/
abbrev Jint := BitVec 32

/-- Not in src/: `JNI_COMMIT` of `jni.h`, `1` in the JNI specification. -/
def jniCommit : Jint := 1#32

/-- Not in src/: `JNI_ABORT` of `jni.h`, `2` in the JNI specification. -/
def jniAbort : Jint := 2#32

/-- A pointer to array elements held by native code: `NULL`, the first element
of the array itself, or the start of the buffer of an `STD_MALLOC`, named by the
number of the allocation. -/
inductive ElemsPtr where
  | null
  | inArray
  | buffer (id : Nat)
  deriving DecidableEq, Repr

/-- The buffers of `STD_MALLOC` and `STD_FREE`: the contents of each live
buffer, and the number of the next allocation.  No buffer from `next` on is
live, so an allocation never returns a live buffer. -/
structure NativeHeap (α : Type) where
  buffers : Nat → Option (Int → α)
  next : Nat
  fresh : ∀ id, next ≤ id → buffers id = none

namespace NativeHeap

variable {α : Type}

/-- `STD_MALLOC`: a new live buffer, numbered `next`, holding `contents`. -/
def malloc (heap : NativeHeap α) (contents : Int → α) : NativeHeap α where
  buffers := Function.update heap.buffers heap.next (some contents)
  next := heap.next + 1
  fresh id above := by
    rw [Function.update_noteq (by omega)]
    exact heap.fresh id (by omega)

/-- `STD_FREE`: the buffer is no longer live. -/
def free (heap : NativeHeap α) (id : Nat) : NativeHeap α where
  buffers := Function.update heap.buffers id none
  next := heap.next
  fresh other above := by
    rw [Function.update_apply]
    split
    · rfl
    · exact heap.fresh other above

/-- A store by native code into a live buffer, `buffer[index] = value`. -/
def store (heap : NativeHeap α) (id : Nat) (index : Int) (value : α) : NativeHeap α where
  buffers := Function.update heap.buffers id
    ((heap.buffers id).map fun contents => Function.update contents index value)
  next := heap.next
  fresh other above := by
    rw [Function.update_apply]
    split
    · rename_i same
      rw [← same, heap.fresh other above, Option.map_none']
    · exact heap.fresh other above

@[simp] theorem buffers_malloc (heap : NativeHeap α) (contents : Int → α) :
    (heap.malloc contents).buffers = Function.update heap.buffers heap.next (some contents) :=
  rfl

@[simp] theorem next_malloc (heap : NativeHeap α) (contents : Int → α) :
    (heap.malloc contents).next = heap.next + 1 := rfl

@[simp] theorem buffers_free (heap : NativeHeap α) (id : Nat) :
    (heap.free id).buffers = Function.update heap.buffers id none := rfl

@[simp] theorem next_free (heap : NativeHeap α) (id : Nat) : (heap.free id).next = heap.next :=
  rfl

@[simp] theorem buffers_store (heap : NativeHeap α) (id : Nat) (index : Int) (value : α) :
    (heap.store id index value).buffers = Function.update heap.buffers id
      ((heap.buffers id).map fun contents => Function.update contents index value) := rfl

@[simp] theorem next_store (heap : NativeHeap α) (id : Nat) (index : Int) (value : α) :
    (heap.store id index value).next = heap.next := rfl

end NativeHeap

/-- What the element functions read and change: the pending exception, the
Java array's length and elements, whether the collector has pinned the array
(`gc_is_object_pinned`), whether it was told of a write
(`gc_heap_wrote_object`), and the native heap. -/
structure ElementsState (α : Type) where
  pending : Option (String × String)
  length : Nat
  array : Int → α
  pinned : Bool
  heapWrote : Bool
  heap : NativeHeap α

variable {α : Type}

/-- The body of the eight `Get<Type>ArrayElements` functions: the state, the
pointer returned, and the value stored to `*isCopy` (`none` when none is).
`uninitialized` is what the new buffer holds before the `memcpy`. -/
def getArrayElements (uninitialized : Int → α) (state : ElementsState α) :
    ElementsState α × ElemsPtr × Option Bool :=
  if state.pending.isSome then (state, .null, none)
  else if state.pinned then (state, .inArray, some false)
  else
    ({ state with
        heap := state.heap.malloc (memcpy uninitialized state.array 0 0 state.length) },
      .buffer state.heap.next, some true)

/-- The text of the `ASSERT` of `Release<Type>ArrayElements` on an unknown mode. -/
def unexpectedModeMessage : String := "Unexpected value of 'mode' input parameter"

/-- The body of the seven `Release<Type>ArrayElements` functions other than
`ReleaseDoubleArrayElements`.  `none` when the code would read or free a buffer
that is not live. -/
def releaseArrayElements (elems : ElemsPtr) (mode : Jint) (state : ElementsState α) :
    Option (Checked (ElementsState α)) :=
  match elems with
  | .null => some (pure state)
  | .inArray => some (pure state)
  | .buffer id =>
    if mode = 0 ∨ mode = jniCommit then
      (state.heap.buffers id).map fun contents =>
        let written :=
          { state with array := memcpy state.array contents 0 0 state.length, heapWrote := true }
        pure (if mode = 0 then { written with heap := written.heap.free id } else written)
    else if mode = jniAbort then
      (state.heap.buffers id).map fun _ => pure { state with heap := state.heap.free id }
    else some (Checked.assert false unexpectedModeMessage >>= fun _ => pure state)

/-! ## The sixteen element functions

Each element type is given by the bits `memcpy` copies. -/

/-- `GetBooleanArrayElements`. -/
def getBooleanArrayElements : (Int → BitVec 8) → ElementsState (BitVec 8) →
    ElementsState (BitVec 8) × ElemsPtr × Option Bool :=
  getArrayElements

/-- `GetByteArrayElements`. -/
def getByteArrayElements : (Int → BitVec 8) → ElementsState (BitVec 8) →
    ElementsState (BitVec 8) × ElemsPtr × Option Bool :=
  getArrayElements

/-- `GetCharArrayElements`. -/
def getCharArrayElements : (Int → BitVec 16) → ElementsState (BitVec 16) →
    ElementsState (BitVec 16) × ElemsPtr × Option Bool :=
  getArrayElements

/-- `GetShortArrayElements`. -/
def getShortArrayElements : (Int → BitVec 16) → ElementsState (BitVec 16) →
    ElementsState (BitVec 16) × ElemsPtr × Option Bool :=
  getArrayElements

/-- `GetIntArrayElements`. -/
def getIntArrayElements : (Int → BitVec 32) → ElementsState (BitVec 32) →
    ElementsState (BitVec 32) × ElemsPtr × Option Bool :=
  getArrayElements

/-- `GetLongArrayElements`. -/
def getLongArrayElements : (Int → BitVec 64) → ElementsState (BitVec 64) →
    ElementsState (BitVec 64) × ElemsPtr × Option Bool :=
  getArrayElements

/-- `GetFloatArrayElements`. -/
def getFloatArrayElements : (Int → BitVec 32) → ElementsState (BitVec 32) →
    ElementsState (BitVec 32) × ElemsPtr × Option Bool :=
  getArrayElements

/-- `GetDoubleArrayElements`. -/
def getDoubleArrayElements : (Int → BitVec 64) → ElementsState (BitVec 64) →
    ElementsState (BitVec 64) × ElemsPtr × Option Bool :=
  getArrayElements

/-- `ReleaseBooleanArrayElements`. -/
def releaseBooleanArrayElements : ElemsPtr → Jint → ElementsState (BitVec 8) →
    Option (Checked (ElementsState (BitVec 8))) :=
  releaseArrayElements

/-- `ReleaseByteArrayElements`. -/
def releaseByteArrayElements : ElemsPtr → Jint → ElementsState (BitVec 8) →
    Option (Checked (ElementsState (BitVec 8))) :=
  releaseArrayElements

/-- `ReleaseCharArrayElements`. -/
def releaseCharArrayElements : ElemsPtr → Jint → ElementsState (BitVec 16) →
    Option (Checked (ElementsState (BitVec 16))) :=
  releaseArrayElements

/-- `ReleaseShortArrayElements`. -/
def releaseShortArrayElements : ElemsPtr → Jint → ElementsState (BitVec 16) →
    Option (Checked (ElementsState (BitVec 16))) :=
  releaseArrayElements

/-- `ReleaseIntArrayElements`. -/
def releaseIntArrayElements : ElemsPtr → Jint → ElementsState (BitVec 32) →
    Option (Checked (ElementsState (BitVec 32))) :=
  releaseArrayElements

/-- `ReleaseLongArrayElements`. -/
def releaseLongArrayElements : ElemsPtr → Jint → ElementsState (BitVec 64) →
    Option (Checked (ElementsState (BitVec 64))) :=
  releaseArrayElements

/-- `ReleaseFloatArrayElements`. -/
def releaseFloatArrayElements : ElemsPtr → Jint → ElementsState (BitVec 32) →
    Option (Checked (ElementsState (BitVec 32))) :=
  releaseArrayElements

/-- `ReleaseDoubleArrayElements`: the body of the other seven, except that its
modes `0` and `JNI_COMMIT` write the copy back without `gc_heap_wrote_object`. -/
def releaseDoubleArrayElements (elems : ElemsPtr) (mode : Jint)
    (state : ElementsState (BitVec 64)) : Option (Checked (ElementsState (BitVec 64))) :=
  match elems with
  | .null => some (pure state)
  | .inArray => some (pure state)
  | .buffer id =>
    if mode = 0 ∨ mode = jniCommit then
      (state.heap.buffers id).map fun contents =>
        let written := { state with array := memcpy state.array contents 0 0 state.length }
        pure (if mode = 0 then { written with heap := written.heap.free id } else written)
    else if mode = jniAbort then
      (state.heap.buffers id).map fun _ => pure { state with heap := state.heap.free id }
    else some (Checked.assert false unexpectedModeMessage >>= fun _ => pure state)

/-! ## What each call does -/

section

variable (uninitialized : Int → α) (state : ElementsState α)

theorem getArrayElements_of_pinned (noPending : state.pending = none)
    (pinned : state.pinned = true) :
    getArrayElements uninitialized state = (state, .inArray, some false) := by
  simp [getArrayElements, noPending, pinned]

theorem getArrayElements_of_unpinned (noPending : state.pending = none)
    (unpinned : state.pinned = false) :
    getArrayElements uninitialized state =
      ({ state with
          heap := state.heap.malloc (memcpy uninitialized state.array 0 0 state.length) },
        .buffer state.heap.next, some true) := by
  simp [getArrayElements, noPending, unpinned]

end

section

variable (state : ElementsState α)

/-- A pointer into the array is released in every mode, with nothing done and no
assertion failed. -/
theorem releaseArrayElements_inArray (mode : Jint) :
    releaseArrayElements .inArray mode state = some (pure state) := rfl

variable {id : Nat} {contents : Int → α}

theorem releaseArrayElements_zero_of_live (live : state.heap.buffers id = some contents) :
    releaseArrayElements (.buffer id) 0 state =
      some (pure { state with
        array := memcpy state.array contents 0 0 state.length
        heapWrote := true
        heap := state.heap.free id }) := by
  simp [releaseArrayElements, live]

theorem releaseArrayElements_commit_of_live (live : state.heap.buffers id = some contents) :
    releaseArrayElements (.buffer id) jniCommit state =
      some (pure { state with
        array := memcpy state.array contents 0 0 state.length
        heapWrote := true }) := by
  simp [releaseArrayElements, live, jniCommit]

/-- An unknown mode fails the `ASSERT` on any buffer and changes nothing. -/
theorem releaseArrayElements_of_invalid (mode : Jint)
    (invalid : mode ≠ 0 ∧ mode ≠ jniCommit ∧ mode ≠ jniAbort) :
    releaseArrayElements (.buffer id) mode state = some ⟨state, [unexpectedModeMessage]⟩ := by
  simp only [releaseArrayElements]
  rw [if_neg (not_or.mpr ⟨invalid.1, invalid.2.1⟩), if_neg invalid.2.2]
  rfl

end

/-! ## Native code between `Get` and `Release` -/

/-- A store by native code through the pointer it holds, `elems[index] = value`:
into the array for a pointer into it, into the buffer for a copy.  A store
through `NULL` is out of the model and changes nothing. -/
def ElementsState.store (state : ElementsState α) (elems : ElemsPtr) (index : Int)
    (value : α) : ElementsState α :=
  match elems with
  | .null => state
  | .inArray => { state with array := Function.update state.array index value }
  | .buffer id => { state with heap := state.heap.store id index value }

/-- What native code does with the elements before the final `Release`: store
an element, or commit with `Release<Type>ArrayElements` in mode `JNI_COMMIT`. -/
inductive ElementsOp (α : Type) where
  | store (index : Int) (value : α)
  | commit

/-- The operations, one after another, through the pointer `elems`, with
`release` the element type's `Release<Type>ArrayElements`; `none` once a commit
is undefined.  A commit of a live buffer fails no assertion
(`releaseArrayElements_commit_of_live`), so only its state is kept. -/
def runElementsOps
    (release : ElemsPtr → Jint → ElementsState α → Option (Checked (ElementsState α)))
    (elems : ElemsPtr) : List (ElementsOp α) → ElementsState α → Option (ElementsState α)
  | [], state => some state
  | .store index value :: ops, state =>
    runElementsOps release elems ops (state.store elems index value)
  | .commit :: ops, state =>
    (release elems jniCommit state).bind fun committed =>
      runElementsOps release elems ops committed.value

/-- A native method's use of an array's elements, for the seven element types
other than `double`: `Get<Type>ArrayElements`, the operations through the
pointer it returned, and the final `Release<Type>ArrayElements` in `mode`. -/
def elementsSession (uninitialized : Int → α) (ops : List (ElementsOp α)) (mode : Jint)
    (state : ElementsState α) : Option (Checked (ElementsState α)) :=
  let got := getArrayElements uninitialized state
  (runElementsOps releaseArrayElements got.2.1 ops got.1).bind (releaseArrayElements got.2.1 mode)

/-- The same for a `double[]`: `GetDoubleArrayElements`, the operations, and
`ReleaseDoubleArrayElements` for the commits and the final release. -/
def doubleElementsSession (uninitialized : Int → BitVec 64) (ops : List (ElementsOp (BitVec 64)))
    (mode : Jint) (state : ElementsState (BitVec 64)) :
    Option (Checked (ElementsState (BitVec 64))) :=
  let got := getDoubleArrayElements uninitialized state
  (runElementsOps releaseDoubleArrayElements got.2.1 ops got.1).bind
    (releaseDoubleArrayElements got.2.1 mode)

/-! ## What native code means -/

/-- The stores among the operations, in order. -/
def ElementsOp.stores : List (ElementsOp α) → List (Int × α)
  | [] => []
  | .store index value :: ops => (index, value) :: ElementsOp.stores ops
  | .commit :: ops => ElementsOp.stores ops

/-- The stores of `ops` made up to its last commit, after `committed`, and those
made after it, after `uncommitted`. -/
def ElementsOp.commitSplit :
    List (Int × α) → List (Int × α) → List (ElementsOp α) → List (Int × α) × List (Int × α)
  | committed, uncommitted, [] => (committed, uncommitted)
  | committed, uncommitted, .store index value :: ops =>
    ElementsOp.commitSplit committed (uncommitted ++ [(index, value)]) ops
  | committed, uncommitted, .commit :: ops =>
    ElementsOp.commitSplit (committed ++ uncommitted) [] ops

/-- What native code means by its stores: the same stores made straight into
the Java array, one after another. -/
def storeDirect (array : Int → α) (stores : List (Int × α)) : Int → α :=
  stores.foldl (fun array store => Function.update array store.1 store.2) array

/-- Every store names an element of an array of `length` elements. -/
def InRange (length : Nat) (stores : List (Int × α)) : Prop :=
  ∀ store ∈ stores, 0 ≤ store.1 ∧ store.1 < length

instance (length : Nat) (stores : List (Int × α)) : Decidable (InRange length stores) :=
  inferInstanceAs (Decidable (∀ store ∈ stores, 0 ≤ store.1 ∧ store.1 < length))

/-- The two parts of the split hold every store, in order. -/
theorem ElementsOp.commitSplit_append (committed uncommitted : List (Int × α))
    (ops : List (ElementsOp α)) :
    (commitSplit committed uncommitted ops).1 ++ (commitSplit committed uncommitted ops).2 =
      committed ++ uncommitted ++ ElementsOp.stores ops := by
  induction ops generalizing committed uncommitted with
  | nil => simp [commitSplit, stores]
  | cons op ops ih =>
    cases op with
    | store index value => simp [commitSplit, stores, ih]
    | commit => simp [commitSplit, stores, ih]

@[simp] theorem storeDirect_nil (array : Int → α) : storeDirect array [] = array := rfl

@[simp] theorem storeDirect_cons (array : Int → α) (store : Int × α) (stores : List (Int × α)) :
    storeDirect array (store :: stores) =
      storeDirect (Function.update array store.1 store.2) stores := rfl

@[simp] theorem storeDirect_append (array : Int → α) (first second : List (Int × α)) :
    storeDirect array (first ++ second) = storeDirect (storeDirect array first) second :=
  List.foldl_append _ _ _ _

/-- An element that no store names keeps its value. -/
theorem storeDirect_of_forall_ne {array : Int → α} {stores : List (Int × α)} {index : Int}
    (untouched : ∀ store ∈ stores, store.1 ≠ index) :
    storeDirect array stores index = array index := by
  induction stores generalizing array with
  | nil => rfl
  | cons store stores ih =>
    rw [storeDirect_cons, ih fun other member => untouched other (.tail _ member),
      Function.update_noteq (untouched store (.head _)).symm]

/-- What the stores leave at an element depends only on its value before. -/
theorem storeDirect_congr_at {array other : Int → α} {index : Int} (stores : List (Int × α))
    (agree : array index = other index) :
    storeDirect array stores index = storeDirect other stores index := by
  induction stores generalizing array other with
  | nil => exact agree
  | cons store stores ih =>
    apply ih
    by_cases same : index = store.1 <;> simp [Function.update_apply, same, agree]

/-- Inside the copied range, a `memcpy` from the start holds the source's
elements. -/
theorem memcpy_apply_of_lt (target source : Int → α) {length : Nat} {index : Int}
    (lower : 0 ≤ index) (upper : index < length) :
    memcpy target source 0 0 length index = source index := by
  simp [memcpy, lower, upper]

/-- Writing back a copy that has received in-range stores gives the stores made
straight into the array, when the array already holds the earlier of them and
the copy started as the array's elements. -/
theorem memcpy_storeDirect {original copy : Int → α} {length : Nat}
    {committed uncommitted : List (Int × α)}
    (copied : ∀ index : Int, 0 ≤ index → index < length → copy index = original index)
    (inRange : InRange length (committed ++ uncommitted)) :
    memcpy (storeDirect original committed) (storeDirect copy (committed ++ uncommitted)) 0 0
        length = storeDirect original (committed ++ uncommitted) := by
  funext index
  by_cases inside : 0 ≤ index ∧ index < length
  · rw [memcpy, if_pos (by omega), zero_add, sub_zero]
    exact storeDirect_congr_at _ (copied index inside.1 inside.2)
  · have untouched : ∀ store ∈ committed ++ uncommitted, store.1 ≠ index := fun store member => by
      have := inRange store member
      omega
    rw [memcpy, if_neg (by omega), storeDirect_of_forall_ne untouched,
      storeDirect_of_forall_ne fun store member => untouched store (List.mem_append_left _ member)]

/-! ## The operations through a pointer into the array -/

/-- Through a pointer into the array the operations are the stores made straight
into it; commits do nothing. -/
theorem runElementsOps_inArray (ops : List (ElementsOp α)) (state : ElementsState α) :
    runElementsOps releaseArrayElements .inArray ops state =
      some { state with array := storeDirect state.array (ElementsOp.stores ops) } := by
  induction ops generalizing state with
  | nil => rfl
  | cons op ops ih =>
    cases op with
    | store index value => exact ih _
    | commit => exact ih state

/-! ## The operations through a copy -/

section Copy

variable (original copy : Int → α) (id : Nat)

/-- The state during the operations on a copy in buffer `id` of an array that
held `original`: the array holds the stores up to the last commit, and the live
buffer holds `copy` with every store made so far. -/
structure CopyInvariant (committed uncommitted : List (Int × α)) (state : ElementsState α) :
    Prop where
  array : state.array = storeDirect original committed
  buffer : state.heap.buffers id = some (storeDirect copy (committed ++ uncommitted))

/-- What the operations on a copy in buffer `id` leave alone: the pending
exception, the array's length and pinning, the next allocation, and every other
buffer. -/
structure CopyFrame (before after : ElementsState α) : Prop where
  pending : after.pending = before.pending
  length : after.length = before.length
  pinned : after.pinned = before.pinned
  next : after.heap.next = before.heap.next
  otherBuffers : ∀ other, other ≠ id → after.heap.buffers other = before.heap.buffers other

variable {original copy id}

theorem CopyFrame.refl (state : ElementsState α) : CopyFrame id state state :=
  ⟨rfl, rfl, rfl, rfl, fun _ _ => rfl⟩

theorem CopyFrame.trans {first second third : ElementsState α}
    (before : CopyFrame id first second) (after : CopyFrame id second third) :
    CopyFrame id first third :=
  ⟨after.pending.trans before.pending, after.length.trans before.length,
    after.pinned.trans before.pinned, after.next.trans before.next,
    fun other differs =>
      (after.otherBuffers other differs).trans (before.otherBuffers other differs)⟩

variable {committed uncommitted : List (Int × α)} {state : ElementsState α}

/-- A store goes into the copy, and only there. -/
theorem CopyInvariant.store (invariant : CopyInvariant original copy id committed uncommitted state)
    (index : Int) (value : α) :
    CopyInvariant original copy id committed (uncommitted ++ [(index, value)])
        (state.store (.buffer id) index value) ∧
      CopyFrame id state (state.store (.buffer id) index value) := by
  refine ⟨⟨invariant.array, ?_⟩, ⟨rfl, rfl, rfl, rfl, fun other differs => ?_⟩⟩
  · simp [ElementsState.store, invariant.buffer]
  · simp [ElementsState.store, Function.update_noteq differs]

/-- A commit writes every store made so far back to the array and keeps the
buffer live. -/
theorem CopyInvariant.commit
    (invariant : CopyInvariant original copy id committed uncommitted state)
    (copied : ∀ index : Int, 0 ≤ index → index < state.length → copy index = original index)
    (inRange : InRange state.length (committed ++ uncommitted)) :
    ∃ after, releaseArrayElements (.buffer id) jniCommit state = some (pure after) ∧
      CopyInvariant original copy id (committed ++ uncommitted) [] after ∧
      CopyFrame id state after := by
  refine ⟨_, releaseArrayElements_commit_of_live state invariant.buffer, ⟨?_, ?_⟩,
    ⟨rfl, rfl, rfl, rfl, fun _ _ => rfl⟩⟩
  · rw [invariant.array]
    exact memcpy_storeDirect copied inRange
  · simpa using invariant.buffer

/-- The run lemma: stores and commits through a copy keep the invariant, with
the stores split at the last commit. -/
theorem CopyInvariant.run (invariant : CopyInvariant original copy id committed uncommitted state)
    (ops : List (ElementsOp α))
    (copied : ∀ index : Int, 0 ≤ index → index < state.length → copy index = original index)
    (inRange : InRange state.length (committed ++ uncommitted ++ ElementsOp.stores ops)) :
    ∃ after, runElementsOps releaseArrayElements (.buffer id) ops state = some after ∧
      CopyInvariant original copy id (ElementsOp.commitSplit committed uncommitted ops).1
        (ElementsOp.commitSplit committed uncommitted ops).2 after ∧
      CopyFrame id state after := by
  induction ops generalizing committed uncommitted state with
  | nil => exact ⟨state, rfl, invariant, CopyFrame.refl state⟩
  | cons op ops ih =>
    cases op with
    | store index value =>
      obtain ⟨stored, frame⟩ := invariant.store index value
      have sameStores : committed ++ (uncommitted ++ [(index, value)]) ++ ElementsOp.stores ops =
          committed ++ uncommitted ++ ElementsOp.stores (.store index value :: ops) := by
        simp [ElementsOp.stores]
      obtain ⟨after, run, final, rest⟩ := ih stored (frame.length ▸ copied)
        (frame.length ▸ sameStores ▸ inRange)
      exact ⟨after, run, final, frame.trans rest⟩
    | commit =>
      obtain ⟨committedState, release, stored, frame⟩ := invariant.commit copied
        fun store member => inRange store (List.mem_append_left _ member)
      obtain ⟨after, run, final, rest⟩ := ih stored (frame.length ▸ copied)
        (frame.length ▸ (List.append_nil _).symm ▸ inRange)
      refine ⟨after, ?_, final, frame.trans rest⟩
      simp only [runElementsOps, release, Option.some_bind, Checked.value_pure, run]

end Copy

/-! ## Whole sessions -/

/-- An unpinned `int[2]` holding `7` and `8`, with no buffer live. -/
def unpinnedIntPair : ElementsState (BitVec 32) :=
  ⟨none, 2, fun index => if index = 0 then 7#32 else 8#32, false, false,
    ⟨fun _ => none, 0, fun _ _ => rfl⟩⟩

/-- A store to element `1`, a commit, and a store to element `0`. -/
def storeCommitStore : List (ElementsOp (BitVec 32)) := [.store 1 5#32, .commit, .store 0 6#32]

section Session

variable (uninitialized : Int → α) (ops : List (ElementsOp α)) (state : ElementsState α)

/-- On a pinned array a session is the stores made straight into the array;
the final `Release` does nothing in any mode. -/
theorem elementsSession_of_pinned (noPending : state.pending = none)
    (pinned : state.pinned = true) (mode : Jint) :
    elementsSession uninitialized ops mode state =
      some (pure { state with array := storeDirect state.array (ElementsOp.stores ops) }) := by
  simp only [elementsSession, getArrayElements_of_pinned uninitialized state noPending pinned,
    runElementsOps_inArray, Option.some_bind, releaseArrayElements_inArray]

/-- On an unpinned array a session is the final `Release` of a copy in buffer
`next`, after operations that leave the copy invariant with the stores split at
the last commit. -/
theorem elementsSession_of_unpinned (noPending : state.pending = none)
    (unpinned : state.pinned = false) (inRange : InRange state.length (ElementsOp.stores ops)) :
    ∃ after, runElementsOps releaseArrayElements (getArrayElements uninitialized state).2.1 ops
        (getArrayElements uninitialized state).1 = some after ∧
      (∀ mode, elementsSession uninitialized ops mode state =
        releaseArrayElements (.buffer state.heap.next) mode after) ∧
      CopyInvariant state.array (memcpy uninitialized state.array 0 0 state.length)
        state.heap.next (ElementsOp.commitSplit [] [] ops).1
        (ElementsOp.commitSplit [] [] ops).2 after ∧
      after.pending = none ∧ after.length = state.length ∧
      (after.heap.free state.heap.next).buffers = state.heap.buffers := by
  have start : CopyInvariant state.array (memcpy uninitialized state.array 0 0 state.length)
      state.heap.next [] []
      { state with
        heap := state.heap.malloc (memcpy uninitialized state.array 0 0 state.length) } :=
    ⟨rfl, by simp⟩
  obtain ⟨after, run, invariant, frame⟩ :=
    start.run ops (fun _ lower upper => memcpy_apply_of_lt _ _ lower upper) inRange
  have got := getArrayElements_of_unpinned uninitialized state noPending unpinned
  refine ⟨after, by rw [got]; exact run, fun mode => ?_, invariant, frame.pending.trans noPending,
    frame.length, ?_⟩
  · simp only [elementsSession, got, run, Option.some_bind]
  · funext other
    by_cases same : other = state.heap.next
    · simp [same, state.heap.fresh _ le_rfl]
    · simp [same, frame.otherBuffers other same, Function.update_noteq same]

/-- The refinement theorem.  Without an exception pending, and with every store
naming an element of the array, a `Get`, any stores and commits, and a `Release`
in mode `0` fail no assertion and leave the array as the same stores made
straight into it, with the live buffers as before.  The collector is told of the
write exactly when a copy was made. -/
theorem elementsSession_zero (noPending : state.pending = none)
    (inRange : InRange state.length (ElementsOp.stores ops)) :
    ∃ final, elementsSession uninitialized ops 0 state = some (pure final) ∧
      final.array = storeDirect state.array (ElementsOp.stores ops) ∧
      final.heap.buffers = state.heap.buffers ∧
      final.heapWrote = (state.heapWrote || !state.pinned) ∧
      final.pending = none ∧ final.length = state.length := by
  cases pinned : state.pinned
  case true =>
    exact ⟨_, elementsSession_of_pinned uninitialized ops state noPending pinned 0, rfl, rfl,
      by simp, noPending, rfl⟩
  case false =>
    obtain ⟨after, -, session, invariant, pending, length, freed⟩ :=
      elementsSession_of_unpinned uninitialized ops state noPending pinned inRange
    refine ⟨_, (session 0).trans (releaseArrayElements_zero_of_live after invariant.buffer),
      ?_, freed, by simp, pending, length⟩
    have allStores : (ElementsOp.commitSplit [] [] ops).1 ++
        (ElementsOp.commitSplit [] [] ops).2 = ElementsOp.stores ops := by
      simpa using ElementsOp.commitSplit_append [] [] ops
    rw [invariant.array, ← allStores]
    exact memcpy_storeDirect (fun _ lower upper => memcpy_apply_of_lt _ _ lower (length ▸ upper))
      (length ▸ allStores ▸ inRange)

theorem elementsSession_zero_unpinnedIntPair :
    ∃ final, elementsSession (fun _ => 0#32) storeCommitStore 0 unpinnedIntPair =
        some (pure final) ∧
      final.array = storeDirect unpinnedIntPair.array (ElementsOp.stores storeCommitStore) ∧
      final.heap.buffers = unpinnedIntPair.heap.buffers ∧
      final.heapWrote = (unpinnedIntPair.heapWrote || !unpinnedIntPair.pinned) ∧
      final.pending = none ∧ final.length = unpinnedIntPair.length :=
  elementsSession_zero (fun _ => 0#32) storeCommitStore unpinnedIntPair rfl (by decide)

/-- A mode other than `0`, `JNI_COMMIT` and `JNI_ABORT` is caught by the
`ASSERT` only on a copy, and the final `Release` does nothing else: the session
ends in the state `after` the operations left, with the array and the
collector's flag as they were.  On a copy the array holds only the committed
stores and the buffer stays live, so a release build leaks it; on a pinned array
the `Release` does nothing at all. -/
theorem elementsSession_invalidMode (noPending : state.pending = none)
    (inRange : InRange state.length (ElementsOp.stores ops)) (mode : Jint)
    (invalid : mode ≠ 0 ∧ mode ≠ jniCommit ∧ mode ≠ jniAbort) :
    ∃ after, runElementsOps releaseArrayElements (getArrayElements uninitialized state).2.1 ops
        (getArrayElements uninitialized state).1 = some after ∧
      elementsSession uninitialized ops mode state =
        some ⟨after, if state.pinned then [] else [unexpectedModeMessage]⟩ ∧
      after.array = storeDirect state.array
        (if state.pinned then ElementsOp.stores ops else (ElementsOp.commitSplit [] [] ops).1) ∧
      (after.heap.buffers state.heap.next).isSome = !state.pinned := by
  cases pinned : state.pinned
  case true =>
    refine ⟨_, ?_, elementsSession_of_pinned uninitialized ops state noPending pinned mode, by simp,
      by simp [state.heap.fresh _ le_rfl]⟩
    rw [getArrayElements_of_pinned uninitialized state noPending pinned, runElementsOps_inArray]
  case false =>
    obtain ⟨after, run, session, invariant, -⟩ :=
      elementsSession_of_unpinned uninitialized ops state noPending pinned inRange
    exact ⟨after, run, (session mode).trans (releaseArrayElements_of_invalid after mode invalid),
      by simpa using invariant.array, by simp [invariant.buffer]⟩

theorem elementsSession_invalidMode_unpinnedIntPair :
    ∃ after, runElementsOps releaseArrayElements
        (getArrayElements (fun _ => 0#32) unpinnedIntPair).2.1 storeCommitStore
        (getArrayElements (fun _ => 0#32) unpinnedIntPair).1 = some after ∧
      elementsSession (fun _ => 0#32) storeCommitStore 3#32 unpinnedIntPair =
        some ⟨after, if unpinnedIntPair.pinned then [] else [unexpectedModeMessage]⟩ ∧
      after.array = storeDirect unpinnedIntPair.array
        (if unpinnedIntPair.pinned then ElementsOp.stores storeCommitStore
          else (ElementsOp.commitSplit [] [] storeCommitStore).1) ∧
      (after.heap.buffers unpinnedIntPair.heap.next).isSome = !unpinnedIntPair.pinned :=
  elementsSession_invalidMode (fun _ => 0#32) storeCommitStore unpinnedIntPair rfl (by decide) 3#32
    (by decide)

end Session

/-! ## `ReleaseDoubleArrayElements` -/

section Double

variable (elems : ElemsPtr) (state : ElementsState (BitVec 64)) (heapWrote : Bool)

/-- A store does not read the collector's flag. -/
theorem ElementsState.store_heapWrote (index : Int) (value : BitVec 64) :
    { state with heapWrote := heapWrote }.store elems index value =
      { state.store elems index value with heapWrote := heapWrote } := by
  cases elems <;> rfl

/-- On every pointer and in every mode `ReleaseDoubleArrayElements` does what
the shared body does, and leaves the collector's flag as it found it. -/
theorem releaseDoubleArrayElements_eq (mode : Jint) :
    releaseDoubleArrayElements elems mode { state with heapWrote := heapWrote } =
      (releaseArrayElements elems mode state).map fun released =>
        ⟨{ released.value with heapWrote := heapWrote }, released.failed⟩ := by
  cases elems with
  | null | inArray => rfl
  | buffer id =>
    simp only [releaseDoubleArrayElements, releaseArrayElements]
    split_ifs <;> cases state.heap.buffers id <;> rfl

/-- The run lemma: the operations through `ReleaseDoubleArrayElements` are those
through the shared body, with the collector's flag as it was. -/
theorem runElementsOps_double (ops : List (ElementsOp (BitVec 64))) :
    runElementsOps releaseDoubleArrayElements elems ops { state with heapWrote := heapWrote } =
      (runElementsOps releaseArrayElements elems ops state).map fun after =>
        { after with heapWrote := heapWrote } := by
  induction ops generalizing state with
  | nil => rfl
  | cons op ops ih =>
    cases op with
    | store index value =>
      simp only [runElementsOps, ElementsState.store_heapWrote, ih]
    | commit =>
      simp only [runElementsOps, releaseDoubleArrayElements_eq, Option.bind_map]
      cases releaseArrayElements elems jniCommit state <;> simp [ih]

/-- `ReleaseDoubleArrayElements` lacks only the `gc_heap_wrote_object` of the
other seven.  A session on a `double[]` ends as the session through their shared
body, after any operations and in every mode, except that the collector's flag
keeps its value from before the session: on a copy, modes `0` and `JNI_COMMIT`
write the array without telling the collector. -/
theorem doubleElementsSession_eq (uninitialized : Int → BitVec 64)
    (ops : List (ElementsOp (BitVec 64))) (mode : Jint) :
    doubleElementsSession uninitialized ops mode state =
      (elementsSession uninitialized ops mode state).map fun final =>
        ⟨{ final.value with heapWrote := state.heapWrote }, final.failed⟩ := by
  have keeps : { (getArrayElements uninitialized state).1 with heapWrote := state.heapWrote } =
      (getArrayElements uninitialized state).1 := by
    unfold getArrayElements
    split_ifs <;> rfl
  simp only [doubleElementsSession, elementsSession, getDoubleArrayElements]
  conv_lhs => rw [← keeps, runElementsOps_double]
  cases runElementsOps releaseArrayElements _ ops _ <;> simp [releaseDoubleArrayElements_eq]

end Double

end Jni
end Drlvm
