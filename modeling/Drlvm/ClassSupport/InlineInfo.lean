import Mathlib

/-!
# The registry of inlined methods

`InlineInfo` records the methods inlined into a compiled method: `add` appends
an entry to `_entries`, and `send_compiled_method_load_event` sends one JVMTI
compiled-method-load event for each entry, in order.  Both hold `_lock` for
their whole body through an `LMAutoUnlock`.

The model runs any number of threads, each at some point of one of the two
functions, and lets any enabled thread take its next step.  Over every run, the
lock is held by exactly the thread that is inside a body, and the events sent
are those of a run in which each call is atomic: a send reports every entry
added before it took the lock, once each and in order of addition, whatever
method it is called with.  Nor can any run deadlock: from every world it
reaches, the threads inside the two functions all return by steps of their own,
the loop of a send ending because no entry is pushed while it holds the lock.
-/

namespace Drlvm
namespace InlineInfo

/-- An `InlineInfo::Entry`: an inlined method, the size and address of its
code, and its address-location map with the map's length.  `Pointer` stands for
the `void*` code address and the `AddrLocation*` map alike. -/
structure Entry (Method Pointer : Type) where
  method : Method
  codeSize : BitVec 32
  codeAddr : Pointer
  mapLength : BitVec 32
  addrLocationMap : Pointer
  deriving DecidableEq

variable {Method Pointer : Type}

/-- Where a thread is in a call of `add` or `send_compiled_method_load_event`. -/
inductive Pc (Method Pointer : Type) where
  /-- In neither function. -/
  | idle
  /-- In `add`, with `entry` built, before `LMAutoUnlock au(& _lock)`. -/
  | addWaiting (entry : Entry Method Pointer)
  /-- In `add`, holding `_lock`, before `_entries.push_back(entry)`. -/
  | adding (entry : Entry Method Pointer)
  /-- In `add`, holding `_lock`, at the end of the body. -/
  | added
  /-- In `send_compiled_method_load_event`, before `LMAutoUnlock au(& _lock)`. -/
  | sendWaiting
  /-- In the loop of `send_compiled_method_load_event`, holding `_lock`, with the
  iterator at `index`. -/
  | sending (index : Nat)

/-- The points inside a body, where the thread holds `_lock`. -/
def Pc.holdsLock : Pc Method Pointer → Bool
  | .adding _ | .added | .sending _ => true
  | _ => false

/-- What a thread does next. -/
inductive Action (Method Pointer : Type) where
  /-- Call `add`: build the entry. -/
  | callAdd (entry : Entry Method Pointer)
  /-- Call `send_compiled_method_load_event(method)`. -/
  | callSend (method : Method)
  /-- `LMAutoUnlock au(& _lock)`: take the lock, or wait while another thread has it. -/
  | lock
  /-- `_entries.push_back(entry)`. -/
  | pushBack
  /-- One turn of the loop: send the event of the entry at the iterator,
  `jvmti_send_region_compiled_method_load_event(e.method, ..., NULL)`, and advance
  the iterator. -/
  | sendNext
  /-- Leave the body, after the push or once the loop's test
  `i != _entries.end()` fails: `au` goes out of scope and releases the lock. -/
  | unlock

/-- The registry, the lock and the threads.  `sent` logs the events sent, each
with its sender; an event carries the five fields of its entry, its sixth
argument being always `NULL`. -/
structure World (Method Pointer : Type) where
  entries : List (Entry Method Pointer)
  owner : Option Nat
  pc : Nat → Pc Method Pointer
  sent : List (Nat × Entry Method Pointer)

/-- A new `InlineInfo`, `_entries(0)`, with no thread in it. -/
def World.init : World Method Pointer := ⟨[], none, fun _ => .idle, []⟩

/-- One step of `thread`, or `none` when the step is not enabled. -/
def step (w : World Method Pointer) (thread : Nat) :
    Action Method Pointer → Option (World Method Pointer)
  | .callAdd entry =>
    match w.pc thread with
    | .idle => some { w with pc := Function.update w.pc thread (.addWaiting entry) }
    | _ => none
  | .callSend _ =>
    match w.pc thread with
    | .idle => some { w with pc := Function.update w.pc thread .sendWaiting }
    | _ => none
  | .lock =>
    match w.owner, w.pc thread with
    | none, .addWaiting entry =>
      some { w with owner := some thread, pc := Function.update w.pc thread (.adding entry) }
    | none, .sendWaiting =>
      some { w with owner := some thread, pc := Function.update w.pc thread (.sending 0) }
    | _, _ => none
  | .pushBack =>
    match w.pc thread with
    | .adding entry =>
      some { w with entries := w.entries ++ [entry], pc := Function.update w.pc thread .added }
    | _ => none
  | .sendNext =>
    match w.pc thread with
    | .sending index =>
      if inside : index < w.entries.length then
        some { w with
          sent := w.sent ++ [(thread, w.entries[index])]
          pc := Function.update w.pc thread (.sending (index + 1)) }
      else none
    | _ => none
  | .unlock =>
    match w.pc thread with
    | .added => some { w with owner := none, pc := Function.update w.pc thread .idle }
    | .sending index =>
      if index = w.entries.length then
        some { w with owner := none, pc := Function.update w.pc thread .idle }
      else none
    | _ => none

/-- The threads take the labelled steps in order; `none` once a step is not
enabled. -/
def run : World Method Pointer → List (Nat × Action Method Pointer) →
    Option (World Method Pointer)
  | w, [] => some w
  | w, (thread, action) :: labels => (step w thread action).bind fun next => run next labels

/-- A thread waits at the lock while another holds it. -/
example : run (World.init : World Nat Nat)
    [(0, .callSend 0), (1, .callSend 0), (0, .lock), (1, .lock)] = none := rfl

/-! ## The registry made atomic -/

/-- What the registry is for: the entries and event logs of runs in which
`add` and `send_compiled_method_load_event` are atomic.  An atomic send reports
every entry added so far, in order. -/
inductive Atomic : List (Entry Method Pointer) → List (Nat × Entry Method Pointer) → Prop
  | init : Atomic [] []
  | add {entries sent} (entry : Entry Method Pointer) :
      Atomic entries sent → Atomic (entries ++ [entry]) sent
  | send {entries sent} (thread : Nat) :
      Atomic entries sent → Atomic entries (sent ++ entries.map fun entry => (thread, entry))

/-- An atomic run sends events only of entries added. -/
theorem Atomic.mem_entries {entries : List (Entry Method Pointer)}
    {sent : List (Nat × Entry Method Pointer)} (atomic : Atomic entries sent) :
    ∀ event ∈ sent, event.2 ∈ entries := by
  induction atomic with
  | init => exact fun _ none => absurd none (List.not_mem_nil _)
  | add entry _ ih => exact fun event member => List.mem_append_left _ (ih event member)
  | send thread _ ih =>
    intro event member
    rcases List.mem_append.mp member with earlier | reported
    · exact ih event earlier
    · obtain ⟨entry, added, rfl⟩ := List.mem_map.mp reported
      exact added

/-! ## Every run refines the atomic registry -/

/-- The events a thread at `pc` has sent in the loop of its current call. -/
def Pc.inFlight (thread : Nat) (entries : List (Entry Method Pointer)) :
    Pc Method Pointer → List (Nat × Entry Method Pointer)
  | .sending index => (entries.take index).map fun entry => (thread, entry)
  | _ => []

/-- The events of the send in progress, if the lock holder is in its loop. -/
def inFlight (w : World Method Pointer) : List (Nat × Entry Method Pointer) :=
  match w.owner with
  | some thread => (w.pc thread).inFlight thread w.entries
  | none => []

/-- What every run keeps: the lock is held by exactly the thread inside a body,
an iterator stays within the entries, and the log is that of an atomic run
followed by the events of the send in progress. -/
structure Invariant (w : World Method Pointer) : Prop where
  exclusive : ∀ thread, w.owner = some thread ↔ (w.pc thread).holdsLock
  inRange : ∀ thread index, w.pc thread = .sending index → index ≤ w.entries.length
  linearizable : ∃ settled, Atomic w.entries settled ∧ w.sent = settled ++ inFlight w

/-- A new `InlineInfo` has the invariant. -/
theorem invariant_init : Invariant (World.init : World Method Pointer) :=
  ⟨fun _ => by simp [World.init, Pc.holdsLock], (fun _ _ idle => nomatch idle),
    ⟨[], Atomic.init, rfl⟩⟩

section

variable {w : World Method Pointer} {thread : Nat}

/-- Moving `thread` to `next` keeps the lock exclusive when the new owner is
`thread` exactly if `next` is inside a body, and is otherwise the old one. -/
theorem exclusive_update (inv : Invariant w) {next : Pc Method Pointer} {owner : Option Nat}
    (ownerAt : owner = some thread ↔ next.holdsLock)
    (others : ∀ other ≠ thread, owner = some other ↔ w.owner = some other) :
    ∀ other, owner = some other ↔ (Function.update w.pc thread next other).holdsLock := by
  intro other
  by_cases same : other = thread
  · rw [same, Function.update_same, ownerAt]
  · rw [Function.update_noteq same, others other same, inv.exclusive]

/-- Moving `thread` to `next` keeps the iterators in range when it is one itself
and the entries do not shrink. -/
theorem inRange_update (inv : Invariant w) {next : Pc Method Pointer}
    {entries : List (Entry Method Pointer)} (grows : w.entries.length ≤ entries.length)
    (nextInRange : ∀ index, next = .sending index → index ≤ entries.length) :
    ∀ other index, Function.update w.pc thread next other = .sending index →
      index ≤ entries.length := by
  intro other index at_
  by_cases same : other = thread
  · rw [same, Function.update_same] at at_
    exact nextInRange index at_
  · rw [Function.update_noteq same] at at_
    exact (inv.inRange other index at_).trans grows

/-- The lock holder is `thread` when `thread` is inside a body. -/
theorem owner_of_holdsLock (inv : Invariant w) (holds : (w.pc thread).holdsLock = true) :
    w.owner = some thread :=
  (inv.exclusive thread).mpr holds

/-- A thread outside the bodies calls `add` or `send_compiled_method_load_event`. -/
theorem Invariant.enter (inv : Invariant w) (idle : w.pc thread = .idle)
    {next : Pc Method Pointer} (outside : next.holdsLock = false)
    (notLoop : ∀ index, next ≠ .sending index) :
    Invariant { w with pc := Function.update w.pc thread next } := by
  have notOwner : w.owner ≠ some thread := fun owns => by
    simpa [idle, Pc.holdsLock] using (inv.exclusive thread).mp owns
  refine ⟨exclusive_update inv (by simp [outside, notOwner]) fun _ _ => Iff.rfl,
    inRange_update inv le_rfl fun index at_ => absurd at_ (notLoop index), ?_⟩
  obtain ⟨settled, atomic, log⟩ := inv.linearizable
  refine ⟨settled, atomic, log.trans ?_⟩
  unfold inFlight
  cases owner : w.owner with
  | none => rfl
  | some other =>
    have different : other ≠ thread := fun same => notOwner (same ▸ owner)
    simp only [Function.update_noteq different]

/-- A thread takes the free lock and enters a body, with nothing sent yet. -/
theorem Invariant.lock (inv : Invariant w) (free : w.owner = none) {next : Pc Method Pointer}
    (inside : next.holdsLock = true) (nothingSent : next.inFlight thread w.entries = [])
    (nextInRange : ∀ index, next = .sending index → index ≤ w.entries.length) :
    Invariant { w with owner := some thread, pc := Function.update w.pc thread next } := by
  refine ⟨exclusive_update inv (by simp [inside]) fun other different => ?_,
    inRange_update inv le_rfl nextInRange, ?_⟩
  · simp [free, Ne.symm different]
  · obtain ⟨settled, atomic, log⟩ := inv.linearizable
    refine ⟨settled, atomic, ?_⟩
    show w.sent = settled ++ (Function.update w.pc thread next thread).inFlight thread w.entries
    rw [Function.update_same, nothingSent, log, inFlight, free]

/-- The lock holder pushes its entry. -/
theorem Invariant.pushBack (inv : Invariant w) {entry : Entry Method Pointer}
    (adding : w.pc thread = .adding entry) :
    Invariant
      { w with entries := w.entries ++ [entry], pc := Function.update w.pc thread .added } := by
  have owns := owner_of_holdsLock inv (by rw [adding]; rfl)
  refine ⟨exclusive_update inv (by simp [owns, Pc.holdsLock]) fun _ _ => Iff.rfl,
    inRange_update inv (by simp) nofun, ?_⟩
  obtain ⟨settled, atomic, log⟩ := inv.linearizable
  refine ⟨settled, atomic.add entry, ?_⟩
  simp only [log, inFlight, owns, adding, Function.update_same, Pc.inFlight]

/-- The lock holder sends the event of the entry at its iterator. -/
theorem Invariant.sendNext (inv : Invariant w) {index : Nat}
    (sending : w.pc thread = .sending index) (inside : index < w.entries.length) :
    Invariant { w with
      sent := w.sent ++ [(thread, w.entries[index])]
      pc := Function.update w.pc thread (.sending (index + 1)) } := by
  have owns := owner_of_holdsLock inv (by rw [sending]; rfl)
  refine ⟨exclusive_update inv (by simp [owns, Pc.holdsLock]) fun _ _ => Iff.rfl,
    inRange_update inv le_rfl fun _ same => ?_, ?_⟩
  · cases same
    exact inside
  · obtain ⟨settled, atomic, log⟩ := inv.linearizable
    refine ⟨settled, atomic, ?_⟩
    simp only [log, inFlight, owns, sending, Function.update_same, Pc.inFlight, List.append_assoc,
      List.take_succ, List.getElem?_eq_getElem inside, Option.toList_some, List.map_append,
      List.map_cons, List.map_nil]

/-- The lock holder leaves its body when the log is that of an atomic run. -/
theorem Invariant.unlock (inv : Invariant w) (owns : w.owner = some thread)
    (settledAll : Atomic w.entries w.sent) :
    Invariant { w with owner := none, pc := Function.update w.pc thread .idle } := by
  refine ⟨exclusive_update inv (by simp [Pc.holdsLock]) fun other different => ?_,
    inRange_update inv le_rfl nofun, ⟨w.sent, settledAll, (List.append_nil _).symm⟩⟩
  simp [owns, Ne.symm different]

/-- Every enabled step keeps the invariant. -/
theorem invariant_step (inv : Invariant w) {action : Action Method Pointer}
    {next : World Method Pointer} (stepped : step w thread action = some next) :
    Invariant next := by
  cases action with
  | callAdd entry =>
    simp only [step] at stepped
    split at stepped <;> cases stepped
    exact inv.enter ‹_› rfl nofun
  | callSend method =>
    simp only [step] at stepped
    split at stepped <;> cases stepped
    exact inv.enter ‹_› rfl nofun
  | lock =>
    simp only [step] at stepped
    split at stepped <;> cases stepped
    · exact inv.lock ‹_› rfl rfl nofun
    · exact inv.lock ‹_› rfl rfl fun _ same => by cases same; exact Nat.zero_le _
  | pushBack =>
    simp only [step] at stepped
    split at stepped <;> cases stepped
    exact inv.pushBack ‹_›
  | sendNext =>
    simp only [step] at stepped
    split at stepped
    · split at stepped <;> cases stepped
      exact inv.sendNext ‹_› ‹_›
    · cases stepped
  | unlock =>
    obtain ⟨settled, atomic, log⟩ := inv.linearizable
    simp only [step] at stepped
    split at stepped
    · rename_i added
      cases stepped
      have owns := owner_of_holdsLock inv (by rw [added]; rfl)
      refine inv.unlock owns ?_
      rw [log]
      simpa only [inFlight, owns, added, Pc.inFlight, List.append_nil] using atomic
    · rename_i sending
      split at stepped <;> cases stepped
      have owns := owner_of_holdsLock inv (by rw [sending]; rfl)
      refine inv.unlock owns ?_
      rw [log]
      simpa only [inFlight, owns, sending, Pc.inFlight, ‹_ = w.entries.length›, List.take_length]
        using atomic.send thread
    · cases stepped

/-- Every run keeps the invariant. -/
theorem invariant_run (inv : Invariant w) {labels : List (Nat × Action Method Pointer)}
    {final : World Method Pointer} (reached : run w labels = some final) : Invariant final := by
  induction labels generalizing w with
  | nil =>
    cases reached
    exact inv
  | cons label labels ih =>
    obtain ⟨thread, action⟩ := label
    obtain ⟨next, stepped, rest⟩ := Option.bind_eq_some.mp reached
    exact ih (invariant_step inv stepped) rest

end

/-- An event of the send in progress is of an entry added. -/
theorem mem_inFlight {w : World Method Pointer} {event : Nat × Entry Method Pointer}
    (member : event ∈ inFlight w) : event.2 ∈ w.entries := by
  unfold inFlight at member
  split at member
  · rename_i thread _
    cases pc : w.pc thread with
    | sending index =>
      rw [pc, Pc.inFlight] at member
      obtain ⟨entry, taken, rfl⟩ := List.mem_map.mp member
      exact List.mem_of_mem_take taken
    | _ => simp [pc, Pc.inFlight] at member
  · exact absurd member (List.not_mem_nil _)

/-- Over every interleaving of calls of `add` and
`send_compiled_method_load_event` by any threads, from a new `InlineInfo`: the
lock is held by exactly the thread inside a body; the events sent are those of
a run of atomic calls, each send reporting every entry added before it, in
order, followed by the events of the send in progress; and every event is of
an entry added. -/
theorem run_refinesAtomic (labels : List (Nat × Action Method Pointer))
    {w : World Method Pointer} (reached : run World.init labels = some w) :
    (∀ thread, w.owner = some thread ↔ (w.pc thread).holdsLock) ∧
      (∃ settled, Atomic w.entries settled ∧ w.sent = settled ++ inFlight w) ∧
      ∀ event ∈ w.sent, event.2 ∈ w.entries := by
  have inv := invariant_run invariant_init reached
  obtain ⟨settled, atomic, log⟩ := inv.linearizable
  refine ⟨inv.exclusive, inv.linearizable, fun event member => ?_⟩
  rcases List.mem_append.mp (log ▸ member) with earlier | current
  · exact atomic.mem_entries event earlier
  · exact mem_inFlight current

/-- An entry for a method `1` with 64 bytes of code at `0x1000`. -/
def entry1 : Entry Nat Nat := ⟨1, 64#32, 0x1000, 2#32, 0x2000⟩

/-- An entry for a method `2` with 32 bytes of code at `0x1040`. -/
def entry2 : Entry Nat Nat := ⟨2, 32#32, 0x1040, 1#32, 0x2010⟩

/-- Thread `0` adds `entry1`; thread `1` calls a send and takes the lock; thread
`0` calls `add` for `entry2` and waits; thread `1` reports `entry1`. -/
def interleaved : List (Nat × Action Nat Nat) :=
  [(0, .callAdd entry1), (1, .callSend 7), (0, .lock), (0, .pushBack), (0, .unlock),
    (1, .lock), (0, .callAdd entry2), (1, .sendNext)]

theorem run_refinesAtomic_interleaved :
    let w := (run World.init interleaved).getD World.init
    (∀ thread, w.owner = some thread ↔ (w.pc thread).holdsLock) ∧
      (∃ settled, Atomic w.entries settled ∧ w.sent = settled ++ inFlight w) ∧
      ∀ event ∈ w.sent, event.2 ∈ w.entries :=
  run_refinesAtomic interleaved rfl

/-! ## Every pending call returns -/

/-- The actions that start a call. -/
def Action.isCall : Action Method Pointer → Bool
  | .callAdd _ | .callSend _ => true
  | _ => false

/-- Running one list of steps after another. -/
theorem run_append (w : World Method Pointer) (first second : List (Nat × Action Method Pointer)) :
    run w (first ++ second) = (run w first).bind fun next => run next second := by
  induction first generalizing w with
  | nil => rfl
  | cons label first ih => simp only [List.cons_append, run, List.append_eq, ih, Option.bind_assoc]

/-- A step of `thread` leaves every other thread where it is. -/
theorem pc_step_of_ne {w next : World Method Pointer} {thread other : Nat}
    {action : Action Method Pointer} (stepped : step w thread action = some next)
    (different : other ≠ thread) : next.pc other = w.pc other := by
  cases action <;> simp only [step] at stepped <;> (repeat' split at stepped) <;>
    cases stepped <;> exact Function.update_noteq different _ _

/-- A run leaves every thread with no step in it where it is. -/
theorem pc_run_of_not_mem {w final : World Method Pointer}
    {labels : List (Nat × Action Method Pointer)} (reached : run w labels = some final)
    {other : Nat} (absent : other ∉ labels.map Prod.fst) : final.pc other = w.pc other := by
  induction labels generalizing w with
  | nil =>
    cases reached
    rfl
  | cons label labels ih =>
    obtain ⟨next, stepped, rest⟩ := Option.bind_eq_some.mp reached
    simp only [List.map_cons, List.mem_cons, not_or] at absent
    rw [ih rest absent.2, pc_step_of_ne stepped absent.1]

/-- The lock holder in the loop of a send runs the loop to its end and leaves. -/
theorem run_sendRest {w : World Method Pointer} {thread index : Nat}
    (sending : w.pc thread = .sending index) (inRange : index ≤ w.entries.length) :
    ∃ quiet, run w (List.replicate (w.entries.length - index) (thread, .sendNext) ++
      [(thread, .unlock)]) = some quiet ∧ quiet.owner = none ∧ quiet.pc thread = .idle := by
  obtain ⟨count, left⟩ : ∃ count, w.entries.length - index = count := ⟨_, rfl⟩
  rw [left]
  induction count generalizing w index with
  | zero =>
    have last : index = w.entries.length := by omega
    simp [run, step, sending, last]
  | succ count ih =>
    have inside : index < w.entries.length := by omega
    simp only [List.replicate_succ, List.cons_append, run, step, sending, dif_pos inside,
      Option.some_bind]
    exact ih (Function.update_same _ _ _) inside (by simp only; omega)

/-- The steps of `run_sendRest` are of its thread, and none is a call. -/
theorem mem_sendRest {thread count : Nat} {label : Nat × Action Method Pointer}
    (member : label ∈ List.replicate count (thread, .sendNext) ++ [(thread, .unlock)]) :
    label.1 = thread ∧ label.2.isCall = false := by
  rcases List.mem_append.mp member with looping | leaving
  · rw [(List.mem_replicate.mp looping).2]
    exact ⟨rfl, rfl⟩
  · rw [List.mem_singleton.mp leaving]
    exact ⟨rfl, rfl⟩

/-- A thread that holds the lock, or waits for it while no thread holds it,
returns from its call by steps of its own, none of them a call, and leaves the
lock free. -/
theorem run_finish {w : World Method Pointer} (thread : Nat) (inv : Invariant w)
    (lockFree : w.owner = none ∨ w.owner = some thread) :
    ∃ more : List (Nat × Action Method Pointer),
      (∀ label ∈ more, label.1 = thread ∧ label.2.isCall = false) ∧
      ∃ quiet, run w more = some quiet ∧ quiet.owner = none ∧ quiet.pc thread = .idle := by
  have free : (w.pc thread).holdsLock = false → w.owner = none := fun outside =>
    lockFree.resolve_right fun owns =>
      absurd ((inv.exclusive thread).mp owns) (by rw [outside]; exact Bool.false_ne_true)
  cases pc : w.pc thread with
  | idle => exact ⟨[], nofun, w, rfl, free (by rw [pc]; rfl), pc⟩
  | addWaiting entry =>
    refine ⟨[(thread, .lock), (thread, .pushBack), (thread, .unlock)],
      by simp [Action.isCall], ?_⟩
    simp [run, step, pc, free (by rw [pc]; rfl)]
  | adding entry =>
    refine ⟨[(thread, .pushBack), (thread, .unlock)], by simp [Action.isCall], ?_⟩
    simp [run, step, pc]
  | added =>
    refine ⟨[(thread, .unlock)], by simp [Action.isCall], ?_⟩
    simp [run, step, pc]
  | sendWaiting =>
    obtain ⟨quiet, drained, released, idle⟩ := run_sendRest
      (w := { w with owner := some thread, pc := Function.update w.pc thread (.sending 0) })
      (Function.update_same _ _ _) (Nat.zero_le _)
    refine ⟨(thread, .lock) :: (List.replicate (w.entries.length - 0) (thread, .sendNext) ++
      [(thread, .unlock)]), fun label member => ?_, quiet, ?_, released, idle⟩
    · rcases List.mem_cons.mp member with locking | rest
      · rw [locking]
        exact ⟨rfl, rfl⟩
      · exact mem_sendRest rest
    · simp only [run, step, pc, free (by rw [pc]; rfl), Option.some_bind]
      exact drained
  | sending index =>
    obtain ⟨quiet, drained, released, idle⟩ := run_sendRest pc (inv.inRange thread index pc)
    exact ⟨_, fun _ => mem_sendRest, quiet, drained, released, idle⟩

/-- With the lock free, the threads of `threads` return from their calls one
after another, each by steps of its own, none of them a call. -/
theorem run_drainThreads {w : World Method Pointer} (inv : Invariant w) (free : w.owner = none)
    (threads : List Nat) :
    ∃ more : List (Nat × Action Method Pointer),
      (∀ label ∈ more, label.1 ∈ threads ∧ label.2.isCall = false) ∧
      ∃ quiet, run w more = some quiet ∧ quiet.owner = none ∧
        ∀ thread ∈ threads, quiet.pc thread = .idle := by
  induction threads generalizing w with
  | nil => exact ⟨[], nofun, w, rfl, free, nofun⟩
  | cons thread threads ih =>
    obtain ⟨first, firstLabels, next, ranFirst, nextFree, nextIdle⟩ :=
      run_finish thread inv (Or.inl free)
    obtain ⟨rest, restLabels, quiet, ranRest, quietFree, quietIdle⟩ :=
      ih (invariant_run inv ranFirst) nextFree
    refine ⟨first ++ rest, fun label member => ?_, quiet,
      by rw [run_append, ranFirst, Option.some_bind, ranRest], quietFree, fun other member => ?_⟩
    · rcases List.mem_append.mp member with early | late
      · obtain ⟨same, notCall⟩ := firstLabels label early
        exact ⟨same ▸ List.mem_cons_self _ _, notCall⟩
      · exact ⟨List.mem_cons_of_mem _ (restLabels label late).1, (restLabels label late).2⟩
    · by_cases later : other ∈ threads
      · exact quietIdle other later
      · have same : other = thread := (List.mem_cons.mp member).resolve_right later
        subst same
        rw [pc_run_of_not_mem ranRest fun listed => ?_, nextIdle]
        obtain ⟨label, labelIn, rfl⟩ := List.mem_map.mp listed
        exact later (restLabels label labelIn).1

/-- From every world reachable from a new `InlineInfo`, the threads inside
`add` or `send_compiled_method_load_event`, holding the lock or waiting for it,
all return by steps of their own, none of them a new call: no interleaving
deadlocks, and the loop of every send ends. -/
theorem run_drains (labels : List (Nat × Action Method Pointer)) {w : World Method Pointer}
    (reached : run World.init labels = some w) :
    ∃ more : List (Nat × Action Method Pointer), (∀ label ∈ more, label.2.isCall = false) ∧
      ∃ quiet, run w more = some quiet ∧ quiet.owner = none ∧
        ∀ thread, quiet.pc thread = .idle := by
  have inv := invariant_run invariant_init reached
  have outside : ∀ thread ∉ labels.map Prod.fst, w.pc thread = .idle := fun thread absent =>
    pc_run_of_not_mem reached absent
  obtain ⟨first, firstLabels, released, ranFirst, free⟩ :
      ∃ first : List (Nat × Action Method Pointer),
        (∀ label ∈ first, label.1 ∈ labels.map Prod.fst ∧ label.2.isCall = false) ∧
        ∃ released, run w first = some released ∧ released.owner = none := by
    cases owner : w.owner with
    | none => exact ⟨[], nofun, w, rfl, owner⟩
    | some holder =>
      have listed : holder ∈ labels.map Prod.fst := by
        by_contra absent
        have holds := (inv.exclusive holder).mp owner
        rw [outside holder absent] at holds
        exact Bool.false_ne_true holds
      obtain ⟨first, firstLabels, released, ranFirst, free, -⟩ :=
        run_finish holder inv (Or.inr owner)
      exact ⟨first, fun label member => ⟨(firstLabels label member).1 ▸ listed,
        (firstLabels label member).2⟩, released, ranFirst, free⟩
  obtain ⟨more, moreLabels, quiet, ranMore, quietFree, quietIdle⟩ :=
    run_drainThreads (invariant_run inv ranFirst) free (labels.map Prod.fst)
  have ran : run w (first ++ more) = some quiet := by
    rw [run_append, ranFirst, Option.some_bind, ranMore]
  have listedLabels : ∀ label ∈ first ++ more,
      label.1 ∈ labels.map Prod.fst ∧ label.2.isCall = false := fun label member =>
    (List.mem_append.mp member).elim (firstLabels label) (moreLabels label)
  refine ⟨first ++ more, fun label member => (listedLabels label member).2, quiet, ran, quietFree,
    fun thread => ?_⟩
  by_cases listed : thread ∈ labels.map Prod.fst
  · exact quietIdle thread listed
  · rw [pc_run_of_not_mem ran fun inRun => ?_, outside thread listed]
    obtain ⟨label, member, rfl⟩ := List.mem_map.mp inRun
    exact listed (listedLabels label member).1

theorem run_drains_interleaved :
    let w := (run World.init interleaved).getD World.init
    ∃ more : List (Nat × Action Nat Nat), (∀ label ∈ more, label.2.isCall = false) ∧
      ∃ quiet, run w more = some quiet ∧ quiet.owner = none ∧
        ∀ thread, quiet.pc thread = .idle :=
  run_drains interleaved rfl

end InlineInfo
end Drlvm
