import Mathlib.Tactic
import QCLib.Foundations.Monitor

/-!
# The blocking queue

`BlockQueue` of `containers_define.h`: a queue behind a mutex, with a condition variable that
`PutData` signals. It is a monitor in the sense of `Foundations.Monitor`, whose waits, signals and
spurious wakeups it has.

Some threads may take one element with `GetOne` and others everything with `GetData`, in any order.
What was put in comes out in that order and exactly once (`run_fifo`). A signal wakes one thread
only, and another may take what it was woken for; all the same nobody sleeps on while the queue is
not empty (`run_awake`). Both need that a caller of `GetData` brings an empty queue (`Get.Fresh`),
because `GetData` swaps: the elements of a queue that is not empty would be put in by nobody.

`GetData` takes everything at once, so it takes at least one element, and `PutData` adds exactly
one: that is all that `Monitor.Awake` needs. The two results are the library's, for any number of
threads and any schedule, with the spurious wakeups that POSIX allows. The condition that a caller
brings an empty queue is put into the type of the calls that the monitor takes.
-/

open StepRun

namespace QCLib

namespace BlockQueue

variable {T α : Type*}

/-- `PutData`: the element goes to the end of `m_queue`. -/
def putData (mQueue : List α) (x : α) : List α := mQueue ++ [x]

/-- `GetOne`, when `m_queue` is not empty: what is taken, and what is left. -/
def getOne (mQueue : List α) : List α × List α := (mQueue.take 1, mQueue.drop 1)

/-- `GetData` swaps the queue with the one that the caller passes. -/
def getData (mQueue queue : List α) : List α × List α := (mQueue, queue)

/-- The two ways to ask. -/
inductive Get (α : Type*)
  | getOne
  | getData (queue : List α)
  deriving DecidableEq

/-- The queue that the caller brings is empty. -/
def Get.Fresh : Get α → Prop
  | .getOne => True
  | .getData queue => queue = []

/-- `BlockQueue`, whatever queues the callers of `GetData` bring. -/
def anyMonitor : Monitor (List α) α (Get α) (List α) where
  ready mQueue := !mQueue.isEmpty
  put := putData
  take mQueue
    | .getOne => getOne mQueue
    | .getData queue => getData mQueue queue

/-- `BlockQueue`, when the callers of `GetData` bring empty queues. -/
def monitor : Monitor (List α) α {k : Get α // k.Fresh} (List α) := anyMonitor.restrict Get.Fresh

theorem ready_iff (mQueue : List α) : (monitor (α := α)).ready mQueue = true ↔ mQueue ≠ [] := by
  show (!mQueue.isEmpty) = true ↔ _
  rw [Bool.not_eq_true', List.isEmpty_eq_false_iff]

/-- Every `Get` takes one element at least, so that whoever was woken uses up what it was woken for.
-/
theorem sized : Monitor.Sized (monitor (α := α)) List.length where
  ready_iff mQueue := by rw [ready_iff, List.length_pos_iff]
  put_le mQueue x := by
    show (mQueue ++ [x]).length ≤ _
    rw [List.length_append, List.length_singleton]
  take_lt mQueue k hready := by
    have hpos := List.length_pos_iff.2 ((ready_iff mQueue).1 hready)
    obtain ⟨k, hk⟩ := k
    cases k with
    | getOne =>
      show (mQueue.drop 1).length < _
      rw [List.length_drop]
      omega
    | getData queue =>
      show queue.length < _
      rwa [show queue = [] from hk]

/-- Every `Get` takes what is in front, so elements leave in the order in which they came. -/
theorem queues : Monitor.Queues (monitor (α := α)) id (fun x ↦ [x]) id where
  put_eq _ _ := rfl
  take_eq mQueue k _ := by
    obtain ⟨k, hk⟩ := k
    cases k with
    | getOne => exact List.take_append_drop 1 mQueue
    | getData queue =>
      show mQueue ++ queue = mQueue
      rw [show queue = [] from hk, List.append_nil]

/-- What a step puts in. -/
abbrev puts : Monitor.Act T α {k : Get α // k.Fresh} → List α := Monitor.Act.puts fun x ↦ [x]

variable [DecidableEq T] {s : Monitor.State T (List α) {k : Get α // k.Fresh} (List α)}
  {l : List (Monitor.Act T α {k : Get α // k.Fresh})}

/-- Two threads that wait, one element for the first of them, and another one. -/
def sampleActs : List (Monitor.Act Bool ℕ {k : Get ℕ // k.Fresh}) :=
  [.get true ⟨.getOne, trivial⟩, .get false ⟨.getData [], rfl⟩, .put 7 (some true)]

/-- **First in, first out**, and exactly once: whatever the threads do, what they have got so far
and what the queue still holds is what has been put in. -/
theorem run_fifo (hrun : run monitor.step { data := [] } l = some s) :
    s.taken.flatMap Prod.snd ++ s.data = l.flatMap puts := by
  exact (Monitor.history_run queues hrun).trans (List.nil_append _)

/-- The second thread gets the element for which the first one was woken. -/
def overtakingActs : List (Monitor.Act Bool ℕ {k : Get ℕ // k.Fresh}) :=
  sampleActs ++ [.spurious false, .wake false, .put 8 none, .wake true]

/-- A run in which a late caller overtakes one that has waited. -/
theorem run_fifo_overtaking : ∃ s, run monitor.step { data := [] } overtakingActs = some s ∧
    s.taken.flatMap Prod.snd ++ s.data = overtakingActs.flatMap puts :=
  (Option.isSome_iff_exists.1 rfl).imp fun _ hrun ↦ ⟨hrun, run_fifo hrun⟩

/-- **Nobody sleeps on**: when the callers of `GetData` bring empty queues, and there are elements
and threads that wait, then as many threads have been woken as there are elements, at least, and one
of them will take some. A queue that is not empty would bring elements that no signal was sent
for. -/
theorem run_awake (hrun : run monitor.step { data := [] } l = some s) (hdata : s.data ≠ [])
    (hwaiting : s.waiting ≠ []) : s.data.length ≤ s.woken.length ∧
      ∃ p ∈ s.woken, ∃ s', monitor.step s (.wake p.1) = some s' ∧
        s'.data.length < s.data.length := by
  have hawake : Monitor.Awake List.length s :=
    Monitor.Awake.run sized (.inl rfl) hrun
  have hready := (ready_iff s.data).2 hdata
  obtain ⟨p, hp, s', hs', k, -, hdata'⟩ := hawake.exists_wake sized hready hwaiting
  refine ⟨hawake.resolve_left hwaiting, p, hp, s', hs', ?_⟩
  rw [hdata']
  exact sized.take_lt s.data k hready

/-- The second thread waits, and the first has been woken. -/
theorem run_awake_sample : ∃ s, run monitor.step { data := [] } sampleActs = some s ∧
    s.data.length ≤ s.woken.length ∧ ∃ p ∈ s.woken, ∃ s', monitor.step s (.wake p.1) = some s' ∧
      s'.data.length < s.data.length :=
  ⟨_, rfl, run_awake (l := sampleActs) rfl (by decide) (by decide)⟩

end BlockQueue

end QCLib
