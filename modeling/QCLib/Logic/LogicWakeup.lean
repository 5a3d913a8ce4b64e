import QCLib.Foundations.Monitor
import QCLib.Logic.LogicThread

/-!
# How the logic thread sleeps and is woken

The two threads of the logic server once more, now with the condition variable. `ThreadRun` waits
while `m_msg_queue_inner` is empty, and looks again when it has been woken, by `Notify` or for no
reason at all; `Notify` signals whether somebody waits or not.

Forgetting who sleeps gives a run of the two threads without the condition variable (`run_erases`).
The logic thread never sleeps on while it has something to do, and from whatever state the two
threads have reached, they need no further packet in order to dispatch all that they have been given
(`run_dispatches_all`): the logic thread works until it waits (`Minded.drains`), one `Notify` hands
the rest over, for which there is room by then, and wakes it, and the logic thread works until it
waits again.

The threads wait at a monitor (`Foundations.Monitor`) whose `put` may add many packets at once, so
the library's result for several threads does not apply. But there is one logic thread, and for a
thread that is alone the library has another (`Monitor.Solitary`). `Minded` joins it to the
soundness of the queues.

Progress is shown with a measure: packets in the queues and steps of the thread. `Works` are the
steps that the logic thread takes by itself, and they end.
-/

open StepRun

namespace QCLib

/-- The critical section of `ThreadRun`, once there is a message. -/
def LogicThread.takeAll (s : LogicThread) : LogicThread :=
  let moved := s.msgQueueLocal.append s.msgQueueInner
  { s with msgQueueLocal := moved.1, msgQueueInner := moved.2.1, dispatching := true }

namespace LogicManager

/-- `m_msg_queue_inner` behind `m_cond`. -/
def monitor : Monitor LogicManager Unit Unit Unit where
  ready m := !m.mainLogicThread.msgQueueInner.isEmpty
  put m _ := { m with mainLogicThread := m.mainLogicThread.notify }
  take m _ := ((), { m with mainLogicThread := m.mainLogicThread.takeAll })

/-- The two threads, of which the logic thread may wait at the monitor. -/
abbrev Threads := Monitor.State Unit LogicManager Unit Unit

/-- What the two threads do. -/
inductive ThreadTurn where
  | clientMsg (msgList : List Message)
  | notify (signalled : Option Unit)
  | enter
  | wake
  | spurious
  | dispatch
  deriving DecidableEq

/-- Packets come in. -/
def ThreadTurn.isBatch : ThreadTurn → Bool
  | .clientMsg _ => true
  | .notify _ | .enter | .wake | .spurious | .dispatch => false

/-- One turn of one of the threads. -/
def threadStep (s : Threads) : ThreadTurn → Option Threads
  | .clientMsg msgList => some { s with data := s.data.onClientMsg msgList }
  | .notify signalled =>
    if s.data.mainLogicThread.haveMessage then monitor.step s (.put () signalled) else some s
  | .enter => if s.data.mainLogicThread.dispatching then none else monitor.step s (.get () ())
  | .wake => monitor.step s (.wake ())
  | .spurious => monitor.step s (.spurious ())
  | .dispatch => (s.data.step .dispatch).map fun m ↦ { s with data := m }

/-- A turn, and the forwarded packets that `OnClientMsg` has been given so far. -/
def givenThreadStep (x : Threads × List Message) (t : ThreadTurn) :
    Option (Threads × List Message) :=
  (threadStep x.1 t).map fun s' ↦
    (s', match t with
      | .clientMsg msgList => x.2 ++ msgList.filter isTransit
      | .notify _ | .enter | .wake | .spurious | .dispatch => x.2)

/-- There is room in `m_msg_queue` for what a batch puts there. -/
def ThreadFits (x : Threads × List Message) : ThreadTurn → Prop
  | .clientMsg msgList => Fits (x.1.data, x.2) (.clientMsg msgList)
  | .notify _ | .enter | .wake | .spurious | .dispatch => True

/-- The threads, without who sleeps. -/
def erase (x : Threads × List Message) : LogicManager × List Message := (x.1.data, x.2)

instance (x : Threads × List Message) : ∀ t, Decidable (ThreadFits x t)
  | .clientMsg _ => inferInstanceAs (Decidable (_ ≤ _))
  | .notify _ | .enter | .wake | .spurious | .dispatch => inferInstanceAs (Decidable True)

/-- The queues are sound, what the first one holds fits into the second one, and a thread that
dispatches is not at the monitor. -/
structure Minded (x : Threads × List Message) : Prop where
  sound : Sound x.1.data.mainLogicThread
  capacity : x.1.data.mainLogicThread.msgQueue.capacity =
    x.1.data.mainLogicThread.msgQueueInner.capacity
  solitary : Monitor.Solitary monitor x.1
  busy : x.1.data.mainLogicThread.dispatching = true → x.1.waiting = [] ∧ x.1.woken = []

variable {x x' : Threads × List Message} {t : ThreadTurn}

/-! ### Without the condition variable -/

/-- What a thread does when it has the mutex: it takes what there is, as it does without waiting, or
it waits. -/
theorem enter_cases {s : Threads} (hidle : s.data.mainLogicThread.dispatching = false) :
    (s.data.mainLogicThread.msgQueueInner.isEmpty = false ∧
        s.data.step .take = some (monitor.enter s () ()).data) ∨
      s.data.mainLogicThread.msgQueueInner.isEmpty = true ∧
        monitor.enter s () () = { s with waiting := s.waiting ++ [((), ())] } := by
  cases hempty : s.data.mainLogicThread.msgQueueInner.isEmpty with
  | true =>
    refine .inr ⟨rfl, ?_⟩
    rw [Monitor.enter, if_neg (by simp [monitor, hempty])]
  | false =>
    refine .inl ⟨rfl, ?_⟩
    rw [Monitor.enter, if_pos (by simp [monitor, hempty]), step, LogicThread.take, hidle, hempty]
    rfl

/-- A thread that has been woken is not dispatching. -/
theorem Minded.idle (h : Minded x) (hmonitor : x.1.waiting ≠ [] ∨ x.1.woken ≠ []) :
    x.1.data.mainLogicThread.dispatching = false := by
  refine Bool.eq_false_iff.2 fun hbusy ↦ ?_
  obtain ⟨hwaiting, hwoken⟩ := h.busy hbusy
  exact hmonitor.elim (fun hne ↦ hne hwaiting) fun hne ↦ hne hwoken

/-- **One turn** is one turn of the threads without the condition variable, or none. -/
theorem Minded.erase_step (h : Minded x) (hs : givenThreadStep x t = some x') :
    (∃ t', givenStep (erase x) t' = some (erase x') ∧ (Fits (erase x) t' ↔ ThreadFits x t)) ∨
      erase x' = erase x := by
  obtain ⟨s', hs', rfl⟩ := Option.map_eq_some_iff.1 hs
  have henter : ∀ {s : Threads}, s.data = x.1.data →
      x.1.data.mainLogicThread.dispatching = false →
        (∃ t', givenStep (erase x) t' = some ((monitor.enter s () ()).data, x.2) ∧
          (Fits (erase x) t' ↔ True)) ∨
            ((monitor.enter s () ()).data, x.2) = erase x := by
    intro s hdata hidle
    rcases enter_cases (s := s) (by rw [hdata]; exact hidle) with ⟨-, htake⟩ | ⟨-, hwait⟩
    · rw [hdata] at htake
      exact .inl ⟨.take, by rw [givenStep, erase, htake]; rfl, Iff.rfl⟩
    · exact .inr (by rw [hwait, hdata]; rfl)
  cases t with
  | clientMsg msgList =>
    obtain rfl := Option.some.inj hs'
    exact .inl ⟨.clientMsg msgList, rfl, Iff.rfl⟩
  | notify signalled =>
    rw [threadStep] at hs'
    split_ifs at hs' with hhave
    · refine .inl ⟨.notify, ?_, Iff.rfl⟩
      have hstep : s'.data =
          { x.1.data with mainLogicThread := x.1.data.mainLogicThread.notify } := by
        cases signalled with
        | none =>
          simp only [Monitor.step] at hs'
          split_ifs at hs'
          obtain rfl := Option.some.inj hs'
          rfl
        | some u =>
          obtain ⟨r, -, rfl⟩ := Option.map_eq_some_iff.1 hs'
          rfl
      rw [givenStep, erase, step, if_pos hhave, Option.map_some, erase, hstep]
    · obtain rfl := Option.some.inj hs'
      exact .inr rfl
  | enter =>
    rw [threadStep] at hs'
    split_ifs at hs' with hbusy
    simp only [Monitor.step] at hs'
    split_ifs at hs'
    obtain rfl := Option.some.inj hs'
    exact henter rfl (Bool.eq_false_iff.2 hbusy)
  | wake =>
    obtain ⟨⟨p, l⟩, hleave, rfl⟩ := Option.map_eq_some_iff.1 hs'
    refine henter (s := { x.1 with woken := l }) rfl (h.idle (.inr fun hnil ↦ ?_))
    rw [hnil] at hleave
    cases hleave
  | spurious =>
    obtain ⟨r, -, rfl⟩ := Option.map_eq_some_iff.1 hs'
    exact .inr rfl
  | dispatch =>
    obtain ⟨m, hm, rfl⟩ := Option.map_eq_some_iff.1 hs'
    exact .inl ⟨.dispatch, by rw [givenStep, erase, hm]; rfl, Iff.rfl⟩

/-! ### What every turn keeps -/

/-- A turn keeps the queues sound, and of their sizes. -/
theorem sound_step {m m' : LogicManager} {t : Turn} (h : Sound m.mainLogicThread)
    (hs : m.step t = some m') : Sound m'.mainLogicThread ∧
      m'.mainLogicThread.msgQueue.capacity = m.mainLogicThread.msgQueue.capacity ∧
        m'.mainLogicThread.msgQueueInner.capacity = m.mainLogicThread.msgQueueInner.capacity := by
  cases t with
  | clientMsg msgList =>
    obtain rfl := Option.some.inj hs
    have hpush : ∀ (items : List (Option Message)) (q : LoopArray (Option Message)),
        (items.foldl (fun q msg ↦ (q.pushBack msg).1) q).capacity = q.capacity := by
      intro items
      induction items with
      | nil => exact fun _ ↦ rfl
      | cons item items ih =>
        intro q
        rw [List.foldl_cons, ih, LoopArray.pushBack]
        split <;> rfl
    refine ⟨(h.onClientMsg msgList).1, ?_⟩
    rw [mainLogicThread_onClientMsg]
    exact ⟨hpush _ _, rfl⟩
  | notify =>
    rw [step] at hs
    split_ifs at hs
    · obtain rfl := Option.some.inj hs
      obtain ⟨-, -, -, hinner, hqueue⟩ := h.inner.append h.queue
      exact ⟨h.notify.1, hqueue, hinner⟩
    · obtain rfl := Option.some.inj hs
      exact ⟨h, rfl, rfl⟩
  | take =>
    obtain ⟨t', ht', rfl⟩ := Option.map_eq_some_iff.1 hs
    refine ⟨(h.take ht').1, ?_⟩
    rw [LogicThread.take] at ht'
    split_ifs at ht'
    obtain rfl := Option.some.inj ht'
    exact ⟨rfl, (h.own.append h.inner).2.2.2.2⟩
  | dispatch =>
    obtain ⟨t', ht', rfl⟩ := Option.map_eq_some_iff.1 hs
    obtain ⟨hsound, hqueue, hinner, -⟩ := h.dispatch ht'
    exact ⟨hsound, congrArg _ hqueue, congrArg _ hinner⟩

/-- A call that goes on to dispatch leaves nobody at the monitor, if nobody was there before it. -/
theorem busy_enter {s : Threads} (hidle : s.data.mainLogicThread.dispatching = false)
    (hwaiting : s.waiting = []) (hwoken : s.woken = []) :
    (monitor.enter s () ()).data.mainLogicThread.dispatching = true →
      (monitor.enter s () ()).waiting = [] ∧ (monitor.enter s () ()).woken = [] := by
  intro hbusy
  rw [Monitor.enter] at hbusy ⊢
  split_ifs at hbusy ⊢
  · exact ⟨hwaiting, hwoken⟩
  · rw [show s.data.mainLogicThread.dispatching = true from hbusy] at hidle
    cases hidle

/-- **One turn keeps the invariant**: the queues stay sound, and a thread that dispatches is not at
the monitor. -/
theorem Minded.step (h : Minded x) (hs : givenThreadStep x t = some x') : Minded x' := by
  have hsound : Sound x'.1.data.mainLogicThread ∧
      x'.1.data.mainLogicThread.msgQueue.capacity =
        x'.1.data.mainLogicThread.msgQueueInner.capacity := by
    -- without its monitor a step is one of the logic thread, or leaves the data alone
    rcases h.erase_step hs with ⟨t', ht', -⟩ | herase
    · obtain ⟨m, hm, hx'⟩ := Option.map_eq_some_iff.1 ht'
      obtain ⟨hsound, hqueue, hinner⟩ := sound_step h.sound hm
      rw [show x'.1.data = m from (congrArg Prod.fst hx').symm, hqueue, hinner]
      exact ⟨hsound, h.capacity⟩
    · rw [show x'.1.data = x.1.data from congrArg Prod.fst herase]
      exact ⟨h.sound, h.capacity⟩
  have hkeep : Monitor.Solitary monitor x'.1 ∧ (x'.1.data.mainLogicThread.dispatching = true →
      x'.1.waiting = [] ∧ x'.1.woken = []) := by
    obtain ⟨s', hs', rfl⟩ := Option.map_eq_some_iff.1 hs
    cases t with
    | clientMsg msgList =>
      obtain rfl := Option.some.inj hs'
      refine ⟨⟨h.solitary.length_le, fun hne ↦ ?_⟩, fun hbusy ↦ h.busy ?_⟩
      · have hasleep := h.solitary.asleep hne
        show (!(x.1.data.onClientMsg msgList).mainLogicThread.msgQueueInner.isEmpty) = false
        rw [mainLogicThread_onClientMsg]
        exact hasleep
      · rw [← show (x.1.data.onClientMsg msgList).mainLogicThread.dispatching = true from hbusy,
          mainLogicThread_onClientMsg]
    -- nobody waits while the logic thread dispatches, so that a signal wakes nobody then
    | notify signalled =>
      rw [threadStep] at hs'
      split_ifs at hs'
      · refine ⟨h.solitary.step hs', fun hbusy ↦ ?_⟩
        cases signalled with
        | none =>
          simp only [Monitor.step] at hs'
          split_ifs at hs'
          obtain rfl := Option.some.inj hs'
          exact h.busy hbusy
        | some u =>
          obtain ⟨⟨p, l⟩, hleave, rfl⟩ := Option.map_eq_some_iff.1 hs'
          rw [(h.busy hbusy).1] at hleave
          cases hleave
      · obtain rfl := Option.some.inj hs'
        exact ⟨h.solitary, h.busy⟩
    | enter =>
      rw [threadStep] at hs'
      split_ifs at hs' with hbusy
      refine ⟨h.solitary.step hs', ?_⟩
      simp only [Monitor.step] at hs'
      split_ifs at hs' with hfree
      obtain rfl := Option.some.inj hs'
      exact busy_enter (Bool.eq_false_iff.2 hbusy) (Monitor.eq_nil_of_leave hfree.1)
        (Monitor.eq_nil_of_leave hfree.2)
    -- the logic thread is the only one that can be asleep, so that both lists are empty behind it
    | wake =>
      refine ⟨h.solitary.step (a := .wake ()) hs', ?_⟩
      obtain ⟨⟨p, l⟩, hleave, rfl⟩ := Option.map_eq_some_iff.1 hs'
      have hlen := (Monitor.length_of_leave hleave).1
      have hle := h.solitary.length_le
      refine busy_enter (s := { x.1 with woken := l }) (h.idle (.inr fun hnil ↦ ?_)) ?_ ?_
      · rw [hnil] at hlen
        cases hlen
      · exact List.length_eq_zero_iff.1 (by show x.1.waiting.length = 0; omega)
      · exact List.length_eq_zero_iff.1 (by show l.length = 0; omega)
    -- the same holds of a wakeup without a signal
    | spurious =>
      refine ⟨h.solitary.step (a := .spurious ()) hs', ?_⟩
      obtain ⟨⟨p, l⟩, hleave, rfl⟩ := Option.map_eq_some_iff.1 hs'
      intro hbusy
      rw [(h.busy hbusy).1] at hleave
      cases hleave
    | dispatch =>
      obtain ⟨m, hm, rfl⟩ := Option.map_eq_some_iff.1 hs'
      obtain ⟨t', ht', rfl⟩ := Option.map_eq_some_iff.1 hm
      have hinner := (h.sound.dispatch ht').2.2.1
      have hbusy : x.1.data.mainLogicThread.dispatching = true := by
        rw [LogicThread.dispatch] at ht'
        split_ifs at ht' with hbusy
        exact hbusy
      refine ⟨⟨h.solitary.length_le, fun hne ↦ ?_⟩, fun _ ↦ h.busy hbusy⟩
      exact absurd (h.busy hbusy).1 hne
  exact ⟨hsound.1, hsound.2, hkeep.1, hkeep.2⟩

/-- What has been given gets on its way, or is lost, as without the condition variable. -/
theorem Minded.noneLost_step (h : Minded x) (hnone : NoneLost (erase x)) (hfits : ThreadFits x t)
    (hs : givenThreadStep x t = some x') : NoneLost (erase x') := by
  rcases h.erase_step hs with ⟨t', ht', hiff⟩ | herase
  · exact (givenStep_iff h.sound hnone ht').2.2 (hiff.2 hfits)
  · rw [herase]
    exact hnone

/-! ### The logic thread works until it waits -/

/-- What there is for the logic thread to do. -/
def todo (x : Threads × List Message) : ℕ :=
  2 * x.1.data.mainLogicThread.msgQueueInner.contents.length +
    x.1.data.mainLogicThread.msgQueueLocal.contents.length + if x.1.waiting = [] then 1 else 0

/-- The logic thread has worked, and the network thread has not. -/
structure Works (x x' : Threads × List Message) : Prop where
  given : x'.2 = x.2
  queue : x'.1.data.mainLogicThread.msgQueue = x.1.data.mainLogicThread.msgQueue

theorem Works.trans {x'' : Threads × List Message} (h : Works x x') (h' : Works x' x'') :
    Works x x'' :=
  ⟨h'.given.trans h.given, h'.queue.trans h.queue⟩

theorem ThreadFits.of_not_isBatch (h : t.isBatch = false) : ThreadFits x t := by
  cases t with
  | clientMsg msgList => cases h
  | notify _ | enter | wake | spurious | dispatch => trivial

/-- With the mutex the logic thread gets nearer to the end, whether it takes something or waits. -/
theorem Minded.enter_works (h : Minded x) {s : Threads} (hdata : s.data = x.1.data)
    (hidle : x.1.data.mainLogicThread.dispatching = false) (hwaiting : x.1.waiting = [])
    (hs : s.waiting = []) : Works x (monitor.enter s () (), x.2) ∧
      todo (monitor.enter s () (), x.2) < todo x := by
  rcases enter_cases (s := s) (by rw [hdata]; exact hidle) with ⟨hready, htake⟩ | ⟨-, hwait⟩
  · rw [hdata] at htake
    have hkeep : (monitor.enter s () ()).waiting = [] := by
      rw [Monitor.enter]
      split_ifs with hfalse
      · exact hs
      · exact absurd (by simpa [monitor] using hready) hfalse
    obtain ⟨t', ht', hm⟩ := Option.map_eq_some_iff.1 htake
    obtain ⟨hsound, -, hqueue, hmoved⟩ := h.sound.take ht'
    have hbusy : t'.dispatching = true := by
      rw [LogicThread.take] at ht'
      split_ifs at ht'
      obtain rfl := Option.some.inj ht'
      rfl
    have hpos := List.length_pos_iff.2 (hsound.dispatching.1 hbusy)
    have hlen := congrArg List.length hmoved
    have hown : x.1.data.mainLogicThread.msgQueueLocal.contents = [] := by
      by_contra hne
      rw [h.sound.dispatching.2 hne] at hidle
      cases hidle
    have hthread : (monitor.enter s () ()).data.mainLogicThread = t' := by rw [← hm]
    refine ⟨⟨rfl, by rw [hthread, hqueue]⟩, ?_⟩
    rw [hown, List.length_append, List.length_append, List.length_nil] at hlen
    rw [todo, todo, hthread, hkeep, hwaiting, hown, List.length_nil]
    omega
  · rw [hwait]
    refine ⟨⟨rfl, by rw [hdata]⟩, ?_⟩
    rw [todo, todo, hwaiting, if_pos rfl, if_neg (by rw [hs]; exact List.cons_ne_nil _ _), hdata]
    omega

/-- A logic thread that does not wait does something. -/
theorem Minded.exists_turn (h : Minded x) (hwaiting : x.1.waiting = []) :
    ∃ t x', givenThreadStep x t = some x' ∧ t.isBatch = false ∧ Works x x' ∧
      todo x' < todo x := by
  cases hbusy : x.1.data.mainLogicThread.dispatching with
  | true =>
    obtain ⟨t', ht'⟩ : ∃ t', x.1.data.mainLogicThread.dispatch = some t' :=
      ⟨_, by rw [LogicThread.dispatch, if_pos hbusy]⟩
    obtain ⟨-, hqueue, hinner, -⟩ := h.sound.dispatch ht'
    obtain ⟨msg, rest, hcons⟩ := List.exists_cons_of_ne_nil (h.sound.dispatching.1 hbusy)
    have hown : t'.msgQueueLocal.contents = rest := by
      rw [LogicThread.dispatch, if_pos hbusy] at ht'
      obtain rfl := Option.some.inj ht'
      have hholds := h.sound.own
      rw [hcons] at hholds
      exact hholds.popFront_cons.1.contents_eq
    refine ⟨.dispatch, ({ x.1 with data := { x.1.data with mainLogicThread := t' } }, x.2),
      by rw [givenThreadStep, threadStep, LogicManager.step, ht']; rfl, rfl, ⟨rfl, hqueue⟩, ?_⟩
    show 2 * t'.msgQueueInner.contents.length + t'.msgQueueLocal.contents.length +
      (if x.1.waiting = [] then 1 else 0) < todo x
    rw [todo, hinner, hown, hcons, List.length_cons]
    omega
  | false =>
    cases hwoken : x.1.woken with
    | nil =>
      refine ⟨.enter, _, ?_, rfl, h.enter_works rfl hbusy hwaiting hwaiting⟩
      rw [givenThreadStep, threadStep, hbusy, if_neg Bool.false_ne_true, Monitor.step, hwaiting,
        hwoken, if_pos ⟨rfl, rfl⟩]
      rfl
    | cons p l =>
      refine ⟨.wake, _, ?_, rfl,
        h.enter_works (s := { x.1 with woken := l }) rfl hbusy hwaiting hwaiting⟩
      rw [givenThreadStep, threadStep, Monitor.step, hwoken, Monitor.leave,
        if_pos (Subsingleton.elim _ _)]
      rfl

/-- **The logic thread works until it waits**, and then there is nothing for it to do. -/
theorem Minded.drains (h : Minded x) (hnone : NoneLost (erase x)) :
    ∃ l x', run givenThreadStep x l = some x' ∧ (∀ t ∈ l, t.isBatch = false) ∧ Works x x' ∧
      Minded x' ∧ NoneLost (erase x') ∧ x'.1.waiting ≠ [] := by
  induction htodo : todo x using Nat.strongRecOn generalizing x with
  | ind n ih =>
    by_cases hwaiting : x.1.waiting = []
    · obtain ⟨t, x₁, hs, hbatch, hworks, hlt⟩ := h.exists_turn hwaiting
      obtain ⟨l, x', hrun, hl, hworks', h', hnone', hwait⟩ := ih (todo x₁) (htodo ▸ hlt)
        (h.step hs) (h.noneLost_step hnone (.of_not_isBatch hbatch) hs) rfl
      refine ⟨t :: l, x', by rw [run_cons, hs]; exact hrun, ?_, hworks.trans hworks', h', hnone',
        hwait⟩
      exact List.forall_mem_cons.2 ⟨hbatch, hl⟩
    · exact ⟨[], x, rfl, fun _ ↦ List.not_mem_nil.elim, ⟨rfl, rfl⟩, h, hnone, hwaiting⟩

/-- A logic thread that waits has dispatched all that has reached it. -/
theorem Minded.waits (h : Minded x) (hwaiting : x.1.waiting ≠ []) :
    x.1.data.mainLogicThread.msgQueueInner.contents = [] ∧
      x.1.data.mainLogicThread.msgQueueLocal.contents = [] := by
  constructor
  · have hasleep : (!x.1.data.mainLogicThread.msgQueueInner.isEmpty) = false :=
      h.solitary.asleep hwaiting
    rw [h.sound.inner.isEmpty_eq, Bool.not_eq_false', decide_eq_true_eq] at hasleep
    exact hasleep
  · by_contra hne
    exact absurd (h.busy (h.sound.dispatching.2 hne)).1 hwaiting

/-- `Notify` hands everything over to a logic thread that waits, and wakes it. -/
theorem Minded.notify_hands_over (h : Minded x) (hwaiting : x.1.waiting ≠ [])
    (hmore : x.1.data.mainLogicThread.msgQueue.contents ≠ []) :
    ∃ x', givenThreadStep x (.notify (some ())) = some x' ∧ x'.2 = x.2 ∧
      x'.1.data.mainLogicThread.msgQueue.contents = [] := by
  obtain ⟨hinner, -⟩ := h.waits hwaiting
  obtain ⟨p, l, hp⟩ := List.exists_cons_of_ne_nil hwaiting
  have hhave : x.1.data.mainLogicThread.haveMessage = true := by
    rw [LogicThread.haveMessage, h.sound.queue.isEmpty_eq, decide_eq_false hmore]
    rfl
  refine ⟨({ x.1 with
    data := { x.1.data with mainLogicThread := x.1.data.mainLogicThread.notify }
    waiting := l, woken := x.1.woken ++ [p] }, x.2), ?_, rfl, ?_⟩
  · unfold givenThreadStep
    rw [threadStep, if_pos hhave, Monitor.step, hp, Monitor.leave, if_pos (Subsingleton.elim _ _)]
    rfl
  · obtain ⟨-, hrest, -⟩ := h.sound.inner.append h.sound.queue
    show (x.1.data.mainLogicThread.msgQueueInner.append
      x.1.data.mainLogicThread.msgQueue).2.1.contents = []
    rw [hrest.contents_eq, hinner, List.length_nil, Nat.sub_zero, List.drop_eq_nil_iff,
      ← h.capacity, ← h.sound.queue.size]
    exact h.sound.queue.size_le

/-! ### Runs -/

/-- The start: the logic thread is on its way to the monitor. -/
def threadStart (memory : Fin 3 → ℕ → Option Message) : Threads × List Message :=
  ({ data := start memory }, [])

/-- The forwarded packets of a turn. -/
def ThreadTurn.forwarded : ThreadTurn → List Message
  | .clientMsg msgList => msgList.filter isTransit
  | .notify _ | .enter | .wake | .spurious | .dispatch => []

variable {memory : Fin 3 → ℕ → Option Message} {l : List ThreadTurn}

/-- At the start the queues are empty, and nobody is at the monitor. -/
theorem minded_start (memory : Fin 3 → ℕ → Option Message) : Minded (threadStart memory) where
  sound := sound_start memory
  capacity := rfl
  solitary := ⟨Nat.zero_le 1, fun h ↦ absurd rfl h⟩
  busy _ := ⟨rfl, rfl⟩

/-- The packets that were given are those of the turns that forward some. -/
theorem given_of_run (hrun : run givenThreadStep x l = some x') :
    x'.2 = x.2 ++ l.flatMap ThreadTurn.forwarded := by
  rw [List.flatMap_def, ← List.foldl_append_eq_append]
  refine run_refines (R := fun x given ↦ x.2 = given) (fun x given t x' h _ hs ↦ ?_) rfl
    (guarded_of_forall (p := fun _ ↦ True) fun _ _ ↦ trivial) hrun
  obtain ⟨s', -, rfl⟩ := Option.map_eq_some_iff.1 hs
  cases t with
  | clientMsg msgList => rw [← h]; rfl
  | notify _ | enter | wake | spurious | dispatch => exact h.trans (List.append_nil _).symm

/-- The logic thread waits, a packet comes in, and the logic thread is woken for it; a second packet
comes in while it works. -/
def sampleTurns : List ThreadTurn :=
  [.enter, .clientMsg [samplePacket], .notify (some ()), .wake, .clientMsg [samplePacket]]

/-- **Sleeping and waking changes nothing**: what the threads reach, they reach without the
condition variable. -/
theorem run_erases (hrun : run givenThreadStep (threadStart memory) l = some x) :
    ∃ l', run givenStep (start memory, []) l' = some (erase x) := by
  refine (run_inv (I := fun x ↦ Minded x ∧ ∃ l', run givenStep (start memory, []) l' =
    some (erase x)) (fun x t x' ⟨h, l', hl'⟩ _ hs ↦ ⟨h.step hs, ?_⟩) ⟨minded_start memory, [], rfl⟩
      (guarded_of_forall (p := fun _ ↦ True) fun _ _ ↦ trivial) hrun).2
  rcases h.erase_step hs with ⟨t', ht', -⟩ | herase
  · refine ⟨l' ++ [t'], ?_⟩
    rw [run_append, hl', Option.bind_some, run_cons, ht']
    rfl
  · exact ⟨l', by rw [herase]; exact hl'⟩

/-- A packet on its way through the two threads. -/
theorem run_erases_sample : ∃ x, run givenThreadStep (threadStart fun _ _ ↦ none) sampleTurns =
    some x ∧ ∃ l', run givenStep (start fun _ _ ↦ none, []) l' = some (erase x) :=
  (Option.isSome_iff_exists.1 (by decide +kernel)).imp fun _ hrun ↦ ⟨hrun, run_erases hrun⟩

/-- **The logic thread never sleeps on**, and all that it has been given it dispatches: when every
batch found room, the two threads need no further packet for it. -/
theorem run_dispatches_all (hfits : Guarded givenThreadStep ThreadFits (threadStart memory) l)
    (hrun : run givenThreadStep (threadStart memory) l = some x) :
    (x.1.waiting ≠ [] → x.1.data.mainLogicThread.msgQueueInner.contents = [] ∧
      x.1.data.mainLogicThread.msgQueueLocal.contents = []) ∧
      ∃ l' x', run givenThreadStep x l' = some x' ∧ (∀ t ∈ l', t.isBatch = false) ∧
        x'.1.waiting ≠ [] ∧
          x'.1.data.mainLogicThread.dispatched = (l.flatMap ThreadTurn.forwarded).map some := by
  obtain ⟨h, hnone⟩ : Minded x ∧ NoneLost (erase x) :=
    run_inv (I := fun x ↦ Minded x ∧ NoneLost (erase x))
      (fun x t x' h hok hs ↦ ⟨h.1.step hs, h.1.noneLost_step h.2 hok hs⟩)
      ⟨minded_start memory, rfl⟩ hfits hrun
  have hgiven : x.2 = l.flatMap ThreadTurn.forwarded := given_of_run hrun
  -- Where the logic thread waits with `m_msg_queue` empty, all has been dispatched.
  have hdone : ∀ {x' : Threads × List Message}, Minded x' → NoneLost (erase x') →
      x'.1.waiting ≠ [] → x'.1.data.mainLogicThread.msgQueue.contents = [] → x'.2 = x.2 →
        x'.1.data.mainLogicThread.dispatched = (l.flatMap ThreadTurn.forwarded).map some := by
    intro x' h' hnone' hwait hempty hsame
    obtain ⟨hinner, hown⟩ := h'.waits hwait
    rw [NoneLost, erase] at hnone'
    rw [hinner, hown, hempty, List.append_nil, List.append_nil, List.append_nil] at hnone'
    rw [hnone', hsame, hgiven]
  refine ⟨h.waits, ?_⟩
  obtain ⟨l₁, x₁, hrun₁, hl₁, hworks₁, h₁, hnone₁, hwait₁⟩ := h.drains hnone
  by_cases hempty : x₁.1.data.mainLogicThread.msgQueue.contents = []
  · exact ⟨l₁, x₁, hrun₁, hl₁, hwait₁, hdone h₁ hnone₁ hwait₁ hempty hworks₁.given⟩
  · obtain ⟨x₂, hs₂, hgiven₂, hempty₂⟩ := h₁.notify_hands_over hwait₁ hempty
    obtain ⟨l₃, x₃, hrun₃, hl₃, hworks₃, h₃, hnone₃, hwait₃⟩ :=
      (h₁.step hs₂).drains (h₁.noneLost_step hnone₁ (.of_not_isBatch rfl) hs₂)
    refine ⟨l₁ ++ .notify (some ()) :: l₃, x₃, ?_, ?_, hwait₃, ?_⟩
    · rw [run_append, hrun₁, Option.bind_some, run_cons, hs₂]
      exact hrun₃
    · exact List.forall_mem_append.2 ⟨hl₁, List.forall_mem_cons.2 ⟨rfl, hl₃⟩⟩
    · refine hdone h₃ hnone₃ hwait₃ ?_ ?_
      · rw [hworks₃.queue]
        exact hempty₂
      · rw [hworks₃.given, hgiven₂, hworks₁.given]

/-- Two packets that are waiting when the run stops, and are dispatched in the end. -/
theorem run_dispatches_all_sample :
    ∃ x, run givenThreadStep (threadStart fun _ _ ↦ none) sampleTurns =
    some x ∧ ∃ l' x', run givenThreadStep x l' = some x' ∧ (∀ t ∈ l', t.isBatch = false) ∧
      x'.1.waiting ≠ [] ∧
        x'.1.data.mainLogicThread.dispatched = [some samplePacket, some samplePacket] :=
  (Option.isSome_iff_exists.1 (by decide +kernel)).imp fun _ hrun ↦
    ⟨hrun, (run_dispatches_all (by decide +kernel) hrun).2⟩

end LogicManager

end QCLib
