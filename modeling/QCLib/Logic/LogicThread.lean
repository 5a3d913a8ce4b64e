import QCLib.Common.LoopArray
import QCLib.Foundations.StepRun
import QCLib.Net.Packet

/-!
# From the network thread to the logic thread

The two threads of the logic server. The network thread receives packets in batches and puts the
forwarded ones into `m_msg_queue`; when there are any, it moves what it can to `m_msg_queue_inner`
and wakes the logic thread, which moves what it can to a queue of its own and dispatches that.

The queues are ring buffers with 1024 places. `Append` leaves behind what does not fit, so nothing
gets lost on the way between two queues. But `SetMessage` does not look at what `push_back` returns:
a batch with more packets than there is room for loses the rest.

A turn is what one of the threads does while it holds a mutex, so a list of turns is one
interleaving of the two. `Sound` says that each queue is what its indices say. `noneLost_iff_fits`
goes over runs: nothing was lost so far if and only if every batch so far fitted into the first
queue, with room for what was there already. The queue that the logic thread dispatches from is its
own, and it dispatches all of it before it looks again.
-/

open StepRun

namespace QCLib

/-! ### The threads -/

/-- `LogicThread`. The queue `msgQueueLocal` and the place in the loop belong to `ThreadRun`. -/
structure LogicThread where
  msgQueue : LoopArray (Option Message)
  msgQueueInner : LoopArray (Option Message)
  msgQueueLocal : LoopArray (Option Message)
  dispatching : Bool
  dispatched : List (Option Message)

namespace LogicThread

/-- `LogicThread::SetMessage`. The result of `push_back` is not looked at, so a packet is lost when
the queue is full. -/
def setMessage (s : LogicThread) (msg : Message) : LogicThread :=
  { s with msgQueue := (s.msgQueue.pushBack (some msg)).1 }

/-- `LogicThread::HaveMessage`: there is something in one of the queues. -/
def haveMessage (s : LogicThread) : Bool := !s.msgQueue.isEmpty || !s.msgQueueInner.isEmpty

/-- `LogicThread::Notify`: what has been queued is moved to the inner queue, as far as there is
room. -/
def notify (s : LogicThread) : LogicThread :=
  let moved := s.msgQueueInner.append s.msgQueue
  { s with msgQueueInner := moved.1, msgQueue := moved.2.1 }

/-- The critical section of `ThreadRun`, which waits for a message. -/
def take (s : LogicThread) : Option LogicThread :=
  if s.dispatching || s.msgQueueInner.isEmpty then none
  else
    let moved := s.msgQueueLocal.append s.msgQueueInner
    some { s with msgQueueLocal := moved.1, msgQueueInner := moved.2.1, dispatching := true }

/-- One turn of the loop of `ThreadRun` that dispatches. -/
def dispatch (s : LogicThread) : Option LogicThread :=
  if s.dispatching then
    let msg := s.msgQueueLocal.popFront
    some { s with
      msgQueueLocal := msg.1
      dispatched := s.dispatched ++ [msg.2]
      dispatching := msg.1.size > 0 }
  else none

end LogicThread

/-- `LogicManager`: the logic thread, and what the client connection has been given to send. -/
structure LogicManager where
  mainLogicThread : LogicThread
  sent : List Message

namespace LogicManager

/-- The packets that `OnClientMsg` hands to the logic thread. -/
def isTransit (pMsg : Message) : Bool := pMsg.wholeCmd = some .transit

/-- One turn of `OnClientMsg`. -/
def doClientMsg (s : LogicManager) (pMsg : Message) : LogicManager :=
  if pMsg.wholeCmd = some .svrloginAck then s
  else if pMsg.wholeCmd = some .heart then { s with sent := s.sent ++ [pMsg] }
  else if pMsg.wholeCmd = some .transit then
    { s with mainLogicThread := s.mainLogicThread.setMessage pMsg }
  else s

/-- `LogicManager::OnClientMsg`: the packets of a batch, one after another. -/
def onClientMsg (s : LogicManager) (msgList : List Message) : LogicManager :=
  msgList.foldl doClientMsg s

/-- What the two threads do. -/
inductive Turn where
  | clientMsg (msgList : List Message)
  | notify
  | take
  | dispatch
  deriving DecidableEq

/-- One turn of one of the threads. -/
def step (s : LogicManager) : Turn → Option LogicManager
  | .clientMsg msgList => some (s.onClientMsg msgList)
  | .notify =>
    if s.mainLogicThread.haveMessage then
      some { s with mainLogicThread := s.mainLogicThread.notify }
    else some s
  | .take => s.mainLogicThread.take.map fun t ↦ { s with mainLogicThread := t }
  | .dispatch => s.mainLogicThread.dispatch.map fun t ↦ { s with mainLogicThread := t }

/-- The start, with whatever the memory of the three queues holds. -/
def start (memory : Fin 3 → ℕ → Option Message) : LogicManager where
  mainLogicThread :=
    { msgQueue := .new (memory 0) 0, msgQueueInner := .new (memory 1) 0
      msgQueueLocal := .new (memory 2) 0, dispatching := false, dispatched := [] }
  sent := []

/-! ### Nothing is lost -/

/-- A turn, and the forwarded packets that `OnClientMsg` has been given so far. -/
def givenStep (x : LogicManager × List Message) (t : Turn) : Option (LogicManager × List Message) :=
  (x.1.step t).map fun s' ↦
    (s', match t with
      | .clientMsg msgList => x.2 ++ msgList.filter isTransit
      | .notify | .take | .dispatch => x.2)

/-- **None lost**: what has been dispatched and what the three queues still hold is, in order, what
was given. -/
def NoneLost (x : LogicManager × List Message) : Prop :=
  x.1.mainLogicThread.dispatched ++ x.1.mainLogicThread.msgQueueLocal.contents ++
    x.1.mainLogicThread.msgQueueInner.contents ++ x.1.mainLogicThread.msgQueue.contents =
      x.2.map some

/-- There is room in `m_msg_queue` for what a batch puts there. -/
def Fits (x : LogicManager × List Message) : Turn → Prop
  | .clientMsg msgList => x.1.mainLogicThread.msgQueue.size + (msgList.filter isTransit).length ≤
      x.1.mainLogicThread.msgQueue.capacity
  | .notify | .take | .dispatch => True

/-- The three queues are sound, and the logic thread dispatches while its own is not empty. -/
structure Sound (s : LogicThread) : Prop where
  queue : s.msgQueue.Holds s.msgQueue.contents
  inner : s.msgQueueInner.Holds s.msgQueueInner.contents
  own : s.msgQueueLocal.Holds s.msgQueueLocal.contents
  dispatching : s.dispatching = true ↔ s.msgQueueLocal.contents ≠ []

variable {s s' : LogicThread}

/-- Packets from the gate change the queue of packets alone. -/
theorem mainLogicThread_onClientMsg (s : LogicManager) (msgList : List Message) :
    (s.onClientMsg msgList).mainLogicThread =
      { s.mainLogicThread with
        msgQueue := ((msgList.filter isTransit).map some).foldl (fun q msg ↦ (q.pushBack msg).1)
          s.mainLogicThread.msgQueue } := by
  induction msgList generalizing s with
  | nil => rfl
  | cons pMsg msgList ih =>
    show ((s.doClientMsg pMsg).onClientMsg msgList).mainLogicThread = _
    rw [ih, List.filter_cons, doClientMsg]
    split_ifs with hack htransit hheart htransit hcmd htransit htransit
    · rw [isTransit, hack] at htransit
      exact absurd htransit (by decide)
    · rfl
    · rw [isTransit, hheart] at htransit
      exact absurd htransit (by decide)
    · rfl
    · rfl
    · exact absurd (decide_eq_true hcmd) htransit
    · exact absurd (of_decide_eq_true htransit) hcmd
    · rfl

/-- A batch puts its packets behind those in `m_msg_queue`, as far as there is room. -/
theorem Sound.onClientMsg {m : LogicManager} (h : Sound m.mainLogicThread)
    (msgList : List Message) :
    Sound (m.onClientMsg msgList).mainLogicThread ∧
      (m.onClientMsg msgList).mainLogicThread.msgQueue.contents =
        m.mainLogicThread.msgQueue.contents ++ ((msgList.filter isTransit).map some).take
          (m.mainLogicThread.msgQueue.capacity - m.mainLogicThread.msgQueue.size) := by
  have hfold := h.queue.foldl_pushBack ((msgList.filter isTransit).map some)
  rw [← h.queue.size] at hfold
  rw [mainLogicThread_onClientMsg]
  exact ⟨{ h with queue := hfold.holds_contents }, hfold.contents_eq⟩

/-- `Notify` moves packets from one queue to the next. -/
theorem Sound.notify (h : Sound s) : Sound s.notify ∧
    s.notify.msgQueueInner.contents ++ s.notify.msgQueue.contents =
      s.msgQueueInner.contents ++ s.msgQueue.contents := by
  obtain ⟨hinner, hqueue, -⟩ := h.inner.append h.queue
  refine ⟨{ h with queue := hqueue.holds_contents, inner := hinner.holds_contents }, ?_⟩
  show (s.msgQueueInner.append s.msgQueue).1.contents ++
    (s.msgQueueInner.append s.msgQueue).2.1.contents = _
  rw [hinner.contents_eq, hqueue.contents_eq, List.append_assoc, List.take_append_drop]

/-- So does the critical section of `ThreadRun`, which finds its own queue empty. -/
theorem Sound.take (h : Sound s) (hs : s.take = some s') : Sound s' ∧
    s'.dispatched = s.dispatched ∧ s'.msgQueue = s.msgQueue ∧
      s'.msgQueueLocal.contents ++ s'.msgQueueInner.contents =
        s.msgQueueLocal.contents ++ s.msgQueueInner.contents := by
  rw [LogicThread.take] at hs
  split_ifs at hs with hwait
  obtain rfl := Option.some.inj hs
  obtain ⟨hown, hinner, -⟩ := h.own.append h.inner
  have hc₁ := hown.contents_eq
  refine ⟨{ h with
    inner := hinner.holds_contents, own := hown.holds_contents, dispatching := ?_ }, rfl, rfl, ?_⟩
  · -- The inner queue is not empty, and there is room for at least one packet.
    refine iff_of_true rfl ?_
    show (s.msgQueueLocal.append s.msgQueueInner).1.contents ≠ []
    obtain ⟨hidle, hready⟩ : s.dispatching = false ∧ s.msgQueueInner.isEmpty = false := by
      rw [← Bool.or_eq_false_iff]
      exact Bool.eq_false_of_not_eq_true hwait
    have hempty : s.msgQueueLocal.contents = [] := by
      by_contra hne
      rw [h.dispatching.2 hne] at hidle
      exact absurd hidle (by decide)
    rw [h.inner.isEmpty_eq, decide_eq_false_iff_not] at hready
    rw [hc₁, hempty, List.nil_append, List.length_nil, Nat.sub_zero, Ne, List.take_eq_nil_iff]
    rintro (hcap | hnil)
    · exact absurd hcap h.own.capacity_pos.ne'
    · exact hready hnil
  · show (s.msgQueueLocal.append s.msgQueueInner).1.contents ++
      (s.msgQueueLocal.append s.msgQueueInner).2.1.contents = _
    rw [hc₁, hinner.contents_eq, List.append_assoc, List.take_append_drop]

/-- A turn of the dispatching loop takes the oldest packet. -/
theorem Sound.dispatch (h : Sound s) (hs : s.dispatch = some s') : Sound s' ∧
    s'.msgQueue = s.msgQueue ∧ s'.msgQueueInner = s.msgQueueInner ∧
      s'.dispatched ++ s'.msgQueueLocal.contents = s.dispatched ++ s.msgQueueLocal.contents := by
  rw [LogicThread.dispatch] at hs
  split_ifs at hs with hbusy
  obtain rfl := Option.some.inj hs
  obtain ⟨msg, rest, hcons⟩ := List.exists_cons_of_ne_nil (h.dispatching.1 hbusy)
  have hown := h.own
  rw [hcons] at hown
  obtain ⟨hpop, hmsg, -⟩ := hown.popFront_cons
  have hc := hpop.contents_eq
  refine ⟨{ h with own := hpop.holds_contents, dispatching := ?_ }, rfl, rfl, ?_⟩
  · show decide (s.msgQueueLocal.popFront.1.size > 0) = true ↔
      s.msgQueueLocal.popFront.1.contents ≠ []
    rw [hc, hpop.size, decide_eq_true_eq, gt_iff_lt, List.length_pos_iff]
  · show s.dispatched ++ [s.msgQueueLocal.popFront.2] ++ s.msgQueueLocal.popFront.1.contents = _
    rw [hc, hmsg, hcons, List.append_assoc]
    rfl

/-! ### Runs -/

/-- A batch loses nothing exactly when it fits. -/
theorem noneLost_clientMsg_iff {x : LogicManager × List Message} (hx : Sound x.1.mainLogicThread)
    (h : NoneLost x) (msgList : List Message) :
    NoneLost (x.1.onClientMsg msgList, x.2 ++ msgList.filter isTransit) ↔
      Fits x (.clientMsg msgList) := by
  have hcontents := (hx.onClientMsg msgList).2
  rw [NoneLost, hcontents, mainLogicThread_onClientMsg]
  show x.1.mainLogicThread.dispatched ++ x.1.mainLogicThread.msgQueueLocal.contents ++
    x.1.mainLogicThread.msgQueueInner.contents ++ (_ ++ _) = _ ↔ _
  rw [← List.append_assoc, List.map_append, show _ = x.2.map some from h,
    List.append_cancel_left_eq,
    List.take_eq_self_iff, List.length_map, Fits]
  have := hx.queue.size_le
  omega

/-- **One turn** keeps the queues sound, and loses nothing exactly when it fits. -/
theorem givenStep_iff {x x' : LogicManager × List Message} {t : Turn}
    (hx : Sound x.1.mainLogicThread) (h : NoneLost x) (hs : givenStep x t = some x') :
    Sound x'.1.mainLogicThread ∧ (NoneLost x' ↔ Fits x t) := by
  obtain ⟨m', hm', rfl⟩ := Option.map_eq_some_iff.1 hs
  cases t with
  | clientMsg msgList =>
    obtain rfl := Option.some.inj hm'
    exact ⟨(hx.onClientMsg msgList).1, noneLost_clientMsg_iff hx h msgList⟩
  | notify =>
    rw [step] at hm'
    split_ifs at hm'
    · obtain rfl := Option.some.inj hm'
      obtain ⟨hsound, hmoved⟩ := hx.notify
      refine ⟨hsound, iff_of_true ?_ trivial⟩
      show x.1.mainLogicThread.dispatched ++ x.1.mainLogicThread.msgQueueLocal.contents ++
        x.1.mainLogicThread.notify.msgQueueInner.contents ++
          x.1.mainLogicThread.notify.msgQueue.contents = _
      rw [List.append_assoc, hmoved, ← List.append_assoc]
      exact h
    · obtain rfl := Option.some.inj hm'
      exact ⟨hx, iff_of_true h trivial⟩
  | take =>
    obtain ⟨t', ht', rfl⟩ := Option.map_eq_some_iff.1 hm'
    obtain ⟨hsound, hdispatched, hqueue, hmoved⟩ := hx.take ht'
    refine ⟨hsound, iff_of_true ?_ trivial⟩
    show t'.dispatched ++ t'.msgQueueLocal.contents ++ t'.msgQueueInner.contents ++
      t'.msgQueue.contents = _
    rw [hdispatched, hqueue, List.append_assoc _ _ t'.msgQueueInner.contents, hmoved,
      ← List.append_assoc]
    exact h
  | dispatch =>
    obtain ⟨t', ht', rfl⟩ := Option.map_eq_some_iff.1 hm'
    obtain ⟨hsound, hqueue, hinner, hmoved⟩ := hx.dispatch ht'
    refine ⟨hsound, iff_of_true ?_ trivial⟩
    show t'.dispatched ++ t'.msgQueueLocal.contents ++ t'.msgQueueInner.contents ++
      t'.msgQueue.contents = _
    rw [hmoved, hqueue, hinner]
    exact h

/-- At the start the counts of the thread agree with its queues. -/
theorem sound_start (memory : Fin 3 → ℕ → Option Message) :
    Sound (start memory).mainLogicThread where
  queue := LoopArray.holds_new _ _
  inner := LoopArray.holds_new _ _
  own := LoopArray.holds_new _ _
  dispatching := iff_of_false Bool.false_ne_true fun h ↦ h rfl

/-- **No message is lost between the threads**, in any order of their turns and with batches of any
size, if and only if there is room in `m_msg_queue` for every batch. -/
theorem noneLost_iff_fits (memory : Fin 3 → ℕ → Option Message) (l : List Turn) :
    Throughout givenStep NoneLost (start memory, []) l ↔
      Guarded givenStep Fits (start memory, []) l := by
  have hsound := sound_start memory
  have hnone : NoneLost (start memory, []) := rfl
  have hside : Guarded givenStep (fun _ _ ↦ True) (start memory, []) l :=
    guarded_of_forall fun _ _ ↦ trivial
  have hsame : ∀ (x : LogicManager × List Message) (t : Turn),
      Sound x.1.mainLogicThread ∧ NoneLost x → True →
        (Fits x t ↔ Into givenStep NoneLost x t) := by
    intro x t hx _
    cases hs : givenStep x t with
    | some x' => rw [into_of_eq hs, (givenStep_iff hx.1 hx.2 hs).2]
    | none =>
      refine iff_of_true ?_ (by rw [Into, hs]; trivial)
      cases t with
      | clientMsg msgList => exact absurd hs (Option.some_ne_none _)
      | notify | take | dispatch => trivial
  rw [Throughout, and_iff_right hnone]
  refine (guarded_iff hsame (fun x t x' hx _ hok hs ↦ ?_) ⟨hsound, hnone⟩ hside).symm
  obtain ⟨hx', hiff⟩ := givenStep_iff hx.1 hx.2 hs
  exact ⟨hx', hiff.2 hok⟩

/-- A forwarded packet without contents. -/
def samplePacket : Message := [0, 0, 0, 0, 0, 0, 0, 0, 0x0a, 0x03, 0, 0, 0, 0, 0, 0]

/-- A batch of one packet more than the queue has places. -/
theorem batch_loses_packet : ∃ x, run givenStep (start fun _ _ ↦ none, [])
    [.clientMsg (List.replicate 1025 samplePacket)] = some x ∧ ¬ NoneLost x := by
  have hsound := sound_start fun _ _ ↦ none
  have hnone : NoneLost (start fun _ _ ↦ none, []) := rfl
  have hfits : ¬ Fits (start fun _ _ ↦ none, [])
    (.clientMsg (List.replicate 1025 samplePacket)) := by
    rw [Fits, List.filter_replicate_of_pos (by decide), List.length_replicate]
    decide
  rw [← noneLost_clientMsg_iff hsound hnone] at hfits
  exact ⟨_, rfl, hfits⟩

end LogicManager

end QCLib
