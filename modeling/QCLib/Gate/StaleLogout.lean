import QCLib.Foundations.Histories
import QCLib.Gate.ClientThread

/-!
# Whose logout comes first

When a connection has closed, the gate tells the logic server that its user has gone. A user who
comes back on another connection should be told to be gone before anything that the new connection
sends. The end of the old connection waits as an event, though, and the packets of the new one wait
in a list of their own, which is handled first.

The events wait in the order in which connections opened and closed. So it is enough to look at a
login: as long as none is handled while the end of an older connection of the user waits
(`LogsInTurn`), and no end is dropped for want of its server (`Tells`), everything is forwarded in
order. A packet that waits while its connection is freed makes the run undefined (`SessionThere`).

A history has five kinds of entries: a connection has opened or closed, a login was let in, a packet
was forwarded for a user, the end of a connection was. `InOrder` is about the entries alone, and not
about the state of the gate. What connects the two is `Records`: the events that wait are the
entries whose handling is still to come, in their order.

`Ordered.step` has a case for every kind of step. The one with an argument is a packet that is
handled (`Ordered.message`), since it is the only one that forwards for a user; the others append an
entry that asks for nothing.
-/

open Histories StepRun

namespace QCLib

open ListenThread ClientThread TcpServer

/-! ### Histories -/

/-- What happens at the gate, to connections by their keys: one opens, one logs in as a user, one
closes whose session has a user, a packet is sent to a server for a user, the end of a connection is
sent to a server for a user. -/
inductive Entry
  | opened (k : SocketKey)
  | login (k : SocketKey) (u : UserId)
  | closed (k : SocketKey) (u : UserId)
  | packet (k : SocketKey) (u : UserId)
  | logout (k : SocketKey) (u : UserId)
  deriving DecidableEq, Repr

/-- **In order.** When a packet of a connection is sent for the user that has logged in on it, the
end of every connection that had logged in as the user and closed before this one opened has been
sent. -/
def InOrder (history : List Entry) : Prop :=
  ∀ pre post k k' u, history = pre ++ .packet k' u :: post → .login k' u ∈ pre →
    [.login k u, .closed k u, .opened k'].Sublist pre → .logout k u ∈ pre

/-- The property, packet by packet: what has to hold at a packet is a matter of what came before it,
so that it can be shown one entry at a time. -/
theorem inOrder_iff {history : List Entry} : InOrder history ↔
    Each (fun pre x ↦ ∀ k k' u, x = .packet k' u → .login k' u ∈ pre →
      [.login k u, .closed k u, .opened k'].Sublist pre → .logout k u ∈ pre) history :=
  ⟨fun h pre _ post hsplit k k' u hx ↦ h pre post k k' u (hx ▸ hsplit),
    fun h pre post k k' u hsplit ↦ h pre _ post hsplit k k' u rfl⟩

/-- A history stays in order if the new entry finds what it needs in front of it. -/
theorem InOrder.concat {history : List Entry} {x : Entry} (h : InOrder history)
    (hx : ∀ k k' u, x = .packet k' u → .login k' u ∈ history →
      [.login k u, .closed k u, .opened k'].Sublist history → .logout k u ∈ history) :
    InOrder (history ++ [x]) :=
  inOrder_iff.2 ((inOrder_iff.1 h).concat hx)

/-- The thread, and its history, oldest first. -/
structure Watching where
  loop : Listening ClientThread
  history : List Entry := []

namespace Watching

/-- The users and the commands of the packets that have been forwarded between two states. -/
def forwardedCmds (s s' : ClientThread) : List (UserId × Option WholeCmd) :=
  (forwardedBy s s').filterMap fun f ↦
    f.2.unwrap.map fun inner ↦ (inner.1.userOnlyId, Message.wholeCmd inner.2)

variable (proto : ClientProto)

/-- The login that the next packet is, if it sets the session of its connection. -/
def nextLogin (s : Listening ClientThread) : Option (SocketKey × UserId) :=
  (nextMsg s).bind fun msg ↦ (acceptedLogin proto msg.message).bind fun login ↦
    if s.state.listener.sessionMap[login.1]? = none ∧ s.state.listener.Open msg.userSession then
      (s.state.listener.context msg.userSession).map fun us ↦ (us.socketKey, login.1)
    else none

/-- What is to be seen of a step. -/
def observe (s s' : Listening ClientThread) : Happening → List Entry
  | .turn (.connect conn) =>
    ((s'.state.listener.context conn).map fun us ↦ .opened us.socketKey).toList
  | .turn (.disConnect conn) =>
    ((s.state.listener.context conn).map fun us ↦ .closed us.socketKey us.userId).toList
  | .turn .message =>
    ((nextLogin proto s).map fun p ↦ .login p.1 p.2).toList ++
      match (nextMsg s).bind fun msg ↦ s.state.listener.context msg.userSession with
      | some us => (forwardedCmds s.state s'.state).map fun p ↦ .packet us.socketKey p.1
      | none => []
  | .turn .event =>
    match nextEvt s with
    | some evt => (forwardedCmds s.state s'.state).filterMap fun p ↦
        if p.2 = some WholeCmd.userlogin then some (.logout evt.socketKey p.1) else none
    | none => []
  | .turn (.receive _) | .turn (.connectDestroyed _) | .turn .receiveMsg | .turn .getEvents
  | .servers _ _ => []

/-- A step of the thread. -/
def step (s : Watching) (i : Happening) : Option Watching :=
  (ClientThread.step proto s.loop i).map fun loop ↦
    ⟨loop, s.history ++ observe proto s.loop loop i⟩

/-- What can happen to the thread. -/
def Possible (s : Watching) (i : Happening) : Prop := ClientThread.Possible proto s.loop i

/-- A step is defined, unless the session that it needs has been freed. -/
def Defined (s : Watching) (i : Happening) : Prop :=
  SessionThere s.loop i → (s.step proto i).isSome

/-- No event says that the user has gone and waits before the one that says that the connection with
the key has opened. -/
def InTurn (u : UserId) (k : SocketKey) (waiting : List TcpEvent) : Prop :=
  waiting.Pairwise fun e e' ↦
    ¬ (e.eventId = .disconnected ∧ e.userId = u ∧ e'.eventId = .connected ∧ e'.socketKey = k)

instance (u : UserId) (k : SocketKey) (waiting : List TcpEvent) :
    Decidable (InTurn u k waiting) :=
  inferInstanceAs (Decidable (List.Pairwise _ _))

/-- A login that sets a session is handled when the end of no older connection of its user waits. -/
def LogsInTurn (s : Watching) : Happening → Prop
  | .turn .message =>
    match nextLogin proto s.loop with
    | some (k, u) => InTurn u k ((thread proto).waiting s.loop)
    | none => True
  | _ => True

/-- The end of a connection that has logged in as its user is handled when its server is there to be
told. -/
def Tells (s : Watching) : Happening → Prop
  | .turn .event =>
    match nextEvt s.loop with
    | some evt => evt.eventId = .disconnected → .login evt.socketKey evt.userId ∈ s.history →
      s.loop.state.Reaches evt.serverId
    | none => True
  | _ => True

/-! ### The events in a history -/

/-- What an event says. -/
def entry (e : TcpEvent) : Option Entry :=
  match e.eventId with
  | .connected => some (.opened e.socketKey)
  | .disconnected => some (.closed e.socketKey e.userId)
  | .error | .firstRead => none

/-- The entries that are set as events. -/
def IsEvent : Entry → Bool
  | .opened _ | .closed _ _ => true
  | .login _ _ | .packet _ _ | .logout _ _ => false

/-- **The history and the events that wait**: what has been set as an event has been handled or
waits, in this order; and if the end of a connection that had logged in as its user has been
handled, it has been sent. -/
def Records (history : List Entry) (waiting : List TcpEvent) : Prop :=
  ∃ handled, history.filter IsEvent = handled ++ waiting.filterMap entry ∧
    ∀ k u, .closed k u ∈ handled → .login k u ∈ history → .logout k u ∈ history

variable {proto} {history : List Entry} {waiting : List TcpEvent} {e : TcpEvent} {k k' : SocketKey}
  {u : UserId} {x : Entry}

/-- A closing is told by an event of that kind, with the user that it carries. -/
theorem entry_eq_closed (h : entry e = some (.closed k u)) :
    e.eventId = .disconnected ∧ e.userId = u := by
  rw [entry] at h
  split at h
  · cases h
  · next he =>
    obtain ⟨-, rfl⟩ := Entry.closed.inj (Option.some.inj h)
    exact ⟨he, rfl⟩
  all_goals cases h

/-- An opening is told by an event of that kind, with its socket key. -/
theorem entry_eq_opened (h : entry e = some (.opened k)) :
    e.eventId = .connected ∧ e.socketKey = k := by
  rw [entry] at h
  split at h
  · next he => exact ⟨he, Entry.opened.inj (Option.some.inj h)⟩
  all_goals cases h

/-- A callback that sets an event is noted in the history, and its event waits. -/
theorem Records.set (h : Records history waiting) (he : entry e = some x) (hx : IsEvent x = true) :
    Records (history ++ [x]) (waiting ++ [e]) := by
  obtain ⟨handled, hsplit, hlogout⟩ := h
  refine ⟨handled, ?_, fun k u hmem hlogin ↦ List.mem_append_left _ (hlogout k u hmem ?_)⟩
  · rw [List.filter_append, hsplit, List.filterMap_append, List.append_assoc, List.filter_cons, hx,
      List.filterMap_cons, he]
    rfl
  · refine (List.mem_append.1 hlogin).resolve_right fun heq ↦ ?_
    obtain rfl := List.mem_singleton.1 heq
    cases hx

/-- Something else is seen. A login is one of a connection that has not closed. -/
theorem Records.note (h : Records history waiting) (hx : IsEvent x = false)
    (hlogin : ∀ k u, x = .login k u → .closed k u ∉ history) :
    Records (history ++ [x]) waiting := by
  obtain ⟨handled, hsplit, hlogout⟩ := h
  refine ⟨handled, ?_, fun k u hmem hk ↦ ?_⟩
  · rw [List.filter_append, hsplit, List.filter_cons, hx]
    exact List.append_nil _
  · rcases List.mem_append.1 hk with hk | hk
    · exact List.mem_append_left _ (hlogout k u hmem hk)
    · have hfilter : .closed k u ∈ history.filter IsEvent := by
        rw [hsplit]
        exact List.mem_append_left _ hmem
      exact absurd (List.mem_of_mem_filter hfilter) (hlogin k u (List.mem_singleton.1 hk).symm)

/-- The end of a connection is handled, and has been sent if somebody had logged in. -/
theorem Records.handle (h : Records history (e :: waiting)) (he : e.eventId = .disconnected)
    (htold : .login e.socketKey e.userId ∈ history → .logout e.socketKey e.userId ∈ history) :
    Records history waiting := by
  obtain ⟨handled, hsplit, hlogout⟩ := h
  have hentry : entry e = some (.closed e.socketKey e.userId) := by rw [entry, he]
  refine ⟨handled ++ [.closed e.socketKey e.userId], ?_, fun k u hmem hk ↦ ?_⟩
  · rw [hsplit, List.filterMap_cons, hentry, List.append_assoc]
    rfl
  · rcases List.mem_append.1 hmem with hmem | hmem
    · exact hlogout k u hmem hk
    · obtain ⟨rfl, rfl⟩ := Entry.closed.inj (List.mem_singleton.1 hmem)
      exact htold hk

/-- Handling any event but a closing leaves the records, since they are about closings. -/
theorem Records.skip (h : Records history (e :: waiting)) (he : e.eventId ≠ .disconnected) :
    Records history waiting := by
  obtain ⟨handled, hsplit, hlogout⟩ := h
  refine ⟨handled ++ (entry e).toList, ?_, fun k u hmem ↦ ?_⟩
  · rw [hsplit, List.filterMap_cons, List.append_assoc]
    cases entry e <;> rfl
  · rcases List.mem_append.1 hmem with hmem | hmem
    · exact hlogout k u hmem
    · exact absurd (entry_eq_closed (Option.mem_toList.1 hmem)).1 he

/-- **In turn is in order.** If no older end of the user waits, then it has been sent. -/
theorem Records.logout_mem (h : Records history waiting) (hturn : InTurn u k' waiting)
    (hsub : [.login k u, .closed k u, .opened k'].Sublist history) : .logout k u ∈ history := by
  obtain ⟨handled, hsplit, hlogout⟩ := h
  have hlogin : .login k u ∈ history := hsub.subset List.mem_cons_self
  have hevents : [.closed k u, .opened k'].Sublist (handled ++ waiting.filterMap entry) := by
    rw [← hsplit]
    exact (List.sublist_of_cons_sublist hsub).filter IsEvent
  obtain ⟨l₁, l₂, hpair, hsub₁, hsub₂⟩ := List.sublist_append_iff.1 hevents
  cases l₁ with
  | cons y l₁ =>
    obtain ⟨rfl, -⟩ := List.cons.inj hpair
    exact hlogout k u (hsub₁.subset List.mem_cons_self) hlogin
  | nil =>
    -- then both wait, the end of the old connection before the start of the new one
    have hpairwise : (waiting.filterMap entry).Pairwise fun a b ↦
        ¬ (a = .closed k u ∧ b = .opened k') := by
      refine List.pairwise_filterMap.2 (hturn.imp fun {e e'} hno a ha b hb hab ↦ hno ?_)
      obtain ⟨rfl, rfl⟩ := hab
      obtain ⟨hid, huser⟩ := entry_eq_closed ha
      exact ⟨hid, huser, entry_eq_opened hb⟩
    rw [List.nil_append] at hpair
    rw [← hpair] at hsub₂
    have hrel := (List.pairwise_cons.1 (hpairwise.sublist hsub₂)).1 _ (List.mem_singleton_self _)
    exact absurd ⟨rfl, rfl⟩ hrel

/-! ### Turns -/

variable {us : UserSession}

/-- A connection that opens under another key changes no user's turn. -/
theorem InTurn.connected (h : InTurn u k waiting) (hne : k' ≠ k) :
    InTurn u k (waiting ++ [⟨k', 0, 0, .connected, 0⟩]) := by
  refine List.pairwise_append.2 ⟨h, List.pairwise_singleton _ _, fun e _ e' he' hbad ↦ ?_⟩
  obtain rfl := List.mem_singleton.1 he'
  exact hne hbad.2.2.2

/-- A connection closes: its end waits behind everything that has opened. -/
theorem InTurn.disconnected (h : InTurn u k waiting) (us : UserSession) : InTurn u k
    (waiting ++ [⟨us.socketKey, us.userId, us.sessionServerId, .disconnected, 0⟩]) := by
  refine List.pairwise_append.2 ⟨h, List.pairwise_singleton _ _, fun e _ e' he' hbad ↦ ?_⟩
  obtain rfl := List.mem_singleton.1 he'
  cases hbad.2.2.1

/-- An entry that is not the last one was there before. -/
theorem mem_of_mem_concat {y : Entry} (hne : y ≠ x) (h : y ∈ history ++ [x]) : y ∈ history :=
  (List.mem_append.1 h).resolve_right fun hmem ↦ hne (List.mem_singleton.1 hmem)

/-- **The invariant**: no session of a connection that has logged in is ahead of an older end of its
user, and the history says what has been handled. The keys in the history are those of connections,
and those that have closed are not open. -/
structure Ordered (proto : ClientProto) (s : Watching) : Prop where
  sound : Sound proto s.loop
  known : ∀ k u, .login k u ∈ s.history →
    ∃ c us, s.loop.state.listener.context c = some us ∧ us.socketKey = k
  closed : ∀ k u, .closed k u ∈ s.history →
    ∃ c us, s.loop.state.listener.context c = some us ∧ us.socketKey = k ∧
      ¬ s.loop.state.listener.Open c
  turn : ∀ c us, s.loop.state.listener.context c = some us →
    .login us.socketKey us.userId ∈ s.history →
      InTurn us.userId us.socketKey ((thread proto).waiting s.loop)
  records : Records s.history ((thread proto).waiting s.loop)
  inOrder : InOrder s.history

variable {state state' : ClientThread} {msgList msgs : List MsgFromClient} {msg : MsgFromClient}
  {phase : Phase} {conn c : TcpConnectionPtr} {l : TcpServer} {evts : List TcpEvent}
  {evt : TcpEvent}

/-- The next step is a login of `u` if and only if the handler lets `u` in on this packet, and then
the history notes it under the key of the packet's session. -/
theorem nextLogin_eq_some :
    nextLogin proto ⟨state, msgList, .messages (msg :: msgs)⟩ = some (k, u) ↔ ∃ v us,
      LogsIn proto state msg u v ∧ state.listener.context msg.userSession = some us ∧
        us.socketKey = k := by
  have hunfold : nextLogin proto ⟨state, msgList, .messages (msg :: msgs)⟩ =
      (acceptedLogin proto msg.message).bind fun login ↦
        if state.listener.sessionMap[login.1]? = none ∧ state.listener.Open msg.userSession then
          (state.listener.context msg.userSession).map fun us ↦ (us.socketKey, login.1)
        else none := rfl
  rw [hunfold, Option.bind_eq_some_iff]
  constructor
  · rintro ⟨login, haccept, hif⟩
    split_ifs at hif with hcan
    obtain ⟨us, hus, heq⟩ := Option.map_eq_some_iff.1 hif
    obtain ⟨rfl, rfl⟩ := Prod.mk.inj heq
    exact ⟨login.2, us, ⟨haccept, hcan⟩, hus, rfl⟩
  · rintro ⟨v, us, ⟨haccept, hcan⟩, hus, rfl⟩
    refine ⟨(u, v), haccept, ?_⟩
    rw [if_pos hcan, hus]
    rfl

theorem nextLogin_eq_none (h : nextLogin proto ⟨state, msgList, .messages (msg :: msgs)⟩ = none)
    (u : UserId) (v : ServerId) : ¬ LogsIn proto state msg u v := by
  intro hlogs
  obtain ⟨us, hus, -⟩ := id hlogs.2.2
  exact absurd (h.symm.trans (nextLogin_eq_some.2 ⟨v, us, hlogs, hus, rfl⟩)) (by simp)

/-- A new connection is told at the end of the history, behind whatever was told about older ones.
-/
theorem Ordered.connect (h : Ordered proto ⟨⟨state, msgList, phase⟩, history⟩)
    (hc : state.listener.context conn = none) (hl : state.listener.onConnect conn = some l)
    (hsound : Sound proto ⟨state.withListener l, msgList, phase⟩) :
    Ordered proto ⟨⟨state.withListener l, msgList, phase⟩, history ++
      observe proto ⟨state, msgList, phase⟩ ⟨state.withListener l, msgList, phase⟩
        (.turn (.connect conn))⟩ := by
  obtain ⟨hmax, -, -, -, hctx⟩ := exists_onConnect hl
  have hne : ∀ c us, state.listener.context c = some us → c ≠ conn := by
    rintro c us hus rfl
    exact Option.some_ne_none us (hus.symm.trans hc)
  have hwaiting : (thread proto).waiting ⟨state.withListener l, msgList, phase⟩ = _ :=
    waiting_connect hl
  have hobserve : observe proto ⟨state, msgList, phase⟩ ⟨state.withListener l, msgList, phase⟩
      (.turn (.connect conn)) = [.opened (state.listener.socketKeyIndex + 1)] := by
    show ((l.context conn).map _).toList = _
    rw [hctx, if_pos rfl]
    rfl
  rw [hobserve]
  refine ⟨hsound, fun k u hmem ↦ ?_, fun k u hmem ↦ ?_, fun c us hus hmem ↦ ?_, ?_,
    h.inOrder.concat fun k k' u hx ↦ by cases hx⟩
  · obtain ⟨c, us, hus, hkey⟩ := h.known k u (mem_of_mem_concat (by simp) hmem)
    obtain ⟨hold, -⟩ := h.sound.booked.numbered.onConnect_of_ne hl (hne c us hus)
    exact ⟨c, us, hold.trans hus, hkey⟩
  · obtain ⟨c, us, hus, hkey, hclosed⟩ := h.closed k u (mem_of_mem_concat (by simp) hmem)
    obtain ⟨hold, hopen⟩ := h.sound.booked.numbered.onConnect_of_ne hl (hne c us hus)
    exact ⟨c, us, hold.trans hus, hkey, fun ho ↦ hclosed (hopen.1 ho)⟩
  · have hus' : l.context c = some us := hus
    rw [hwaiting]
    rw [hctx] at hus'
    split_ifs at hus'
    · -- nobody has logged in on the new connection
      obtain rfl := Option.some.inj hus'
      obtain ⟨c', us', hus', hkey⟩ := h.known _ _ (mem_of_mem_concat (by simp) hmem)
      exact absurd hkey (h.sound.booked.numbered.new_key hmax hus')
    · exact (h.turn c us hus' (mem_of_mem_concat (by simp) hmem)).connected
        (h.sound.booked.numbered.new_key hmax hus').symm
  · rw [hwaiting]
    exact h.records.set rfl rfl

/-- A closing is told when it happens. The user that it names is the one whom the session belonged
to. -/
theorem Ordered.disConnect (h : Ordered proto ⟨⟨state, msgList, phase⟩, history⟩)
    (hus : state.listener.context conn = some us)
    (hsound : Sound proto
      ⟨state.withListener (state.listener.onDisConnect conn), msgList, phase⟩) :
    Ordered proto ⟨⟨state.withListener (state.listener.onDisConnect conn), msgList, phase⟩,
      history ++ observe proto ⟨state, msgList, phase⟩
        ⟨state.withListener (state.listener.onDisConnect conn), msgList, phase⟩
        (.turn (.disConnect conn))⟩ := by
  have hctx : ∀ c, (state.withListener (state.listener.onDisConnect conn)).listener.context c =
      state.listener.context c := congrFun (onDisConnect_tables hus).2.1
  have hwaiting : (thread proto).waiting
      ⟨state.withListener (state.listener.onDisConnect conn), msgList, phase⟩ = _ :=
    waiting_disConnect hus
  have hobserve : observe proto ⟨state, msgList, phase⟩
      ⟨state.withListener (state.listener.onDisConnect conn), msgList, phase⟩
      (.turn (.disConnect conn)) = [.closed us.socketKey us.userId] := by
    show ((state.listener.context conn).map _).toList = _
    rw [hus]
    rfl
  rw [hobserve]
  have hopen := fun c ↦ h.sound.booked.numbered.onDisConnect_open hus (c := c)
  refine ⟨hsound, fun k u hmem ↦ ?_, fun k u hmem ↦ ?_, fun c us' hus' hmem ↦ ?_, ?_,
    h.inOrder.concat fun k k' u hx ↦ by cases hx⟩
  · obtain ⟨c, us', hus', hkey⟩ := h.known k u (mem_of_mem_concat (by simp) hmem)
    exact ⟨c, us', (hctx c).trans hus', hkey⟩
  · rcases List.mem_append.1 hmem with hmem | hmem
    · obtain ⟨c, us', hus', hkey, hclosed⟩ := h.closed k u hmem
      exact ⟨c, us', (hctx c).trans hus', hkey, fun ho ↦ hclosed ((hopen c).1 ho).1⟩
    · obtain ⟨rfl, rfl⟩ := Entry.closed.inj (List.mem_singleton.1 hmem)
      exact ⟨conn, us, (hctx conn).trans hus, rfl, fun ho ↦ ((hopen conn).1 ho).2 rfl⟩
  · rw [hwaiting]
    have hturn := h.turn c us' ((hctx c).symm.trans hus') (mem_of_mem_concat (by simp) hmem)
    exact hturn.disconnected us
  · rw [hwaiting]
    exact h.records.set rfl rfl

/-- A packet is handled, as far as the sessions go. -/
theorem Ordered.login (h : Ordered proto ⟨⟨state, msgList, .messages (msg :: msgs)⟩, history⟩)
    (hm : Handles proto state msg state')
    (hlogin : LogsInTurn proto ⟨⟨state, msgList, .messages (msg :: msgs)⟩, history⟩
      (.turn .message))
    (hsound : Sound proto ⟨state', msgList, .messages msgs⟩) :
    Ordered proto ⟨⟨state', msgList, .messages msgs⟩, history ++
      ((nextLogin proto ⟨state, msgList, .messages (msg :: msgs)⟩).map
        fun p ↦ .login p.1 p.2).toList⟩ := by
  have hwaiting : (thread proto).waiting ⟨state', msgList, .messages msgs⟩ =
      (thread proto).waiting ⟨state, msgList, .messages (msg :: msgs)⟩ := hm.keepsClosed.eventList
  have hknown : ∀ k u, .login k u ∈ history →
      ∃ c us, state'.listener.context c = some us ∧ us.socketKey = k := by
    intro k u hmem
    obtain ⟨c, us, hus, hkey⟩ := h.known k u hmem
    have hmap := hm.keepsClosed.socketKey c
    rw [hus] at hmap
    obtain ⟨us', hus', hkey'⟩ := Option.map_eq_some_iff.1 hmap
    exact ⟨c, us', hus', hkey'.trans hkey⟩
  have hclosed : ∀ k u, .closed k u ∈ history → ∃ c us, state'.listener.context c = some us ∧
      us.socketKey = k ∧ ¬ state'.listener.Open c := by
    intro k u hmem
    obtain ⟨c, us, hus, hkey, hclosed⟩ := h.closed k u hmem
    exact ⟨c, us, (hm.keepsClosed.closed c hclosed).trans hus, hkey,
      fun ho ↦ hclosed (hm.keepsClosed.open_iff.1 ho)⟩
  rw [LogsInTurn] at hlogin
  cases hnext : nextLogin proto ⟨state, msgList, .messages (msg :: msgs)⟩ with
  | none =>
    -- nobody's session has changed
    have hctx : ∀ c, state'.listener.context c = state.listener.context c := fun c ↦ by
      rcases eq_or_ne c msg.userSession with rfl | hne
      · exact hm.same (nextLogin_eq_none hnext)
      · exact hm.others c hne
    show Ordered proto ⟨_, history ++ []⟩
    rw [List.append_nil]
    refine ⟨hsound, hknown, hclosed, fun c us hus hmem ↦ ?_, hwaiting ▸ h.records, h.inOrder⟩
    rw [hwaiting]
    exact h.turn c us ((hctx c).symm.trans hus) hmem
  | some p =>
    obtain ⟨k, u⟩ := p
    rw [hnext] at hlogin
    obtain ⟨v, us₀, hlogs, hus₀, rfl⟩ := nextLogin_eq_some.1 hnext
    have hself := hm.loggedIn u v us₀ hlogs hus₀
    show Ordered proto ⟨_, history ++ [.login us₀.socketKey u]⟩
    have hopen : state'.listener.Open msg.userSession := hm.keepsClosed.open_iff.2 hlogs.2.2
    refine ⟨hsound, fun k' u' hmem ↦ ?_,
      fun k' u' hmem ↦ hclosed k' u' (mem_of_mem_concat (by simp) hmem), fun c us hus hmem ↦ ?_,
      hwaiting ▸ h.records.note rfl fun k' u' hx hmem ↦ ?_,
      h.inOrder.concat fun k k' u hx ↦ by cases hx⟩
    · rcases List.mem_append.1 hmem with hmem | hmem
      · exact hknown k' u' hmem
      · obtain ⟨rfl, rfl⟩ := Entry.login.inj (List.mem_singleton.1 hmem)
        exact ⟨_, _, hself, rfl⟩
    · rw [hwaiting]
      rcases eq_or_ne c msg.userSession with rfl | hne
      · obtain rfl := Option.some.inj (hus.symm.trans hself)
        exact hlogin
      · refine h.turn c us ((hm.others c hne).symm.trans hus) ?_
        rcases List.mem_append.1 hmem with hmem | hmem
        · exact hmem
        · -- the login is on a connection with another key
          obtain ⟨hkey, -⟩ := Entry.login.inj (List.mem_singleton.1 hmem)
          exact absurd (hsound.booked.numbered.key_injective c _ us _ hus hself hkey) hne
    · -- the connection is open, and so it is none that has closed
      obtain ⟨rfl, rfl⟩ := Entry.login.inj hx
      obtain ⟨c, us, hus, hkey, hno⟩ := hclosed _ _ hmem
      obtain rfl := hsound.booked.numbered.key_injective c _ us _ hus hself hkey
      exact hno hopen

/-- A packet is sent for the user of its connection. -/
theorem Ordered.packet {s : Listening ClientThread} (h : Ordered proto ⟨s, history⟩)
    (hus : s.state.listener.context c = some us) :
    Ordered proto ⟨s, history ++ [.packet us.socketKey us.userId]⟩ := by
  refine ⟨h.sound, fun k u hmem ↦ h.known k u (mem_of_mem_concat (by simp) hmem),
    fun k u hmem ↦ h.closed k u (mem_of_mem_concat (by simp) hmem),
    fun c us hus hmem ↦ h.turn c us hus (mem_of_mem_concat (by simp) hmem),
    h.records.note rfl (fun k u hx ↦ by cases hx), h.inOrder.concat ?_⟩
  intro k k' u hx hlogin hsub
  obtain ⟨rfl, rfl⟩ := Entry.packet.inj hx
  exact h.records.logout_mem (h.turn c us hus hlogin) hsub

/-- What a forwarding adds to the history is one packet, under the user that it was forwarded for.
-/
theorem forwardedCmds_of_forwards {dest : ServerId} {ids : MsgInServer} {pkt : List UInt8}
    (h : Forwards state state' dest ids pkt) :
    ∃ pad, forwardedCmds state state' = [(ids.userOnlyId, Message.wholeCmd (pkt ++ pad))] := by
  obtain ⟨outer, pad, hfwd, hunwrap⟩ := h
  refine ⟨pad, ?_⟩
  rw [forwardedCmds, hfwd, List.filterMap_cons, hunwrap]
  rfl

/-- **The step that the property is about.** A packet is forwarded for the user of its session, and
if that session was let in after a stale one was closed, then the stale one's logout has been
forwarded: this is what `LogsInTurn` asks of the login. -/
theorem Ordered.message (h : Ordered proto ⟨⟨state, msgList, .messages (msg :: msgs)⟩, history⟩)
    (hm : state.doClientMessage proto msg = some state')
    (hlogin : LogsInTurn proto ⟨⟨state, msgList, .messages (msg :: msgs)⟩, history⟩
      (.turn .message))
    (hsound : Sound proto ⟨state', msgList, .messages msgs⟩) :
    Ordered proto ⟨⟨state', msgList, .messages msgs⟩, history ++
      observe proto ⟨state, msgList, .messages (msg :: msgs)⟩ ⟨state', msgList, .messages msgs⟩
        (.turn .message)⟩ := by
  have hhandles : Handles proto state msg state' :=
    doClientMessage_handles h.sound.booked.numbered h.sound.buffer hm
  have hnew := h.login hhandles hlogin hsound
  have hnext : nextMsg ⟨state, msgList, .messages (msg :: msgs)⟩ = some msg := rfl
  have hsilent : forwardedBy state state' = [] →
      Ordered proto ⟨⟨state', msgList, .messages msgs⟩, history ++
        observe proto ⟨state, msgList, .messages (msg :: msgs)⟩ ⟨state', msgList, .messages msgs⟩
          (.turn .message)⟩ := fun hnothing ↦ by
    have hnone : forwardedCmds state state' = [] := by
      rw [forwardedCmds, hnothing]
      rfl
    rw [observe, ← List.append_assoc, hnext, Option.bind_some, hnone]
    split <;> simpa only [List.map_nil, List.append_nil] using hnew
  cases hdest : destination proto state msg with
  | none => exact hsilent (hhandles.silent hdest)
  | some dest =>
    obtain ⟨us, pkt, hus, hsends⟩ := hhandles.sends dest hdest
    rw [Sends] at hsends
    split_ifs at hsends with hreach
    · obtain ⟨us₀, hus₀, hkey⟩ := hhandles.keepsClosed.exists_context hus
      obtain ⟨pad, hcmds⟩ := forwardedCmds_of_forwards hsends
      rw [observe, ← List.append_assoc, hnext, Option.bind_some, hcmds, hus₀]
      show Ordered proto ⟨_, _ ++ [.packet us₀.socketKey us.userId]⟩
      rw [hkey]
      exact hnew.packet hus
    · exact hsilent hsends

/-- An event forwards at most the logout of a session that has been closed. -/
theorem Ordered.event (h : Ordered proto ⟨⟨state, msgList, .events (evt :: evts)⟩, history⟩)
    (he : state.doClientEvent proto evt = some state')
    (htells : Tells ⟨⟨state, msgList, .events (evt :: evts)⟩, history⟩ (.turn .event))
    (hsound : Sound proto ⟨state', msgList, .events evts⟩) :
    Ordered proto ⟨⟨state', msgList, .events evts⟩, history ++
      observe proto ⟨state, msgList, .events (evt :: evts)⟩ ⟨state', msgList, .events evts⟩
        (.turn .event)⟩ := by
  obtain ⟨hlistener, -, hforwards⟩ := doClientEvent_spec h.sound.buffer he
  have hctx : ∀ c, state'.listener.context c = state.listener.context c := fun c ↦ by
    rw [hlistener]
  have hwaiting : (thread proto).waiting ⟨state, msgList, .events (evt :: evts)⟩ =
      evt :: (thread proto).waiting ⟨state', msgList, .events evts⟩ :=
    waiting_event (congrArg TcpServer.eventList hlistener)
  have hrecords : Records history (evt :: (thread proto).waiting ⟨state', msgList, .events evts⟩) :=
    hwaiting ▸ h.records
  have hturn : ∀ c us, state'.listener.context c = some us →
      .login us.socketKey us.userId ∈ history → InTurn us.userId us.socketKey
        ((thread proto).waiting ⟨state', msgList, .events evts⟩) := by
    intro c us hus hmem
    have hturn := h.turn c us ((hctx c).symm.trans hus) hmem
    rw [hwaiting] at hturn
    exact (List.pairwise_cons.1 hturn).2
  have hknown : ∀ k u, .login k u ∈ history →
      ∃ c us, state'.listener.context c = some us ∧ us.socketKey = k := by
    intro k u hmem
    obtain ⟨c, us, hus, hkey⟩ := h.known k u hmem
    exact ⟨c, us, (hctx c).trans hus, hkey⟩
  have hclosed : ∀ k u, .closed k u ∈ history → ∃ c us, state'.listener.context c = some us ∧
      us.socketKey = k ∧ ¬ state'.listener.Open c := by
    intro k u hmem
    obtain ⟨c, us, hus, hkey, hclosed⟩ := h.closed k u hmem
    exact ⟨c, us, (hctx c).trans hus, hkey, hlistener ▸ hclosed⟩
  -- an event that is told nobody leaves the history as it is
  have hsilent : forwardedBy state state' = [] →
      Records history ((thread proto).waiting ⟨state', msgList, .events evts⟩) →
      Ordered proto ⟨⟨state', msgList, .events evts⟩, history ++
        observe proto ⟨state, msgList, .events (evt :: evts)⟩ ⟨state', msgList, .events evts⟩
          (.turn .event)⟩ := fun hnothing hrecords' ↦ by
    have hobserve : observe proto ⟨state, msgList, .events (evt :: evts)⟩
        ⟨state', msgList, .events evts⟩ (.turn .event) = [] := by
      show (forwardedCmds state state').filterMap _ = _
      rw [forwardedCmds, hnothing]
      rfl
    rw [hobserve, List.append_nil]
    exact ⟨hsound, hknown, hclosed, hturn, hrecords', h.inOrder⟩
  split_ifs at hforwards with hid
  · obtain ⟨pkt, hsends, hcmd⟩ := hforwards
    rw [Sends] at hsends
    split_ifs at hsends with hreach
    · obtain ⟨pad, hcmds⟩ := forwardedCmds_of_forwards hsends
      have hobserve : observe proto ⟨state, msgList, .events (evt :: evts)⟩
          ⟨state', msgList, .events evts⟩ (.turn .event) =
            [.logout evt.socketKey evt.userId] := by
        show (forwardedCmds state state').filterMap _ = _
        rw [hcmds, List.filterMap_cons, if_pos (hcmd pad)]
        rfl
      rw [hobserve]
      exact ⟨hsound, fun k u hmem ↦ hknown k u (mem_of_mem_concat (by simp) hmem),
        fun k u hmem ↦ hclosed k u (mem_of_mem_concat (by simp) hmem),
        fun c us hus hmem ↦ hturn c us hus (mem_of_mem_concat (by simp) hmem),
        (hrecords.note rfl fun k u hx ↦ by cases hx).handle hid fun _ ↦
          List.mem_append_right _ (List.mem_singleton_self _),
        h.inOrder.concat fun k k' u hx ↦ by cases hx⟩
    · exact hsilent hsends (hrecords.handle hid fun hlogin ↦ absurd (htells hid hlogin) hreach)
  · exact hsilent hforwards (hrecords.skip hid)

/-- **A step keeps the order** if no login is out of turn and no end is dropped. -/
theorem Ordered.step {s s' : Watching} {i : Happening} (h : Ordered proto s)
    (hp : s.Possible proto i) (hlogin : s.LogsInTurn proto i) (htells : s.Tells i)
    (hs : s.step proto i = some s') : Ordered proto s' := by
  obtain ⟨loop, hloop, rfl⟩ := Option.map_eq_some_iff.1 hs
  obtain ⟨s, history⟩ := s
  cases i with
  | servers serverIdList tcpServerListener =>
    obtain rfl := Option.some.inj hloop
    rw [observe, List.append_nil]
    exact ⟨h.sound.servers serverIdList tcpServerListener, h.known, h.closed, h.turn, h.records,
      h.inOrder⟩
  | turn i =>
    have hsound : Sound proto loop := h.sound.turn hp hloop
    cases steps_of_step hloop with
    | connect hl => exact h.connect hp hl hsound
    | disConnect conn =>
      obtain ⟨us, hus, -⟩ := id hp
      exact h.disConnect hus hsound
    | @connectDestroyed state msgList phase conn =>
      have hsame := sameTables_connectDestroyed state.listener conn
      have hwaiting : (thread proto).waiting
          ⟨state.withListener (state.listener.connectDestroyed conn), msgList, phase⟩ = _ :=
        waiting_connectDestroyed conn
      rw [observe, List.append_nil]
      refine ⟨hsound, fun k u hmem ↦ ?_, fun k u hmem ↦ ?_, fun c us hus hmem ↦ ?_,
        hwaiting ▸ h.records, h.inOrder⟩
      · obtain ⟨c, us, hus, hkey⟩ := h.known k u hmem
        exact ⟨c, us, (congrFun hsame.context c).trans hus, hkey⟩
      · obtain ⟨c, us, hus, hkey, hclosed⟩ := h.closed k u hmem
        exact ⟨c, us, (congrFun hsame.context c).trans hus, hkey,
          fun ho ↦ hclosed (hsame.keepsClosed.open_iff.1 ho)⟩
      · exact hwaiting ▸ h.turn c us ((congrFun hsame.context c).symm.trans hus) hmem
    | receive msg =>
      rw [observe, List.append_nil]
      exact ⟨hsound, h.known, h.closed, h.turn, h.records, h.inOrder⟩
    | receiveMsg =>
      rw [observe, List.append_nil]
      exact ⟨hsound, h.known, h.closed, h.turn, h.records, h.inOrder⟩
    | message hm => exact h.message hm hlogin hsound
    | @getEvents state msgList =>
      have hwaiting : (thread proto).waiting ⟨state.withListener { state.listener with
          eventList := [] }, msgList, .events state.listener.eventList⟩ = _ := waiting_getEvents
      rw [observe, List.append_nil]
      exact ⟨hsound, h.known, h.closed, fun c us hus hmem ↦ hwaiting ▸ h.turn c us hus hmem,
        hwaiting ▸ h.records, h.inOrder⟩
    | event he => exact h.event he htells hsound

/-! ### Runs -/

instance (s : Watching) (i : Happening) : Decidable (s.Possible proto i) :=
  inferInstanceAs (Decidable (ClientThread.Possible proto s.loop i))

instance (s : Watching) (i : Happening) : Decidable (s.Defined proto i) :=
  inferInstanceAs (Decidable (_ → (s.step proto i).isSome))

instance (s : Watching) : ∀ i, Decidable (s.LogsInTurn proto i)
  | .turn .message =>
    match hnext : nextLogin proto s.loop with
    | some (k, u) => decidable_of_iff (InTurn u k ((thread proto).waiting s.loop)) (by
      rw [LogsInTurn, hnext])
    | none => isTrue (by rw [LogsInTurn, hnext]; trivial)
  | .turn (.connect _) | .turn (.receive _) | .turn (.disConnect _) | .turn (.connectDestroyed _)
  | .turn .receiveMsg | .turn .getEvents | .turn .event | .servers _ _ => isTrue trivial

instance (s : Watching) : ∀ i, Decidable (s.Tells i)
  | .turn .event =>
    match hnext : nextEvt s.loop with
    | some evt => decidable_of_iff (evt.eventId = .disconnected →
        .login evt.socketKey evt.userId ∈ s.history → s.loop.state.Reaches evt.serverId) (by
      rw [Tells, hnext])
    | none => isTrue (by rw [Tells, hnext]; trivial)
  | .turn (.connect _) | .turn (.receive _) | .turn (.disConnect _) | .turn (.connectDestroyed _)
  | .turn .receiveMsg | .turn .getEvents | .turn .message | .servers _ _ => isTrue trivial

/-- Nobody has connected, and nothing has happened. -/
def start (gate : GateManager) : Watching := { loop := ClientThread.start gate }

/-- **Nobody is told to be gone too late**, in a run that is defined as far as the sessions are
there, if every packet is handled while its session is there, no accepted login sets a session while
the end of an older connection of its user waits, and no end of a connection that has logged in is
dropped. Then the run is defined to its end. -/
theorem inOrder_of_logsInTurn {gate : GateManager} {l : List Happening}
    (hl : Guarded (step proto) (Possible proto) (start gate) l)
    (hdef : Guarded (step proto) (Defined proto) (start gate) l)
    (hok : Guarded (step proto)
      (fun s i ↦ SessionThere s.loop i ∧ s.LogsInTurn proto i ∧ s.Tells i) (start gate) l) :
    (∃ s, run (step proto) (start gate) l = some s) ∧
      Throughout (step proto) (fun s ↦ InOrder s.history) (start gate) l := by
  refine ⟨exists_run_of_isSome ((hdef.and hok).mono fun s i hi ↦ hi.1 hi.2.1), ?_⟩
  refine throughout_of_guarded (fun s (h : Ordered proto s) ↦ h.inOrder)
    (fun s i s' h hi hs ↦ h.step hi.1 hi.2.2.1 hi.2.2.2 hs) ?_ (hl.and hok)
  exact ⟨sound_start proto gate, fun k u hmem ↦ absurd hmem List.not_mem_nil,
    fun k u hmem ↦ absurd hmem List.not_mem_nil, fun c us hus hmem ↦ absurd hmem List.not_mem_nil,
    ⟨[], rfl, fun k u hmem ↦ absurd hmem List.not_mem_nil⟩, inOrder_iff.2 each_nil⟩

/-! ### Two runs -/

/-- A user logs in, closes the connection and opens another, and logs in on that when the loop has
handled the events. -/
def comesBack : List Happening :=
  [.connect 1, .receive ⟨samplePacket, 1⟩, .receiveMsg, .message, .disConnect 1, .connect 2,
    .connectDestroyed 1, .getEvents, .event, .event, .event, .receive ⟨samplePacket, 2⟩,
    .receiveMsg, .message].map .turn

/-- A user who comes back after the logout was forwarded. -/
theorem inOrder_comesBack :
    (∃ s, run (step sampleProto) (start sampleGate) comesBack = some s) ∧
      Throughout (step sampleProto) (fun s ↦ InOrder s.history) (start sampleGate) comesBack := by
  have h : Guarded (step sampleProto) (fun s i ↦ s.Possible sampleProto i ∧
      s.Defined sampleProto i ∧ SessionThere s.loop i ∧ s.LogsInTurn sampleProto i ∧ s.Tells i)
      (start sampleGate) comesBack := by decide +kernel
  exact inOrder_of_logsInTurn (h.mono fun _ _ hi ↦ hi.1) (h.mono fun _ _ hi ↦ hi.2.1)
    (h.mono fun _ _ hi ↦ hi.2.2)

/-- A user logs in, closes the connection, opens another and logs in on that before the loop takes
the events. -/
def overtakes : List Happening :=
  [.connect 1, .receive ⟨samplePacket, 1⟩, .receiveMsg, .message, .getEvents, .event, .disConnect 1,
    .connect 2, .receive ⟨samplePacket, 2⟩, .receiveMsg, .message].map .turn

/-- A user who is let in again before the logout is handled: the run is possible, and its history is
out of order. -/
theorem overtakes_out_of_order :
    Guarded (step sampleProto) (Possible sampleProto) (start sampleGate) overtakes ∧
      ∃ s, run (step sampleProto) (start sampleGate) overtakes = some s ∧ ¬ InOrder s.history := by
  refine ⟨by decide +kernel, ?_⟩
  have hend : (run (step sampleProto) (start sampleGate) overtakes).map (·.history) =
      some ([.opened 2, .login 2 7, .packet 2 7, .closed 2 7, .opened 3, .login 3 7] ++
        [.packet 3 7]) := by
    decide +kernel
  obtain ⟨s, hrun, hhistory⟩ := Option.map_eq_some_iff.1 hend
  refine ⟨s, hrun, fun h ↦ ?_⟩
  -- the login on the new connection has been sent, the end of the old one has not
  have hlogout := h _ [] 2 3 7 hhistory (by decide) (by decide)
  exact absurd hlogout (by decide)

end Watching

end QCLib
