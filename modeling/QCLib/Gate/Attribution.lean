import QCLib.Gate.ClientThread

/-!
# Under whose name packets are forwarded

Once the gate has accepted a login for a user and a server on an open connection, what it forwards
on behalf of the connection should carry these ids, until it accepts another. The ids come from the
session, and `AddSession` sets the session only if the user has none: a user who is logged in
elsewhere, or on this connection but under other ids, gets a connection whose packets go out under
the ids it had before, and these are zero on a new one. Such a login is `refused`.

Whether the ids are right is seen when something is sent, and not before: the login itself is
dropped if its server is not reached. And a packet that waits while its connection is closed and
freed is not attributed to anybody (`SessionThere`).

What has been *accepted* for a connection is kept beside the gate, as `Login`: the ids of the latest
login and whether the gate refused it. A step forwards on behalf of a connection, or of nobody
(`onBehalf`), and is attributed rightly if the ids on what it forwards are those of the login.

The condition, `FreeUser`, looks at the state before the step: the login that the packet depends on
was not refused, or nothing is forwarded at all. `attributed_iff_freeUser` is an equivalence along
runs. Its invariant, `Agrees`, says for every connection how its session and its login are related;
it is kept by all steps, also by those after which the two differ, which is why both directions come
out.
-/

open StepRun

namespace QCLib

open ListenThread ClientThread TcpServer

/-- A login that the gate has accepted. It is `refused` if the user had a session already and the
session of the connection had other ids. -/
structure Login where
  userId : UserId
  serverId : ServerId
  refused : Bool
  deriving DecidableEq, Repr

/-- The thread, and the last login that the gate has accepted on each connection, by its key, as
long as it was open then. -/
structure Attributing where
  loop : Listening ClientThread
  logins : SocketKey → Option Login := fun _ ↦ none

namespace Attributing

variable (proto : ClientProto)

/-- The login that a packet is on a connection with a session, if the connection is open. -/
def loginOf (s : ClientThread) (msg : MsgFromClient) (us : UserSession)
    (login : UserId × ServerId) : Option Login :=
  if s.listener.Open msg.userSession then
    some ⟨login.1, login.2, s.listener.sessionMap[login.1]? ≠ none ∧
      (us.userId, us.sessionServerId) ≠ login⟩
  else none

/-- The logins after a packet. -/
def loginsAfter (s : Attributing) (msg : MsgFromClient) : SocketKey → Option Login :=
  match acceptedLogin proto msg.message, s.loop.state.listener.context msg.userSession with
  | some login, some us =>
    Function.update s.logins us.socketKey (loginOf s.loop.state msg us login)
  | _, _ => s.logins

/-- The logins after a step. -/
def loginsNext (s : Attributing) : Happening → SocketKey → Option Login
  | .turn .message => ((nextMsg s.loop).map (s.loginsAfter proto)).getD s.logins
  | _ => s.logins

/-- A step of the thread, which is told when a login is handled. -/
def step (s : Attributing) (i : Happening) : Option Attributing :=
  (ClientThread.step proto s.loop i).map (⟨·, s.loginsNext proto i⟩)

/-- The connection on whose behalf a step forwards what it forwards: the one whose packet is
handled, or the one whose end is. -/
def onBehalf (s : Attributing) : Happening → Option SocketKey
  | .turn .message => (nextMsg s.loop).bind fun msg ↦
    (s.loop.state.listener.context msg.userSession).map (·.socketKey)
  | .turn .event => (nextEvt s.loop).map (·.socketKey)
  | _ => none

/-- **Attributed.** The step is defined, and what is forwarded on behalf of a connection with a
login goes to the server of the login, and carries the user and the server of the login. -/
def Attributed (s : Attributing) (i : Happening) : Prop :=
  ∃ s', s.step proto i = some s' ∧
    ∀ k ∈ s.onBehalf i, ∀ login ∈ s'.logins k,
      ∀ f ∈ forwardedBy s.loop.state s'.loop.state, f.1 = login.serverId ∧
        ∃ clientMsg, f.2.unwrap = some (⟨login.userId, login.serverId⟩, clientMsg)

/-- The server that a step has something for: the packet, or the end of a connection. -/
def destination (s : Attributing) : Happening → Option ServerId
  | .turn .message => (nextMsg s.loop).bind (ClientThread.destination proto s.loop.state)
  | .turn .event => (nextEvt s.loop).bind fun evt ↦
    if evt.eventId = .disconnected then some evt.serverId else none
  | _ => none

/-- Nothing is sent to a server on behalf of a connection whose last login was refused. -/
def FreeUser (s : Attributing) (i : Happening) : Prop :=
  ∀ k ∈ s.onBehalf i, ∀ login ∈ s.loginsNext proto i k, ∀ dest ∈ s.destination proto i,
    s.loop.state.Reaches dest → login.refused = false

/-- What can happen to the thread. -/
def Possible (s : Attributing) (i : Happening) : Prop := ClientThread.Possible proto s.loop i

/-- A step is defined, unless the session that it needs has been freed. -/
def Defined (s : Attributing) (i : Happening) : Prop :=
  SessionThere s.loop i → (s.step proto i).isSome

/-- The sessions of the connections with a login have its ids, unless it was refused. -/
structure Agrees (s : Attributing) : Prop where
  sound : Sound proto s.loop
  session : ∀ k login, s.logins k = some login →
    ∃ c us, s.loop.state.listener.context c = some us ∧ us.socketKey = k ∧
      (login.refused = false ↔ us.userId = login.userId ∧ us.sessionServerId = login.serverId)

variable {proto} {s s' : Attributing} {i : Happening} {state state' : ClientThread}
  {msgList msgs : List MsgFromClient} {logins : SocketKey → Option Login}
  {msg : MsgFromClient} {us : UserSession}

/-- After an accepted login on an open connection, the session has its ids exactly if the login was
not refused. -/
theorem session_of_login {login : UserId × ServerId} (h : Handles proto state msg state')
    (haccept : acceptedLogin proto msg.message = some login)
    (hus : state.listener.context msg.userSession = some us)
    (hopen : state.listener.Open msg.userSession) :
    ∃ us', state'.listener.context msg.userSession = some us' ∧ us'.socketKey = us.socketKey ∧
      (¬ (state.listener.sessionMap[login.1]? ≠ none ∧
          (us.userId, us.sessionServerId) ≠ login) ↔
        us'.userId = login.1 ∧ us'.sessionServerId = login.2) := by
  rcases Decidable.em (state.listener.sessionMap[login.1]? = none) with hfree | htaken
  · exact ⟨_, h.loggedIn login.1 login.2 us ⟨haccept, hfree, hopen⟩ hus, rfl,
      iff_of_true (fun hrefused ↦ hrefused.1 hfree) ⟨rfl, rfl⟩⟩
  · refine ⟨us, ?_, rfl, ?_⟩
    · rw [h.same fun u v hlog ↦ htaken ?_, hus]
      obtain rfl := Option.some.inj (haccept.symm.trans hlog.1)
      exact hlog.2.1
    · rw [and_iff_right htaken, not_not, Prod.ext_iff]

/-- The session of a connection with a login. -/
theorem Agrees.session_iff {c : TcpConnectionPtr} {login : Login} (h : s.Agrees proto)
    (hus : s.loop.state.listener.context c = some us)
    (hlogin : s.logins us.socketKey = some login) :
    login.refused = false ↔ us.userId = login.userId ∧ us.sessionServerId = login.serverId := by
  obtain ⟨c', us', hus', hkey, hids⟩ := h.session us.socketKey login hlogin
  obtain rfl := h.sound.booked.numbered.key_injective c' c us' us hus' hus hkey
  obtain rfl := Option.some.inj (hus'.symm.trans hus)
  exact hids

/-- A packet keeps the sessions and the logins in agreement. -/
theorem Agrees.message
    (h : Agrees proto ⟨⟨state, msgList, .messages (msg :: msgs)⟩, logins⟩)
    (hm : Handles proto state msg state')
    (hsound : Sound proto ⟨state', msgList, .messages msgs⟩) :
    Agrees proto ⟨⟨state', msgList, .messages msgs⟩, Attributing.loginsAfter proto
      ⟨⟨state, msgList, .messages (msg :: msgs)⟩, logins⟩ msg⟩ := by
  refine ⟨hsound, fun k login hk ↦ ?_⟩
  -- a session that the packet does not set stays as it was
  have hold : (∀ c us, state.listener.context c = some us → us.socketKey = k →
        state'.listener.context c = some us) → logins k = some login →
      ∃ c us, state'.listener.context c = some us ∧ us.socketKey = k ∧
        (login.refused = false ↔ us.userId = login.userId ∧ us.sessionServerId = login.serverId) :=
    fun hkeep hlogin ↦ by
      obtain ⟨c, us, hus, hkey, hids⟩ := h.session k login hlogin
      exact ⟨c, us, hkeep c us hus hkey, hkey, hids⟩
  dsimp only [Attributing.loginsAfter] at hk
  cases haccept : acceptedLogin proto msg.message with
  | none =>
    rw [haccept] at hk
    refine hold (fun c us' hus' _ ↦ ?_) hk
    rcases eq_or_ne c msg.userSession with rfl | hne
    · rw [hm.same fun u v hlog ↦ absurd (haccept.symm.trans hlog.1) (by simp), hus']
    · rw [hm.others c hne, hus']
  | some accepted =>
    cases hus : state.listener.context msg.userSession with
    | none =>
      rw [haccept, hus] at hk
      refine hold (fun c us' hus' _ ↦ ?_) hk
      rw [hm.others c ?_, hus']
      rintro rfl
      exact absurd (hus.symm.trans hus') (by simp)
    | some us =>
      rw [haccept, hus] at hk
      dsimp only at hk
      rcases eq_or_ne k us.socketKey with rfl | hne
      · rw [Function.update_self, loginOf] at hk
        split_ifs at hk with hopen
        obtain rfl := Option.some.inj hk
        obtain ⟨us', hus', hkey, hids⟩ := session_of_login hm haccept hus hopen
        exact ⟨_, us', hus', hkey, decide_eq_false_iff_not.trans hids⟩
      · rw [Function.update_of_ne hne] at hk
        refine hold (fun c us' hus' hkey ↦ ?_) hk
        rw [hm.others c ?_, hus']
        rintro rfl
        exact hne (hkey.symm.trans (congrArg _ (Option.some.inj (hus'.symm.trans hus))))

/-- A packet on a connection with a login is for the server of the login, if it is the login or the
session has that server. -/
theorem eq_serverId {login : Login} {dest : ServerId}
    (hus : state.listener.context msg.userSession = some us)
    (hlogin : Attributing.loginsAfter proto ⟨⟨state, msgList, .messages (msg :: msgs)⟩, logins⟩ msg
      us.socketKey = some login)
    (hserver : acceptedLogin proto msg.message = none → us.sessionServerId = login.serverId)
    (hdest : ClientThread.destination proto state msg = some dest) : dest = login.serverId := by
  rw [ClientThread.destination, hus, Option.bind_some] at hdest
  dsimp only [Attributing.loginsAfter] at hlogin
  cases haccept : acceptedLogin proto msg.message with
  | some accepted =>
    have hcmd : msg.message.wholeCmd = some WholeCmd.preLogin := by
      by_contra hne
      rw [acceptedLogin, if_neg hne] at haccept
      cases haccept
    rw [haccept, hus] at hlogin
    dsimp only at hlogin
    rw [Function.update_self, loginOf] at hlogin
    split_ifs at hlogin
    obtain rfl := Option.some.inj hlogin
    rw [if_pos hcmd, haccept] at hdest
    exact (Option.some.inj hdest).symm
  | none =>
    rw [haccept] at hdest
    split_ifs at hdest
    · cases hdest
    · exact (Option.some.inj hdest).symm.trans (hserver haccept)

/-- Everything that was forwarded goes to the server `v` and carries the ids `ids'` exactly if the
one packet that a step sends does, or is dropped. -/
theorem forall_forwardedBy_iff {dest v : ServerId} {ids ids' : MsgInServer} {pkt : List UInt8}
    (h : Sends state state' dest ids pkt) :
    (∀ f ∈ forwardedBy state state', f.1 = v ∧ ∃ clientMsg, f.2.unwrap = some (ids', clientMsg)) ↔
      (state.Reaches dest → dest = v ∧ ids = ids') := by
  rw [Sends] at h
  split_ifs at h with hreach
  · obtain ⟨outer, pad, hfwd, hunwrap⟩ := h
    rw [hfwd, List.forall_mem_singleton, imp_iff_right hreach, hunwrap]
    refine and_congr_right' ?_
    constructor
    · rintro ⟨clientMsg, heq⟩
      exact (Prod.mk.inj (Option.some.inj heq)).1
    · rintro rfl
      exact ⟨pkt ++ pad, rfl⟩
  · rw [h]
    exact iff_of_true (fun _ hf ↦ absurd hf List.not_mem_nil) fun hr ↦ absurd hr hreach

/-- **A packet is attributed** exactly when it is not sent on behalf of a connection whose login was
refused. -/
theorem attributed_message_iff
    (h : Agrees proto ⟨⟨state, msgList, .messages (msg :: msgs)⟩, logins⟩)
    (hm : state.doClientMessage proto msg = some state')
    (hsound : Sound proto ⟨state', msgList, .messages msgs⟩) :
    Attributed proto ⟨⟨state, msgList, .messages (msg :: msgs)⟩, logins⟩ (.turn .message) ↔
      FreeUser proto ⟨⟨state, msgList, .messages (msg :: msgs)⟩, logins⟩ (.turn .message) := by
  have hhandles : Handles proto state msg state' :=
    doClientMessage_handles h.sound.booked.numbered h.sound.buffer hm
  have hnew := h.message hhandles hsound
  have hstep : Attributing.step proto ⟨⟨state, msgList, .messages (msg :: msgs)⟩, logins⟩
      (.turn .message) = some ⟨⟨state', msgList, .messages msgs⟩, Attributing.loginsAfter proto
        ⟨⟨state, msgList, .messages (msg :: msgs)⟩, logins⟩ msg⟩ := by
    show ((state.doClientMessage proto msg).map _).map _ = _
    rw [hm]
    rfl
  constructor
  · rintro ⟨s', hs', hattr⟩ k hk login hlogin dest hdest hreach
    obtain rfl := Option.some.inj (hstep.symm.trans hs')
    obtain ⟨us, hus, rfl⟩ := Option.map_eq_some_iff.1 hk
    obtain ⟨us', pkt, hus', hsends⟩ := hhandles.sends dest hdest
    obtain ⟨-, hids⟩ := (forall_forwardedBy_iff hsends).1 (hattr _ hk login hlogin) hreach
    obtain ⟨us₀, hus₀, hkey⟩ := hhandles.keepsClosed.exists_context hus'
    obtain rfl := Option.some.inj (hus.symm.trans hus₀)
    exact (hnew.session_iff hus' (hkey ▸ hlogin)).2 (MsgInServer.mk.inj hids)
  · intro hfree
    refine ⟨_, hstep, fun k hk login hlogin ↦ ?_⟩
    cases hdest : ClientThread.destination proto state msg with
    | none =>
      intro f hf
      rw [hhandles.silent hdest] at hf
      cases hf
    | some dest =>
      obtain ⟨us, hus, rfl⟩ := Option.map_eq_some_iff.1 hk
      obtain ⟨us', pkt, hus', hsends⟩ := hhandles.sends dest hdest
      refine (forall_forwardedBy_iff hsends).2 fun hreach ↦ ?_
      obtain ⟨us₀, hus₀, hkey⟩ := hhandles.keepsClosed.exists_context hus'
      obtain rfl := Option.some.inj (hus.symm.trans hus₀)
      obtain ⟨huser, hserver⟩ := (hnew.session_iff hus' (hkey ▸ hlogin)).1
        (hfree _ hk login hlogin dest hdest hreach)
      refine ⟨eq_serverId hus hlogin (fun hnone ↦ ?_) hdest, by rw [huser, hserver]⟩
      -- a packet that is no login goes to the server of the session, which it leaves as it was
      have hsame := hhandles.same fun u v hlog ↦ absurd (hnone.symm.trans hlog.1) (by simp)
      obtain rfl := Option.some.inj (hus'.symm.trans (hsame.trans hus))
      exact hserver

/-- **The end of a connection is attributed** exactly when it is not sent on behalf of a connection
whose login was refused. -/
theorem attributed_event_iff {evt : TcpEvent} {evts : List TcpEvent}
    (h : Agrees proto ⟨⟨state, msgList, .events (evt :: evts)⟩, logins⟩)
    (he : state.doClientEvent proto evt = some state') :
    Attributed proto ⟨⟨state, msgList, .events (evt :: evts)⟩, logins⟩ (.turn .event) ↔
      FreeUser proto ⟨⟨state, msgList, .events (evt :: evts)⟩, logins⟩ (.turn .event) := by
  have hstep : Attributing.step proto ⟨⟨state, msgList, .events (evt :: evts)⟩, logins⟩
      (.turn .event) = some ⟨⟨state', msgList, .events evts⟩, logins⟩ := by
    show ((state.doClientEvent proto evt).map _).map _ = _
    rw [he]
    rfl
  obtain ⟨-, -, hforwards⟩ := doClientEvent_spec h.sound.buffer he
  have hdest : Attributing.destination proto
      ⟨⟨state, msgList, .events (evt :: evts)⟩, logins⟩ (.turn .event) =
        if evt.eventId = .disconnected then some evt.serverId else none := rfl
  -- the session of the connection that has closed has the ids that the event has
  have hsession : ∀ login, logins evt.socketKey = some login → evt.eventId = .disconnected →
      (login.refused = false ↔ evt.userId = login.userId ∧ evt.serverId = login.serverId) := by
    intro login hlogin hid
    obtain ⟨c, us, hus, hkey, hids⟩ := h.session _ login hlogin
    obtain ⟨-, huser, hserver⟩ := h.sound.booked.closed evt List.mem_cons_self hid c us hus hkey
    rw [huser, hserver]
    exact hids
  constructor
  · rintro ⟨s', hs', hattr⟩ k hk login hlogin dest hsome hreach
    obtain rfl := Option.some.inj (hstep.symm.trans hs')
    obtain rfl := Option.some.inj hk
    rw [hdest] at hsome
    split_ifs at hforwards hsome with hid
    · obtain rfl := Option.some.inj hsome
      obtain ⟨pkt, hsends, -⟩ := hforwards
      obtain ⟨-, hids⟩ := (forall_forwardedBy_iff hsends).1 (hattr _ rfl login hlogin) hreach
      exact (hsession login hlogin hid).2 (MsgInServer.mk.inj hids)
    · cases hsome
  · intro hfree
    refine ⟨_, hstep, fun k hk login hlogin ↦ ?_⟩
    obtain rfl := Option.some.inj hk
    split_ifs at hforwards with hid
    · obtain ⟨pkt, hsends, -⟩ := hforwards
      refine (forall_forwardedBy_iff hsends).2 fun hreach ↦ ?_
      obtain ⟨huser, hserver⟩ := (hsession login hlogin hid).1
        (hfree _ rfl login hlogin evt.serverId (hdest.trans (if_pos hid)) hreach)
      exact ⟨hserver, by rw [huser, hserver]⟩
    · intro f hf
      rw [hforwards] at hf
      cases hf

/-- A step that forwards nothing attributes nothing, so the property and its condition agree there.
-/
theorem attributed_of_onBehalf_none (hs : s.step proto i = some s') (hnone : s.onBehalf i = none) :
    Attributed proto s i ↔ FreeUser proto s i := by
  refine iff_of_true ⟨s', hs, fun k hk ↦ ?_⟩ fun k hk ↦ ?_
  all_goals
    rw [hnone] at hk
    cases hk

/-- Every possible step keeps the sessions and the logins in agreement. -/
theorem Agrees.step (h : s.Agrees proto) (hp : s.Possible proto i)
    (hs : s.step proto i = some s') : s'.Agrees proto := by
  obtain ⟨loop, hloop, rfl⟩ := Option.map_eq_some_iff.1 hs
  obtain ⟨s, logins⟩ := s
  cases i with
  | servers serverIdList tcpServerListener =>
    obtain rfl := Option.some.inj hloop
    exact ⟨h.sound.servers serverIdList tcpServerListener, h.session⟩
  | turn i =>
    have hsound : Sound proto loop := h.sound.turn hp hloop
    -- a step that writes to no session that there was
    have hframe : loginsNext proto ⟨s, logins⟩ (.turn i) = logins →
        (∀ c us, s.state.listener.context c = some us →
          loop.state.listener.context c = some us) →
        Agrees proto ⟨loop, loginsNext proto ⟨s, logins⟩ (.turn i)⟩ := fun hlogins hctx ↦ by
      refine ⟨hsound, fun k login hk ↦ ?_⟩
      obtain ⟨c, us, hus, hkey, hids⟩ := h.session k login ((congrFun hlogins k).symm.trans hk)
      exact ⟨c, us, hctx c us hus, hkey, hids⟩
    cases steps_of_step hloop with
    | message hm =>
      exact h.message (doClientMessage_handles h.sound.booked.numbered h.sound.buffer hm) hsound
    | connect hl =>
      refine hframe rfl fun c us hus ↦ ?_
      rw [← hus]
      refine (h.sound.booked.numbered.onConnect_of_ne hl ?_).1
      rintro rfl
      exact absurd (hus.symm.trans hp) (by simp)
    | disConnect conn =>
      obtain ⟨us', hus', -⟩ := id hp
      exact hframe rfl fun c us hus ↦ (congrFun (onDisConnect_tables hus').2.1 c).trans hus
    | connectDestroyed conn =>
      exact hframe rfl fun c us hus ↦ (congrFun context_connectDestroyed c).trans hus
    | event he =>
      obtain ⟨hlistener, -, -⟩ := doClientEvent_spec h.sound.buffer he
      exact hframe rfl fun c us hus ↦ (congrArg (·.context c) hlistener).trans hus
    | receive msg => exact hframe rfl fun c us hus ↦ hus
    | receiveMsg => exact hframe rfl fun c us hus ↦ hus
    | getEvents => exact hframe rfl fun c us hus ↦ hus

/-- **A step is attributed** exactly when the session that it needs is there and it sends nothing on
behalf of a connection whose last login was refused. -/
theorem Agrees.attributed_iff (h : s.Agrees proto) (hp : s.Possible proto i)
    (hdef : s.Defined proto i) :
    s.Attributed proto i ↔ SessionThere s.loop i ∧ s.FreeUser proto i := by
  have hiff : ∀ s', s.step proto i = some s' → (s.Attributed proto i ↔ s.FreeUser proto i) := by
    intro s' hs
    obtain ⟨loop, hloop, -⟩ := Option.map_eq_some_iff.1 hs
    obtain ⟨s, logins⟩ := s
    cases i with
    | servers => exact attributed_of_onBehalf_none hs rfl
    | turn i =>
      have hsound : Sound proto loop := h.sound.turn hp hloop
      cases steps_of_step hloop with
      | message hm => exact attributed_message_iff h hm hsound
      | event he => exact attributed_event_iff h he
      | connect | receive | disConnect | connectDestroyed | receiveMsg | getEvents =>
        exact attributed_of_onBehalf_none hs rfl
  constructor
  · intro hattr
    obtain ⟨s', hs, -⟩ := id hattr
    obtain ⟨loop, hloop, -⟩ := Option.map_eq_some_iff.1 hs
    exact ⟨sessionThere_of_step h.sound hloop, (hiff s' hs).1 hattr⟩
  · rintro ⟨hthere, hfree⟩
    obtain ⟨s', hs⟩ := Option.isSome_iff_exists.1 (hdef hthere)
    exact (hiff s' hs).2 hfree

/-! ### Runs -/

instance (s : Attributing) (i : Happening) : Decidable (s.Possible proto i) :=
  inferInstanceAs (Decidable (ClientThread.Possible proto s.loop i))

instance (s : Attributing) (i : Happening) : Decidable (s.Defined proto i) :=
  inferInstanceAs (Decidable (_ → (s.step proto i).isSome))

instance (s : Attributing) (i : Happening) : Decidable (s.FreeUser proto i) :=
  decidable_of_iff ((s.onBehalf i).all fun k ↦ (s.loginsNext proto i k).all fun login ↦
      (s.destination proto i).all fun dest ↦
        !decide (s.loop.state.Reaches dest) || !login.refused) (by
    simp only [FreeUser, Option.mem_def, Option.all_eq_true, Bool.or_eq_true, Bool.not_eq_true',
      decide_eq_false_iff_not, ← imp_iff_not_or])

/-- Nobody has connected, and nobody is logged in. -/
def start (gate : GateManager) : Attributing := { loop := ClientThread.start gate }

/-- **Forwarded packets are attributed to the login**, in a run that is defined as far as the
sessions are there, exactly when every packet is handled while its session is there, and nothing is
sent to a server on behalf of a connection whose last accepted login was for a user with a session,
under other ids than the connection had. -/
theorem attributed_iff_freeUser {gate : GateManager} {l : List Happening}
    (hl : Guarded (step proto) (Possible proto) (start gate) l)
    (hdef : Guarded (step proto) (Defined proto) (start gate) l) :
    Guarded (step proto) (Attributed proto) (start gate) l ↔
      Guarded (step proto) (fun s i ↦ SessionThere s.loop i ∧ s.FreeUser proto i) (start gate)
        l := by
  refine guarded_iff (fun s i (h : s.Agrees proto) hi ↦ h.attributed_iff hi.1 hi.2) ?_ ?_
    (hl.and hdef)
  · intro s i s' h hi _ hs
    exact h.step hi.1 hs
  · exact ⟨sound_start proto gate, fun k login hk ↦ absurd hk (by simp [start])⟩

/-! ### Three runs -/

/-- A user logs in and out again, and in again on another connection, when the first has been
freed. -/
def nextLogin : List Happening :=
  [.connect 1, .receive ⟨samplePacket, 1⟩, .receiveMsg, .message, .getEvents, .event, .disConnect 1,
    .receiveMsg, .getEvents, .event, .connectDestroyed 1, .connect 2, .receive ⟨samplePacket, 2⟩,
    .receiveMsg, .message].map .turn

/-- A user who logs in on a new connection: what is forwarded afterwards is forwarded for that user.
-/
theorem attributed_nextLogin :
    Guarded (step sampleProto) (Attributed sampleProto) (start sampleGate) nextLogin := by
  have h : Guarded (step sampleProto) (fun s i ↦ s.Possible sampleProto i ∧
      s.Defined sampleProto i ∧ SessionThere s.loop i ∧ s.FreeUser sampleProto i)
      (start sampleGate) nextLogin := by
    decide +kernel
  exact (attributed_iff_freeUser (h.mono fun _ _ hi ↦ hi.1) (h.mono fun _ _ hi ↦ hi.2.1)).2
    (h.mono fun _ _ hi ↦ hi.2.2)

/-- A user logs in while another connection is logged in as the user; the last step handles the
second login. -/
def secondLogin : List Happening :=
  [.connect 1, .receive ⟨samplePacket, 1⟩, .receiveMsg, .message, .getEvents, .event, .connect 2,
    .receive ⟨samplePacket, 2⟩, .receiveMsg].map .turn

/-- A second login on the same connection: the next packet is forwarded for nobody. -/
theorem secondLogin_forwarded_for_nobody :
    Guarded (step sampleProto) (Possible sampleProto) (start sampleGate)
      (secondLogin ++ [.turn .message]) ∧
    ¬ Guarded (step sampleProto) (Attributed sampleProto) (start sampleGate)
      (secondLogin ++ [.turn .message]) := by
  refine ⟨by decide +kernel, fun h ↦ ?_⟩
  have hend : (run (step sampleProto) (start sampleGate) secondLogin).any fun s ↦
      (s.step sampleProto (.turn .message)).any fun s' ↦
        s.onBehalf (.turn .message) = some 3 ∧ s'.logins 3 = some ⟨7, 1, true⟩ ∧
          (forwardedBy s.loop.state s'.loop.state).map (fun f ↦ (f.1, f.2.unwrap.map (·.1))) =
            [(1, some ⟨0, 0⟩)] := by
    decide +kernel
  obtain ⟨s, hrun, hs⟩ := (Option.any_eq_true _ _).1 hend
  obtain ⟨s', hs', hfacts⟩ := (Option.any_eq_true _ _).1 hs
  obtain ⟨hk, hlogin, hforwarded⟩ := of_decide_eq_true hfacts
  obtain ⟨f, hf, hids⟩ := List.map_eq_singleton_iff.1 hforwarded
  obtain ⟨⟨s'', hs'', hattr⟩, -⟩ := guarded_cons.1 (h.of_append_right hrun)
  obtain rfl := Option.some.inj (hs'.symm.trans hs'')
  obtain ⟨-, clientMsg, hunwrap⟩ := hattr 3 hk _ hlogin f (by
    rw [hf]
    exact List.mem_singleton_self f)
  rw [hunwrap] at hids
  have hnobody : (⟨7, 1⟩ : MsgInServer) = ⟨0, 0⟩ := Option.some.inj (congrArg (·.2) hids)
  exact absurd hnobody (by decide)

end Attributing

end QCLib
