import QCLib.Gate.GateManager
import QCLib.Net.ListenThread

/-!
# Which logic servers are registered

`GateListenServerThread`: a logic server registers with a `SVRLOGIN_CMD` packet, the first come
under its id, and when a connection has closed, the id that its session had is erased from
`m_server_id_list`. Packets and events wait in lists of their own, and all packets are handled
before any event is.

A server that reconnects fast finds itself registered still, under the connection that it has lost;
its packet is ignored, and then the old entry is erased. As long as that does not happen, and no
connection registers twice, the entries are those of the sessions that are open or whose end is
still to be handled (`Registrations`).

`Accounted` is the invariant. Every entry of the table is explained by a session that is open, or by
an event that waits; and a registration that has been handled is that of its session, as long as the
connection is open. `AdmitsLogin` is a condition on the packet that is about to be handled, in the
state in which it is handled: on an open connection, neither the connection nor the id is
registered, or both are, with each other; on a closed one, the id is registered, so that the packet
does nothing.

The two runs at the end are one server that comes back slowly and one that comes back fast.
-/

open StepRun

namespace QCLib

namespace GateManager

/-! ### The thread -/

/-- The loop body of `OnGateServerEvent`. -/
def doServerEvent (g : GateManager) (evt : TcpEvent) : GateManager :=
  match evt.eventId with
  | .disconnected => { g with serverIdList := g.serverIdList.erase evt.serverId }
  | .connected | .error | .firstRead => g

variable (proto : ServerProto)

/-- `GateListenServerThread`. -/
def serverThread : ListenThread GateManager where
  listener g := g.tcpServerListener
  withListener g l := { g with tcpServerListener := l }
  onMessage g msg := g.doServerMessage proto msg
  onEvent g evt := some (g.doServerEvent evt)
  listener_withListener _ _ := rfl

/-- The id that a packet registers, if it is one that does. -/
def svrloginId (msg : Message) : Option ServerId :=
  if msg.wholeCmd = some WholeCmd.svrlogin then
    (decodeSvrlogin msg).map fun decoded ↦ (proto.parseFromArray decoded.2).serverId
  else none

variable {proto} {g g' : GateManager} {msg : MsgFromClient}

open TcpServer

/-- **What a packet does** to the registrations: nothing, unless it registers an id that is not in
the list. -/
theorem doServerMessage_cases (h : g.doServerMessage proto msg = some g') :
    (g'.serverIdList = g.serverIdList ∧ g.tcpServerListener.SameTables g'.tcpServerListener ∧
      ∀ v us, svrloginId proto msg.message = some v →
        g.tcpServerListener.context msg.userSession = some us → v ∈ g.serverIdList) ∨
    ∃ v us, svrloginId proto msg.message = some v ∧
      g.tcpServerListener.context msg.userSession = some us ∧ v ∉ g.serverIdList ∧
      g'.serverIdList = g.serverIdList.insert v us.socketKey ∧
      (g.tcpServerListener.modifyContext msg.userSession fun us ↦
        { us with sessionServerId := v }).SameTables g'.tcpServerListener := by
  rw [doServerMessage] at h
  obtain ⟨cmd, hcmd, h⟩ := Option.bind_eq_some_iff.1 h
  split at h
  · next hlogin =>
    subst hlogin
    cases hctx : g.tcpServerListener.context msg.userSession with
    | none =>
      rw [hctx] at h
      obtain rfl := Option.some.inj h
      exact Or.inl ⟨rfl, .refl _, fun v us _ hus ↦ absurd hus (by simp)⟩
    | some us =>
      rw [hctx] at h
      obtain ⟨⟨srvHdr, payload⟩, hdecode, h⟩ := Option.bind_eq_some_iff.1 h
      have hid : svrloginId proto msg.message = some (proto.parseFromArray payload).serverId := by
        rw [svrloginId, if_pos hcmd, hdecode]
        rfl
      dsimp only at h
      split at h
      · next hmem =>
        obtain rfl := Option.some.inj h
        refine Or.inl ⟨rfl, .refl _, fun v us hv _ ↦ ?_⟩
        obtain rfl := Option.some.inj (hid.symm.trans hv)
        exact hmem
      · next hmem =>
        obtain ⟨us', hsession, h⟩ := Option.bind_eq_some_iff.1 h
        have hus := hctx.symm.trans (session_eq_some_iff.1 hsession).2
        obtain ⟨inner, -, h⟩ := Option.bind_eq_some_iff.1 h
        obtain ⟨dataLen, -, h⟩ := Option.bind_eq_some_iff.1 h
        obtain ⟨ack, -, h⟩ := Option.bind_eq_some_iff.1 h
        obtain ⟨l, hsend, h⟩ := Option.bind_eq_some_iff.1 h
        obtain rfl := Option.some.inj h
        exact Or.inr ⟨_, us', hid, hus, hmem, rfl, (sameTables_sendMsg hsend).modifyContext _ _⟩
  · next hlogin =>
    have hid : svrloginId proto msg.message = none := by
      rw [svrloginId, if_neg]
      rw [hcmd]
      exact fun heq ↦ hlogin (Option.some.inj heq)
    refine Or.inl ?_
    rw [hid]
    split at h
    · cases hctx : g.tcpServerListener.context msg.userSession with
      | none =>
        rw [hctx] at h
        obtain rfl := Option.some.inj h
        exact ⟨rfl, .refl _, fun v us hv ↦ absurd hv (by simp)⟩
      | some us =>
        rw [hctx] at h
        obtain ⟨us', -, h⟩ := Option.bind_eq_some_iff.1 h
        obtain ⟨l, hsend, h⟩ := Option.bind_eq_some_iff.1 h
        obtain rfl := Option.some.inj h
        exact ⟨rfl, sameTables_sendMsg hsend, fun v us hv ↦ absurd hv (by simp)⟩
    · split at h
      · obtain ⟨⟨srvHdr, newMsg⟩, -, h⟩ := Option.bind_eq_some_iff.1 h
        obtain ⟨l, -, h⟩ := Option.bind_eq_some_iff.1 h
        obtain rfl := Option.some.inj h
        exact ⟨rfl, .refl _, fun v us hv ↦ absurd hv (by simp)⟩
      · obtain rfl := Option.some.inj h
        exact ⟨rfl, .refl _, fun v us hv ↦ absurd hv (by simp)⟩

/-! ### Registrations -/

variable {list : Std.ExtTreeMap ServerId SocketKey} {l l' : TcpServer} {waiting : List TcpEvent}
  {conn : TcpConnectionPtr} {us : UserSession} {v : ServerId} {e : TcpEvent}

/-- **The entries are the sessions** that have an id, of connections that are open or whose end is
still to be handled. -/
def Registrations (list : Std.ExtTreeMap ServerId SocketKey) (l : TcpServer)
    (waiting : List TcpEvent) : Prop :=
  ∀ (v : ServerId) k, list[v]? = some k ↔ v ≠ 0 ∧ ∃ c us, l.context c = some us ∧
    us.socketKey = k ∧ us.sessionServerId = v ∧ (l.Open c ∨ k ∈ closing waiting)

theorem registrations_start : Registrations ∅ {} [] := by
  intro v k
  simp [context]

/-- A new connection waits as an event, and changes no registration before that has been handled. -/
theorem Registrations.onConnect (h : Registrations list l waiting) (hb : l.Booked waiting)
    (hc : l.context conn = none) (hl : l.onConnect conn = some l') : Registrations list l'
      (waiting ++ [⟨l.socketKeyIndex + 1, 0, 0, .connected, 0⟩]) := by
  intro v k
  rw [h v k, closing_append_connected]
  refine and_congr_right fun hv ↦ exists_congr fun c ↦ ?_
  rcases eq_or_ne c conn with rfl | hne
  · refine iff_of_false (fun h ↦ ?_) (fun h ↦ ?_)
    · obtain ⟨us, hus, -⟩ := h
      exact absurd (hus.symm.trans hc) (by simp)
    · obtain ⟨us, hus, -, hid, -⟩ := h
      rw [(exists_onConnect hl).2.2.2.2, if_pos rfl] at hus
      obtain rfl := Option.some.inj hus
      exact hv hid.symm
  · obtain ⟨hctx, hopen⟩ := hb.numbered.onConnect_of_ne hl hne
    rw [hctx, hopen]

/-- A closing waits as an event too, with the server id that the session had. -/
theorem Registrations.onDisConnect (h : Registrations list l waiting) (hb : l.Booked waiting)
    (hus : l.context conn = some us) (hopen : l.Open conn) :
    Registrations list (l.onDisConnect conn)
      (waiting ++ [⟨us.socketKey, us.userId, us.sessionServerId, .disconnected, 0⟩]) := by
  intro v k
  rw [h v k, closing_append_disconnected, (onDisConnect_tables hus).2.1]
  refine and_congr_right fun _ ↦ exists_congr fun c ↦ exists_congr fun us' ↦ ?_
  refine and_congr_right fun hus' ↦ and_congr_right fun hkey ↦ and_congr_right fun _ ↦ ?_
  rw [hb.numbered.onDisConnect_open hus, List.mem_append, List.mem_singleton]
  rcases eq_or_ne c conn with rfl | hne
  · -- the one that closes is now one whose end is to be handled
    obtain rfl := Option.some.inj (hus.symm.trans hus')
    exact iff_of_true (Or.inl hopen) (Or.inr (Or.inr hkey.symm))
  · have hk : k ≠ us.socketKey := fun heq ↦
      hne (hb.numbered.key_injective c conn us' us hus' hus (hkey.trans heq))
    rw [and_iff_left hne, or_iff_left hk]

theorem Registrations.of_sameTables (h : Registrations list l waiting) (hs : l.SameTables l') :
    Registrations list l' waiting := by
  intro v k
  have hopen : ∀ c, l'.Open c ↔ l.Open c := fun c ↦ hs.keepsClosed.open_iff
  simp only [hs.context, hopen]
  exact h v k

/-- A connection that has no id yet gets one that is not in the list. -/
theorem Registrations.register (h : Registrations list l waiting)
    (hus : l.context conn = some us) (hopen : l.Open conn) (hv : v ≠ 0)
    (hzero : us.sessionServerId = 0) (hnew : v ∉ list) : Registrations (list.insert v us.socketKey)
      (l.modifyContext conn fun us ↦ { us with sessionServerId := v }) waiting := by
  have hkeeps : l.KeepsClosed (l.modifyContext conn fun us ↦ { us with sessionServerId := v }) :=
    keepsClosed_modifyContext l hopen fun _ ↦ rfl
  have hconn : (l.modifyContext conn fun us ↦ { us with sessionServerId := v }).context conn =
      some { us with sessionServerId := v } := by
    rw [context_modifyContext, if_pos rfl, hus]
    rfl
  have hother : ∀ c, c ≠ conn →
      (l.modifyContext conn fun us ↦ { us with sessionServerId := v }).context c = l.context c :=
    fun c hne ↦ by rw [context_modifyContext, if_neg hne.symm]
  intro v' k
  simp only [Std.ExtTreeMap.getElem?_insert, Std.LawfulEqCmp.compare_eq_iff_eq, hkeeps.open_iff]
  split_ifs with hid
  · subst hid
    rw [Option.some.injEq]
    constructor
    · rintro rfl
      exact ⟨hv, conn, _, hconn, rfl, rfl, Or.inl hopen⟩
    · rintro ⟨-, c, us', hus', rfl, hid, hlive⟩
      rcases eq_or_ne c conn with rfl | hne
      · obtain rfl := Option.some.inj (hconn.symm.trans hus')
        rfl
      · -- nobody else has the id, since it is not in the list
        rw [hother c hne] at hus'
        have hmem := (h v us'.socketKey).2 ⟨hv, c, us', hus', rfl, hid, hlive⟩
        exact absurd (Std.ExtTreeMap.mem_iff_isSome_getElem?.2 (by rw [hmem]; rfl)) hnew
  · rw [h v' k]
    refine and_congr_right fun hv' ↦ exists_congr fun c ↦ ?_
    rcases eq_or_ne c conn with rfl | hne
    · refine iff_of_false (fun h ↦ ?_) (fun h ↦ ?_)
      · obtain ⟨us', hus', -, hid', -⟩ := h
        obtain rfl := Option.some.inj (hus.symm.trans hus')
        exact hv' (hid'.symm.trans hzero)
      · obtain ⟨us', hus', -, hid', -⟩ := h
        obtain rfl := Option.some.inj (hconn.symm.trans hus')
        exact hid hid'
    · rw [hother c hne]

/-- The end of a connection is handled: its entry goes, and no other. -/
theorem Registrations.disconnected (h : Registrations list l (e :: waiting))
    (hb : l.Booked (e :: waiting)) (he : e.eventId = .disconnected) :
    Registrations (list.erase e.serverId) l waiting := by
  obtain ⟨c₀, us₀, hus₀, hkey₀⟩ := hb.known e List.mem_cons_self
  obtain ⟨hclosed, -, hid₀⟩ := hb.closed e List.mem_cons_self he c₀ us₀ hus₀ hkey₀
  have hclosing : closing (e :: waiting) = e.socketKey :: closing waiting := by
    rw [closing_cons, if_pos he]
  have honce : e.socketKey ∉ closing waiting := by
    have := hb.once
    rw [hclosing] at this
    exact (List.nodup_cons.1 this).1
  -- the one that has closed is no longer to be handled
  have hgone : ∀ c us, l.context c = some us → us.socketKey = e.socketKey →
      ¬ (l.Open c ∨ us.socketKey ∈ closing waiting) := by
    intro c us hus hkey hlive
    obtain rfl := hb.numbered.key_injective c c₀ us us₀ hus hus₀ (hkey.trans hkey₀.symm)
    rw [hkey] at hlive
    exact hlive.elim hclosed honce
  intro v k
  have hentry := h v k
  rw [hclosing] at hentry
  simp only [Std.ExtTreeMap.getElem?_erase, Std.LawfulEqCmp.compare_eq_iff_eq]
  split_ifs with hid
  · refine iff_of_false (by simp) ?_
    rintro ⟨hv, c, us, hus, rfl, hserver, hlive⟩
    have hin := (h v us.socketKey).2 ⟨hv, c, us, hus, rfl, hserver, by
      rw [hclosing]
      exact hlive.imp_right (List.mem_cons_of_mem _)⟩
    have hin₀ := (h v us₀.socketKey).2 ⟨hv, c₀, us₀, hus₀, rfl, hid₀.symm.trans hid, by
      rw [hclosing, hkey₀]
      exact Or.inr List.mem_cons_self⟩
    have hkey : us.socketKey = us₀.socketKey := Option.some.inj (hin.symm.trans hin₀)
    exact hgone c us hus (hkey.trans hkey₀) hlive
  · rw [hentry]
    refine and_congr_right fun _ ↦ exists_congr fun c ↦ exists_congr fun us ↦ ?_
    refine and_congr_right fun hus ↦ and_congr_right fun hkey ↦ and_congr_right fun hserver ↦ ?_
    rw [List.mem_cons]
    refine or_congr_right (or_iff_right fun heq ↦ hid ?_)
    obtain rfl := hb.numbered.key_injective c c₀ us us₀ hus hus₀ (hkey.trans (heq.trans hkey₀.symm))
    obtain rfl := Option.some.inj (hus.symm.trans hus₀)
    exact hid₀.trans hserver

/-- Handling an event changes the list of servers, and not the listener. -/
theorem doServerEvent_listener (g : GateManager) (evt : TcpEvent) :
    (g.doServerEvent evt).tcpServerListener = g.tcpServerListener := by
  rw [doServerEvent]
  split <;> rfl

/-- An event that is handled leaves the events behind it to account for the rest of the table. -/
theorem Registrations.doServerEvent {g : GateManager}
    (h : Registrations g.serverIdList g.tcpServerListener (e :: waiting))
    (hb : g.tcpServerListener.Booked (e :: waiting)) :
    Registrations (g.doServerEvent e).serverIdList (g.doServerEvent e).tcpServerListener
      waiting := by
  have hskip : e.eventId ≠ .disconnected →
      Registrations g.serverIdList g.tcpServerListener waiting := fun he v k ↦ by
    rw [h v k, closing_cons, if_neg he]
  rw [GateManager.doServerEvent]
  split
  · next he => exact h.disconnected hb he
  all_goals
    next he => exact hskip (by rw [he]; decide)

/-- **A packet may register** an id other than `0`, on an open connection, if neither the connection
nor the id is registered; where the id is that of the connection itself, or the connection has
closed and the id is registered, the packet does nothing, and rightly so. -/
def AdmitsLogin (proto : ServerProto) (g : GateManager) (msg : MsgFromClient) : Prop :=
  match svrloginId proto msg.message, g.tcpServerListener.context msg.userSession with
  | some v, some us =>
    if g.tcpServerListener.Open msg.userSession then
      v ≠ 0 ∧ (v ∉ g.serverIdList ∧ us.sessionServerId = 0 ∨ g.serverIdList[v]? = some us.socketKey)
    else v ∈ g.serverIdList
  | _, _ => True

instance (proto : ServerProto) (g : GateManager) (msg : MsgFromClient) :
    Decidable (g.AdmitsLogin proto msg) :=
  match hv : svrloginId proto msg.message, hus : g.tcpServerListener.context msg.userSession with
  | some v, some us => decidable_of_iff (if g.tcpServerListener.Open msg.userSession then v ≠ 0 ∧
      (v ∉ g.serverIdList ∧ us.sessionServerId = 0 ∨ g.serverIdList[v]? = some us.socketKey)
    else v ∈ g.serverIdList) (by rw [AdmitsLogin, hv, hus])
  | some _, none => isTrue (by rw [AdmitsLogin, hv, hus]; trivial)
  | none, _ => isTrue (by rw [AdmitsLogin, hv]; trivial)

/-- Handling an admitted packet keeps the registrations, and the connection ends up with the id that
it asked for. -/
theorem Registrations.doServerMessage {g g' : GateManager} {msg : MsgFromClient}
    (h : Registrations g.serverIdList g.tcpServerListener waiting)
    (hb : g.tcpServerListener.Booked waiting) (hok : g.AdmitsLogin proto msg)
    (hm : g.doServerMessage proto msg = some g') :
    Registrations g'.serverIdList g'.tcpServerListener waiting ∧
      g.tcpServerListener.KeepsClosed g'.tcpServerListener ∧
      (∀ c, c ≠ msg.userSession ∨ svrloginId proto msg.message = none →
        g'.tcpServerListener.context c = g.tcpServerListener.context c) ∧
      ∀ v us, svrloginId proto msg.message = some v → g.tcpServerListener.Open msg.userSession →
        g'.tcpServerListener.context msg.userSession = some us →
          v ≠ 0 ∧ us.sessionServerId = v := by
  rcases doServerMessage_cases hm with ⟨hlist, hs, hmem⟩ | ⟨v, us, hv, hus, hnew, hlist, hs⟩
  · rw [hlist]
    refine ⟨h.of_sameTables hs, hs.keepsClosed, fun c _ ↦ by rw [hs.context], ?_⟩
    intro v us hv hopen hus
    rw [hs.context] at hus
    rw [AdmitsLogin, hv, hus] at hok
    dsimp only at hok
    rw [if_pos hopen] at hok
    obtain ⟨hv0, hentry⟩ := hok
    refine ⟨hv0, ?_⟩
    have hown := hentry.resolve_left fun hnew ↦ hnew.1 (hmem v us hv hus)
    obtain ⟨-, c, us', hus', hkey, hid, -⟩ := (h v us.socketKey).1 hown
    obtain rfl := hb.numbered.key_injective c msg.userSession us' us hus' hus hkey
    obtain rfl := Option.some.inj (hus.symm.trans hus')
    exact hid
  · rw [AdmitsLogin, hv, hus] at hok
    dsimp only at hok
    have hopen : g.tcpServerListener.Open msg.userSession := by
      by_contra hclosed
      rw [if_neg hclosed] at hok
      exact hnew hok
    rw [if_pos hopen] at hok
    obtain ⟨hv0, hentry⟩ := hok
    have hzero : us.sessionServerId = 0 := by
      refine (hentry.resolve_right fun hown ↦ hnew ?_).2
      exact Std.ExtTreeMap.mem_iff_isSome_getElem?.2 (by rw [hown]; rfl)
    have hwrite : g.tcpServerListener.KeepsClosed (g.tcpServerListener.modifyContext msg.userSession
        fun us ↦ { us with sessionServerId := v }) :=
      keepsClosed_modifyContext _ hopen fun _ ↦ rfl
    rw [hlist]
    refine ⟨(h.register hus hopen hv0 hzero hnew).of_sameTables hs, hwrite.sameTables hs,
      fun c hc ↦ ?_, ?_⟩
    · have hne : c ≠ msg.userSession := hc.resolve_right (by rw [hv]; simp)
      rw [hs.context, context_modifyContext, if_neg hne.symm]
    · intro v' us' hv' _ hus'
      rw [hs.context, context_modifyContext, if_pos rfl, hus] at hus'
      obtain rfl := Option.some.inj hus'
      obtain rfl := Option.some.inj (hv.symm.trans hv')
      exact ⟨hv0, rfl⟩

end GateManager

/-! ### Runs -/

open GateManager TcpServer ListenThread

/-- The thread, and the registrations that have arrived so far, newest first. -/
structure Registering where
  loop : Listening GateManager
  svrlogins : List (TcpConnectionPtr × ServerId) := []

namespace Registering

variable (proto : ServerProto)

/-- The registration that a packet is. -/
def svrlogin (msg : MsgFromClient) : Option (TcpConnectionPtr × ServerId) :=
  (svrloginId proto msg.message).map fun v ↦ (msg.userSession, v)

/-- Nobody has connected, and nobody is registered. -/
def start (tcpClientListener : TcpServer) (szMsgCapacity szSvrMsgCapacity : List UInt8) :
    Registering where
  loop := { state := ⟨tcpClientListener, {}, ∅, szMsgCapacity, szSvrMsgCapacity⟩ }

/-- A step of the thread, which is told when a registration arrives. -/
def step (s : Registering) (i : Turning) : Option Registering :=
  ((serverThread proto).step s.loop i).map fun loop ↦
    match i with
    | .receive msg => ⟨loop, (svrlogin proto msg).toList ++ s.svrlogins⟩
    | _ => ⟨loop, s.svrlogins⟩

/-- The last registration that a connection has sent. -/
def lastSvrlogin (s : Registering) (c : TcpConnectionPtr) : Option ServerId := s.svrlogins.lookup c

/-- **Registered.** Whenever both queues are empty, every entry refers to an open connection, and an
id that is the last registration of an open connection has an entry that leads to one. -/
def Registered (s : Registering) : Prop :=
  arrived s.loop = [] → (serverThread proto).waiting s.loop = [] →
    (∀ (v : ServerId) k, s.loop.state.serverIdList[v]? = some k →
      ∃ c, s.loop.state.tcpServerListener.connectionMap[k]? = some c) ∧
    ∀ c v, s.loop.state.tcpServerListener.Open c → s.lastSvrlogin c = some v →
      ∃ k c', s.loop.state.serverIdList[v]? = some k ∧
        s.loop.state.tcpServerListener.connectionMap[k]? = some c' ∧ s.lastSvrlogin c' = some v

/-- What can happen to the thread. -/
def Possible (s : Registering) (i : Turning) : Prop := (serverThread proto).Possible s.loop i

/-- The packet that is handled may register. -/
def Admits (s : Registering) : Turning → Prop
  | .message =>
    match nextMsg s.loop with
    | some msg => s.loop.state.AdmitsLogin proto msg
    | none => True
  | _ => True

instance (s : Registering) (i : Turning) : Decidable (s.Possible proto i) :=
  inferInstanceAs (Decidable ((serverThread proto).Possible s.loop i))

instance (s : Registering) : ∀ i, Decidable (s.Admits proto i)
  | .message =>
    match h : nextMsg s.loop with
    | some msg => decidable_of_iff (s.loop.state.AdmitsLogin proto msg) (by rw [Admits, h])
    | none => isTrue (by rw [Admits, h]; trivial)
  | .connect _ | .receive _ | .disConnect _ | .connectDestroyed _ | .receiveMsg | .getEvents
  | .event => isTrue trivial

variable {proto} {s s' : Registering} {i : Turning}

/-- The registrations among some packets, oldest first. -/
def svrloginsOf (proto : ServerProto) (msgs : List MsgFromClient) :
    List (TcpConnectionPtr × ServerId) :=
  msgs.filterMap (svrlogin proto)

/-- **The invariant**: the events that wait and the entries are right, and the registrations that
have been handled are those of the sessions, as far as they are open. -/
structure Accounted (proto : ServerProto) (s : Registering) : Prop where
  booked : s.loop.state.tcpServerListener.Booked ((serverThread proto).waiting s.loop)
  registrations : Registrations s.loop.state.serverIdList s.loop.state.tcpServerListener
    ((serverThread proto).waiting s.loop)
  sender : ∀ p ∈ s.svrlogins, s.loop.state.tcpServerListener.context p.1 ≠ none
  handled : ∃ handled, s.svrlogins = (svrloginsOf proto (arrived s.loop)).reverse ++ handled ∧
    ∀ c v us, s.loop.state.tcpServerListener.Open c → handled.lookup c = some v →
      s.loop.state.tcpServerListener.context c = some us → v ≠ 0 ∧ us.sessionServerId = v

theorem accounted_start (proto : ServerProto) (tcpClientListener : TcpServer)
    (szMsgCapacity szSvrMsgCapacity : List UInt8) :
    (start tcpClientListener szMsgCapacity szSvrMsgCapacity).Accounted proto where
  booked := booked_start
  registrations := registrations_start
  sender _ hp := absurd hp List.not_mem_nil
  handled := ⟨[], rfl, fun _ _ _ _ hv ↦ absurd hv (by simp)⟩

/-- A server for which everything is accounted is registered. -/
theorem Accounted.registered (h : s.Accounted proto) : s.Registered proto := by
  intro harrived hwaiting
  have hentry := h.registrations
  obtain ⟨handled, hsplit, hsession⟩ := h.handled
  rw [harrived] at hsplit
  rw [hwaiting] at hentry
  have hlast : ∀ c, s.lastSvrlogin c = handled.lookup c := fun c ↦ by
    rw [lastSvrlogin, hsplit]
    rfl
  refine ⟨fun v k hk ↦ ?_, fun c v hopen hv ↦ ?_⟩
  · obtain ⟨-, c, us, hus, rfl, -, hlive⟩ := (hentry v k).1 hk
    exact ⟨c, (open_iff hus).1 (hlive.resolve_right List.not_mem_nil)⟩
  · obtain ⟨us, hus, hmem⟩ := id hopen
    obtain ⟨hv0, hid⟩ := hsession c v us hopen (hlast c ▸ hv) hus
    exact ⟨us.socketKey, c, (hentry v us.socketKey).2 ⟨hv0, c, us, hus, rfl, hid, Or.inl hopen⟩,
      hmem, hv⟩

/-- A callback or a turn that opens no session of old and leaves the contexts alone, and takes no
packet, keeps what is known of the senders and of the handled registrations. -/
theorem Accounted.handled_of_eq (h : s.Accounted proto) (loop : Listening GateManager)
    (harrived : arrived loop = arrived s.loop)
    (hctx : ∀ c, s.loop.state.tcpServerListener.context c ≠ none →
      loop.state.tcpServerListener.context c = s.loop.state.tcpServerListener.context c)
    (hopen : ∀ c, s.loop.state.tcpServerListener.context c ≠ none →
      loop.state.tcpServerListener.Open c → s.loop.state.tcpServerListener.Open c) :
    (∀ p ∈ s.svrlogins, loop.state.tcpServerListener.context p.1 ≠ none) ∧
      ∃ handled, s.svrlogins = (svrloginsOf proto (arrived loop)).reverse ++ handled ∧
        ∀ c v us, loop.state.tcpServerListener.Open c → handled.lookup c = some v →
          loop.state.tcpServerListener.context c = some us → v ≠ 0 ∧ us.sessionServerId = v := by
  refine ⟨fun p hp ↦ by rw [hctx p.1 (h.sender p hp)]; exact h.sender p hp, ?_⟩
  obtain ⟨handled, hsplit, hsession⟩ := h.handled
  rw [harrived]
  refine ⟨handled, hsplit, fun c v us hopen' hv hus ↦ ?_⟩
  have hknown : s.loop.state.tcpServerListener.context c ≠ none := by
    obtain ⟨l₁, l₂, hhandled, -⟩ := List.lookup_eq_some_iff.1 hv
    refine h.sender (c, v) ?_
    rw [hsplit, hhandled]
    simp
  rw [hctx c hknown] at hus
  exact hsession c v us (hopen c hknown hopen') hv hus

/-- A registration that arrives is noted, and waits in the list of messages until the thread takes
it. -/
theorem Accounted.receive {state : GateManager} {msgList : List MsgFromClient} {phase : Phase}
    {svrlogins : List (TcpConnectionPtr × ServerId)} {msg : MsgFromClient}
    (h : Accounted proto ⟨⟨state, msgList, phase⟩, svrlogins⟩)
    (hopen : state.tcpServerListener.Open msg.userSession) :
    Accounted proto
      ⟨⟨state, msgList ++ [msg], phase⟩, (svrlogin proto msg).toList ++ svrlogins⟩ := by
  obtain ⟨handled, hsplit, hsession⟩ := h.handled
  refine ⟨h.booked, h.registrations, fun p hp ↦ ?_, handled, ?_, hsession⟩
  · rcases List.mem_append.1 hp with hp | hp
    · obtain ⟨v, -, rfl⟩ := Option.map_eq_some_iff.1 (Option.mem_toList.1 hp)
      obtain ⟨us, hus, -⟩ := hopen
      rw [hus]
      exact Option.some_ne_none us
    · exact h.sender p hp
  · have harrived : arrived ⟨state, msgList ++ [msg], phase⟩ =
        arrived ⟨state, msgList, phase⟩ ++ [msg] := by
      cases phase with
      | messages msgs => exact (List.append_assoc msgs msgList [msg]).symm
      | events evts => rfl
    have hone : (svrloginsOf proto [msg]).reverse = (svrlogin proto msg).toList := by
      rw [svrloginsOf, List.filterMap_cons]
      cases svrlogin proto msg <;> rfl
    show (svrlogin proto msg).toList ++ svrlogins = _
    rw [harrived, svrloginsOf, List.filterMap_append, List.reverse_append]
    show _ = (svrloginsOf proto [msg]).reverse ++ _ ++ _
    rw [hone, List.append_assoc]
    exact congrArg _ hsplit

/-- A registration that is handled puts the server into the table. The condition on the step is what
keeps the new entry apart from one that an event is about to take away. -/
theorem Accounted.message {state state' : GateManager} {msgList msgs : List MsgFromClient}
    {svrlogins : List (TcpConnectionPtr × ServerId)} {msg : MsgFromClient}
    (h : Accounted proto ⟨⟨state, msgList, .messages (msg :: msgs)⟩, svrlogins⟩)
    (hok : state.AdmitsLogin proto msg) (hm : state.doServerMessage proto msg = some state') :
    state.tcpServerListener.KeepsClosed state'.tcpServerListener ∧
      Accounted proto ⟨⟨state', msgList, .messages msgs⟩, svrlogins⟩ := by
  obtain ⟨hregs, hkeeps, hother, hown⟩ := h.registrations.doServerMessage h.booked hok hm
  have hwaiting : (serverThread proto).waiting ⟨state', msgList, .messages msgs⟩ =
      (serverThread proto).waiting ⟨state, msgList, .messages (msg :: msgs)⟩ := hkeeps.eventList
  obtain ⟨handled, hsplit, hsession⟩ := h.handled
  refine ⟨hkeeps, ?_, ?_, fun p hp hnone ↦ h.sender p hp ?_,
    (svrlogin proto msg).toList ++ handled, ?_, fun c v us hopen hv hus ↦ ?_⟩
  · rw [hwaiting]
    exact h.booked.of_keepsClosed hkeeps
  · rw [hwaiting]
    exact hregs
  · have hkey := hkeeps.socketKey p.1
    rw [show state'.tcpServerListener.context p.1 = none from hnone] at hkey
    exact Option.map_eq_none_iff.1 hkey.symm
  · have hcons : (svrloginsOf proto (msg :: (msgs ++ msgList))).reverse =
        (svrloginsOf proto (msgs ++ msgList)).reverse ++ (svrlogin proto msg).toList := by
      rw [svrloginsOf, List.filterMap_cons]
      cases svrlogin proto msg with
      | none => exact (List.append_nil _).symm
      | some p => exact List.reverse_cons
    rw [← List.append_assoc]
    exact hsplit.trans (congrArg (· ++ handled) hcons)
  · have hopen' : state.tcpServerListener.Open c := hkeeps.open_iff.1 hopen
    cases hlogin : svrloginId proto msg.message with
    | none =>
      rw [svrlogin, hlogin] at hv
      exact hsession c v us hopen' hv ((hother c (Or.inr hlogin)).symm.trans hus)
    | some v₀ =>
      rw [svrlogin, hlogin] at hv
      rcases eq_or_ne c msg.userSession with rfl | hne
      · rw [Option.map_some, Option.toList_some, List.singleton_append, List.lookup_cons,
          beq_self_eq_true] at hv
        obtain rfl := Option.some.inj hv
        exact hown v₀ us hlogin hopen' hus
      · rw [Option.map_some, Option.toList_some, List.singleton_append, List.lookup_cons,
          beq_eq_false_iff_ne.2 hne] at hv
        exact hsession c v us hopen' hv ((hother c (Or.inl hne)).symm.trans hus)

/-- **One step of the thread keeps the account.** The cases are the events of the listener and the
turns of the loop, each with a lemma of its own above. -/
theorem Accounted.step (h : s.Accounted proto) (hp : s.Possible proto i) (hok : s.Admits proto i)
    (hs : s.step proto i = some s') : s'.Accounted proto := by
  obtain ⟨loop, hloop, rfl⟩ := Option.map_eq_some_iff.1 hs
  obtain ⟨s, svrlogins⟩ := s
  have hsteps := steps_of_step hloop
  -- what the listener's tables say is a lemma of each step, the registrations follow case by case
  have hbooked := fun hkeeps ↦ hsteps.booked hp hkeeps h.booked
  cases hsteps with
  | @connect state msgList phase conn l hl =>
    have hne : ∀ c, state.tcpServerListener.context c ≠ none → c ≠ conn := by
      rintro c hc rfl
      exact hc hp
    have hframe := fun c hc ↦ h.booked.numbered.onConnect_of_ne hl (hne c hc)
    obtain ⟨hsender, hhandled⟩ := h.handled_of_eq
      ⟨{ state with tcpServerListener := l }, msgList, phase⟩ rfl (fun c hc ↦ (hframe c hc).1)
      (fun c hc ↦ (hframe c hc).2.1)
    refine ⟨hbooked (by simp), ?_, hsender, hhandled⟩
    rw [waiting_connect hl]
    exact h.registrations.onConnect h.booked hp hl
  | receive msg => exact h.receive hp
  | @disConnect state msgList phase conn =>
    obtain ⟨us, hus, -⟩ := id hp
    have hopen := fun c (h' : (state.tcpServerListener.onDisConnect conn).Open c) ↦
      ((h.booked.numbered.onDisConnect_open hus).1 h').1
    obtain ⟨hsender, hhandled⟩ := h.handled_of_eq
      ⟨{ state with tcpServerListener := state.tcpServerListener.onDisConnect conn }, msgList,
        phase⟩ rfl (fun c _ ↦ congrFun (onDisConnect_tables hus).2.1 c) (fun c _ ↦ hopen c)
    refine ⟨hbooked (by simp), ?_, hsender, hhandled⟩
    rw [waiting_disConnect hus]
    exact h.registrations.onDisConnect h.booked hus hp
  | @connectDestroyed state msgList phase conn =>
    have hsame := sameTables_connectDestroyed state.tcpServerListener conn
    obtain ⟨hsender, hhandled⟩ := h.handled_of_eq
      ⟨{ state with tcpServerListener := state.tcpServerListener.connectDestroyed conn }, msgList,
        phase⟩ rfl (fun c _ ↦ congrFun hsame.context c)
      (fun c _ ↦ (hsame.keepsClosed.open_iff (c := c)).1)
    refine ⟨hbooked (by simp), ?_, hsender, hhandled⟩
    rw [waiting_connectDestroyed]
    exact h.registrations.of_sameTables hsame
  | @receiveMsg state msgList =>
    obtain ⟨hsender, hhandled⟩ := h.handled_of_eq ⟨state, [], .messages msgList⟩
      (List.append_nil msgList) (fun c _ ↦ rfl) (fun c _ h' ↦ h')
    exact ⟨h.booked, h.registrations, hsender, hhandled⟩
  | message hm => exact (h.message hok hm).2
  | @getEvents state msgList =>
    obtain ⟨hsender, hhandled⟩ := h.handled_of_eq
      ⟨{ state with tcpServerListener := { state.tcpServerListener with eventList := [] } },
        msgList, .events state.tcpServerListener.eventList⟩ rfl (fun c _ ↦ rfl) (fun c _ h' ↦ h')
    refine ⟨hbooked (by simp), ?_, hsender, hhandled⟩
    rw [waiting_getEvents]
    exact h.registrations
  | @event state msgList evt evts state' he =>
    obtain rfl := Option.some.inj he
    have hsame := doServerEvent_listener state evt
    -- the event that is handled was the first of those that waited
    have hwaiting : (serverThread proto).waiting ⟨state, msgList, .events (evt :: evts)⟩ =
        evt :: (serverThread proto).waiting ⟨state.doServerEvent evt, msgList, .events evts⟩ :=
      waiting_event (congrArg _ hsame)
    obtain ⟨hsender, hhandled⟩ := h.handled_of_eq ⟨state.doServerEvent evt, msgList, .events evts⟩
      rfl (fun c _ ↦ by rw [hsame]) (fun c _ ↦ by rw [hsame]; exact id)
    have hregs := h.registrations
    have hevents := h.booked
    rw [hwaiting] at hregs hevents
    have hkeeps :
        state.tcpServerListener.KeepsClosed (state.doServerEvent evt).tcpServerListener := by
      rw [hsame]
      exact (SameTables.refl _).keepsClosed
    exact ⟨hbooked fun _ ↦ hkeeps, hregs.doServerEvent hevents, hsender, hhandled⟩

/-- **Registrations survive reconnects** in every run in which no packet registers but one that may:
whenever both queues are empty, the entries refer to open connections, and the server ids that open
connections have registered last have entries that lead to them. -/
theorem registered_of_admits {tcpClientListener : TcpServer}
    {szMsgCapacity szSvrMsgCapacity : List UInt8} {l : List Turning}
    (hl : Guarded (step proto) (Possible proto)
      (start tcpClientListener szMsgCapacity szSvrMsgCapacity) l)
    (hok : Guarded (step proto) (Admits proto)
      (start tcpClientListener szMsgCapacity szSvrMsgCapacity) l) :
    Throughout (step proto) (Registered proto)
      (start tcpClientListener szMsgCapacity szSvrMsgCapacity) l :=
  throughout_of_guarded (fun _ h ↦ Accounted.registered h)
    (fun _ _ _ h hi hs ↦ h.step hi.1 hi.2 hs) (accounted_start proto _ _ _) (hl.and hok)

/-! ### Two runs -/

/-- The messages of the runs, with all members set to small numbers. -/
def sampleProto : ServerProto where
  parseFromArray
    | [0x08, checkCode, 0x10, serverId, 0x18, serverType] =>
      ⟨.ofNat checkCode.toNat, .ofNat serverId.toNat, .ofNat serverType.toNat⟩
    | _ => {}
  serializeAsString login := [0x08, .ofNat login.checkCode.toInt.toNat, 0x10,
    .ofNat login.serverId.toInt.toNat, 0x18, .ofNat login.serverType.toInt.toNat]

/-- What server `5` registers with. -/
def samplePacket : Message :=
  envelope WholeCmd.svrlogin ⟨0, 1⟩ (packet WholeCmd.svrlogin [0x08, 0x07, 0x10, 0x05, 0x18, 0x01])

/-- The gate of the runs. -/
def sampleStart : Registering :=
  start {} (.replicate maxBuffSize 0) (.replicate maxBuffSize 0)

/-- One turn of the loop, with so many packets and so many events to handle. -/
def loopOnce (msgs evts : Nat) : List Turning :=
  .receiveMsg :: .replicate msgs .message ++ .getEvents :: .replicate evts .event

/-- A server registers, loses its connection and comes back, after the end of the connection has
been handled. -/
def slowReconnect : List Turning :=
  [.connect 1, .receive ⟨samplePacket, 1⟩] ++ loopOnce 1 1 ++ [.disConnect 1] ++ loopOnce 0 1 ++
    [.connect 2, .receive ⟨samplePacket, 2⟩] ++ loopOnce 1 1

/-- A server that comes back after its closing has been handled. -/
theorem registered_slowReconnect :
    Throughout (step sampleProto) (Registered sampleProto) sampleStart slowReconnect :=
  have h : Guarded (step sampleProto)
      (fun s i ↦ s.Possible sampleProto i ∧ s.Admits sampleProto i) sampleStart slowReconnect := by
    decide +kernel
  registered_of_admits (h.mono fun _ _ hi ↦ hi.1) (h.mono fun _ _ hi ↦ hi.2)

/-- It comes back before that. -/
def fastReconnect : List Turning :=
  [.connect 1, .receive ⟨samplePacket, 1⟩] ++ loopOnce 1 1 ++
    [.disConnect 1, .connect 2, .receive ⟨samplePacket, 2⟩] ++ loopOnce 1 2

/-- A server that comes back before its closing has been handled: the run is possible, and the
server is not registered at its end. -/
theorem fastReconnect_loses : Guarded (step sampleProto) (Possible sampleProto) sampleStart
      fastReconnect ∧
    ∃ s, run (step sampleProto) sampleStart fastReconnect = some s ∧
      ¬ s.Registered sampleProto := by
  refine ⟨by decide +kernel, ?_⟩
  have hend : (run (step sampleProto) sampleStart fastReconnect).any fun s ↦
      arrived s.loop = [] ∧ (serverThread sampleProto).waiting s.loop = [] ∧
        s.loop.state.tcpServerListener.Open 2 ∧ s.lastSvrlogin 2 = some 5 ∧
        s.loop.state.serverIdList[(5 : ServerId)]? = none := by
    decide +kernel
  obtain ⟨s, hs, hfacts⟩ := (Option.any_eq_true _ _).1 hend
  obtain ⟨harrived, hwaiting, hopen, hlast, hnone⟩ := of_decide_eq_true hfacts
  refine ⟨s, hs, fun h ↦ ?_⟩
  obtain ⟨k, c, hk, -⟩ := (h harrived hwaiting).2 2 5 hopen hlast
  exact absurd (hk.symm.trans hnone) (by simp)

end Registering

end QCLib
