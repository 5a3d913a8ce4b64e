import QCLib.Gate.GateManager
import QCLib.Net.ListenThread

/-!
# For whom the gate forwards

`GateListenClientThread`: a player logs in to the gate with a `PRE_LOGIN_CMD` packet that carries
the hash of its account, and from then on the gate forwards its packets to the logic server that it
has named, under the ids in its session. When its connection has closed, the gate tells the logic
server.

What `SendMsgToServer` sends is recorded, oldest first; it drops what is for a server that is not
registered or whose connection has closed. The other thread of the gate, which serves the logic
servers, changes who is registered at any time (`Happening.servers`).

A packet that has arrived has a plain pointer to the session of its connection. If the connection
has been freed before the packet is handled, handling it is undefined (`SessionThere`).

Reading and writing the messages of a login, and the hash, are parameters. So are the bytes that the
stack holds behind the `Message` of `OnGateClientEvent`: it has ten bytes, and sixteen of it are
sent.

All that handling a packet can do is said in `Handles`: which session is changed, whether somebody
is let in, and what is forwarded to whom. `doClientMessage_handles` goes through the cases of the
source once, and the three modules about this thread take it from there. The same is done for
events.

`forwarded` is what has left the gate. `SendMsgToServer` looks the server up first and then its
connection, and only what passes both is recorded (`Reaches`); so a logout that is dropped does not
count as one that was sent.
-/

open Bytes StepRun

namespace QCLib

/-- `ReqLogin`, the login of a player. -/
structure ReqLogin where
  account : String := ""
  userId : UserId := 0
  serverId : ServerId := 0
  checkKey : String := ""
  time : Int32 := 0
  deriving DecidableEq, Repr

/-- `AckLogin`, as far as it is set here. -/
structure AckLogin where
  errorCode : Int32
  deriving DecidableEq, Repr

/-- `AckLoginCode_Failed`. -/
def ackLoginCodeFailed : Int32 := 1

/-- How the library reads a `ReqLogin` and writes an `AckLogin`, `MD5`, and what is behind `msg`. -/
structure ClientProto where
  parseFromArray : List UInt8 → ReqLogin
  serializeAsString : AckLogin → List UInt8
  md5 : String → String
  behindMsg : List UInt8

/-- The thread that serves the players: the gate, its own buffers, and what it has forwarded to
which server. -/
structure ClientThread where
  gate : GateManager
  szMsgCapacity : List UInt8
  szSvrMsgCapacity : List UInt8
  forwarded : List (ServerId × Message) := []

namespace ClientThread

/-- The listener of the thread. -/
def listener (s : ClientThread) : TcpServer := s.gate.tcpClientListener

/-- The same with another state of the listener. -/
def withListener (s : ClientThread) (l : TcpServer) : ClientThread :=
  { s with gate := { s.gate with tcpClientListener := l } }

/-- The server is registered, and the connection that it has registered on is open. -/
def Reaches (s : ClientThread) (svrid : ServerId) : Prop :=
  (s.gate.serverIdList[svrid]?).any (· ∈ s.gate.tcpServerListener.connectionMap)

instance (s : ClientThread) (svrid : ServerId) : Decidable (s.Reaches svrid) :=
  inferInstanceAs (Decidable (_ = true))

/-- `SendMsgToServer`. What is for a server that is not reached is dropped. -/
def sendMsgToServer (s : ClientThread) (svrid : ServerId) (msg : Message) : Option ClientThread :=
  match s.gate.serverIdList[svrid]? with
  | some socketKey => do
    let tcpServerListener ← s.gate.tcpServerListener.sendMsg socketKey msg
    return { s with
      gate := { s.gate with tcpServerListener }
      forwarded := if s.Reaches svrid then s.forwarded ++ [(svrid, msg)] else s.forwarded }
  | none => return s

/-- `SetServerMessage`, and `SendMsgToServer` of what it returns. -/
def forward (s : ClientThread) (svrid : ServerId) (userid : UserId) (data : List UInt8)
    (len : BitVec 64) (dest : ServerId) : Option ClientThread := do
  let newMsg ← setServerMessage s.szSvrMsgCapacity svrid userid data len
  { s with szSvrMsgCapacity := newMsg }.sendMsgToServer dest newMsg

/-- The bytes of `msg` in `OnGateClientEvent`. -/
def userloginMsg : Message := bytesLE 4 0 ++ bytesLE 4 0 ++ bytesLE 2 WholeCmd.userlogin.toNat

variable (proto : ClientProto)

/-- The key that a login is checked against. -/
def checkKey (logincmd : ReqLogin) : String :=
  proto.md5 (logincmd.account ++ "7cool" ++ toString logincmd.time.toInt)

/-- The case `PRE_LOGIN_CMD`. With the right check key the session is added, and the packet is
forwarded for the user that the session has then; otherwise the client is to be told. -/
def onPreLogin (s : ClientThread) (msg : Message) (conn : TcpConnectionPtr) :
    Option ClientThread := do
  let payload ← msg.payload
  let logincmd := proto.parseFromArray payload
  let session ← s.listener.session conn
  if logincmd.checkKey = checkKey proto logincmd then
    let s := s.withListener
      (s.listener.addSession session.socketKey logincmd.userId logincmd.serverId)
    let session ← s.listener.session conn
    let dataLen ← msg.dataLen
    s.forward session.sessionServerId session.userId msg (dataLen.setWidth 64) logincmd.serverId
  else
    let strData := proto.serializeAsString { errorCode := ackLoginCodeFailed }
    let szMsgCapacity ← setMessage s.szMsgCapacity WholeCmd.preLoginAck (strData ++ [0])
      (BitVec.ofNat 64 strData.length)
    let l ← s.listener.sendMsg session.socketKey msg
    return { s.withListener l with szMsgCapacity }

/-- The loop body of `OnGateClientMessage`. -/
def doClientMessage (s : ClientThread) (msg : MsgFromClient) : Option ClientThread := do
  let wholeCmd ← msg.message.wholeCmd
  if wholeCmd = WholeCmd.preLogin then
    match s.listener.context msg.userSession with
    | some _ => s.onPreLogin proto msg.message msg.userSession
    | none => return s
  else if wholeCmd = WholeCmd.heart then
    match s.listener.context msg.userSession with
    | some _ =>
      let session ← s.listener.session msg.userSession
      let l ← s.listener.sendMsg session.socketKey msg.message
      return s.withListener l
    | none => return s
  else
    match s.listener.context msg.userSession with
    | some _ =>
      let session ← s.listener.session msg.userSession
      let dataLen ← msg.message.dataLen
      s.forward session.sessionServerId session.userId msg.message (dataLen.setWidth 64)
        session.sessionServerId
    | none => return s

/-- The loop body of `OnGateClientEvent`. -/
def doClientEvent (s : ClientThread) (evt : TcpEvent) : Option ClientThread :=
  match evt.eventId with
  | .disconnected =>
    s.forward evt.serverId evt.userId (userloginMsg ++ proto.behindMsg) 0 evt.serverId
  | .connected | .error | .firstRead => some s

/-- `GateListenClientThread`. -/
def thread : ListenThread ClientThread where
  listener := listener
  withListener := withListener
  onMessage s msg := s.doClientMessage proto msg
  onEvent s evt := s.doClientEvent proto evt
  listener_withListener _ _ := rfl

/-- The login that a packet is, if the gate accepts it. -/
def acceptedLogin (msg : Message) : Option (UserId × ServerId) :=
  if msg.wholeCmd = some WholeCmd.preLogin then
    msg.payload.bind fun payload ↦
      let logincmd := proto.parseFromArray payload
      if logincmd.checkKey = checkKey proto logincmd then some (logincmd.userId, logincmd.serverId)
      else none
  else none

/-- The server that a packet is for, if it is one that is forwarded. -/
def destination (s : ClientThread) (msg : MsgFromClient) : Option ServerId :=
  (s.listener.context msg.userSession).bind fun session ↦
    if msg.message.wholeCmd = some WholeCmd.preLogin then
      (acceptedLogin proto msg.message).map (·.2)
    else if msg.message.wholeCmd = some WholeCmd.heart then none
    else some session.sessionServerId

/-! ### What a packet does -/

open TcpServer

variable {proto} {s s' : ClientThread} {msg : MsgFromClient} {svrid dest : ServerId}
  {userid u : UserId} {v : ServerId} {data : List UInt8} {len : BitVec 64}

/-- What has been forwarded between two states. -/
def forwardedBy (s s' : ClientThread) : List (ServerId × Message) :=
  s'.forwarded.drop s.forwarded.length

/-- What a step forwards is what it puts at the end of the list. -/
theorem forwardedBy_eq {new : List (ServerId × Message)}
    (h : s'.forwarded = s.forwarded ++ new) : forwardedBy s s' = new := by
  rw [forwardedBy, h, List.drop_left]

theorem forwardedBy_self (h : s'.forwarded = s.forwarded) : forwardedBy s s' = [] :=
  forwardedBy_eq (h.trans (List.append_nil _).symm)

/-- One packet is forwarded, to a server and under some ids. -/
def Forwards (s s' : ClientThread) (dest : ServerId) (ids : MsgInServer) (pkt : List UInt8) :
    Prop :=
  ∃ outer pad, forwardedBy s s' = [(dest, outer)] ∧ Message.unwrap outer = some (ids, pkt ++ pad)

/-- The packet is forwarded if the server is reached, and dropped otherwise. -/
def Sends (s s' : ClientThread) (dest : ServerId) (ids : MsgInServer) (pkt : List UInt8) : Prop :=
  if s.Reaches dest then Forwards s s' dest ids pkt else forwardedBy s s' = []

/-- The login that the gate writes itself carries the login command. -/
theorem wholeCmd_userloginMsg (rest : List UInt8) :
    Message.wholeCmd (userloginMsg ++ rest) = some WholeCmd.userlogin := by
  have hpacket : userloginMsg ++ rest = partialPacket WholeCmd.userlogin [] 0 ++ rest := rfl
  rw [hpacket, wholeCmd_partialPacket]

/-- **A message is sent if the gate knows its server, and is dropped otherwise.** The lookup comes
first, so what is dropped does not count as forwarded. -/
theorem sendMsgToServer_spec {outer : Message} (h : s.sendMsgToServer dest outer = some s') :
    s'.listener = s.listener ∧ s'.szSvrMsgCapacity = s.szSvrMsgCapacity ∧
      forwardedBy s s' = if s.Reaches dest then [(dest, outer)] else [] := by
  rw [sendMsgToServer] at h
  cases hlist : s.gate.serverIdList[dest]? with
  | none =>
    rw [hlist] at h
    obtain rfl := Option.some.inj h
    have hreach : ¬ s.Reaches dest := by
      rw [Reaches, hlist]
      exact Bool.false_ne_true
    rw [if_neg hreach]
    exact ⟨rfl, rfl, forwardedBy_self rfl⟩
  | some socketKey =>
    rw [hlist] at h
    obtain ⟨l, -, h⟩ := Option.bind_eq_some_iff.1 h
    obtain rfl := Option.some.inj h
    refine ⟨rfl, rfl, forwardedBy_eq ?_⟩
    dsimp only
    split_ifs
    · rfl
    · exact (List.append_nil _).symm

/-- What is forwarded is put into an envelope with the ids. -/
theorem forward_spec (hbuf : s.szSvrMsgCapacity.length = maxBuffSize) (hlen : len.toNat < 2 ^ 32)
    (h : s.forward svrid userid data len dest = some s') :
    s'.listener = s.listener ∧ s'.szSvrMsgCapacity.length = maxBuffSize ∧
      Sends s s' dest ⟨userid, svrid⟩ (data.take (packetLen len.toNat)) ∧
      packetLen len.toNat ≤ data.length := by
  obtain ⟨outer, houter, hsend⟩ := Option.bind_eq_some_iff.1 h
  obtain ⟨hlength, hdata, pad, hunwrap⟩ :=
    setServerMessage_eq_some hlen (Nat.le_of_eq hbuf) houter
  obtain ⟨hlistener, hbuffer, hforwarded⟩ := sendMsgToServer_spec hsend
  refine ⟨hlistener, (congrArg _ hbuffer).trans (hlength.trans hbuf), ?_, hdata⟩
  rw [Sends]
  split_ifs with hreach
  · exact ⟨outer, pad, hforwarded.trans (if_pos hreach), hunwrap⟩
  · exact hforwarded.trans (if_neg hreach)

/-- A packet logs its connection in: the gate accepts it, the connection is open, and the user has
no session. -/
def LogsIn (proto : ClientProto) (s : ClientThread) (msg : MsgFromClient) (u : UserId)
    (v : ServerId) : Prop :=
  acceptedLogin proto msg.message = some (u, v) ∧ s.listener.sessionMap[u]? = none ∧
    s.listener.Open msg.userSession

/-- **What a packet does**: it may set the session of its connection, and it may be forwarded, under
the ids that the session has then. -/
structure Handles (proto : ClientProto) (s : ClientThread) (msg : MsgFromClient)
    (s' : ClientThread) : Prop where
  buffer : s'.szSvrMsgCapacity.length = maxBuffSize
  alive : s.listener.context msg.userSession ≠ none → s.listener.Alive msg.userSession
  keepsClosed : s.listener.KeepsClosed s'.listener
  others : ∀ c, c ≠ msg.userSession → s'.listener.context c = s.listener.context c
  loggedIn : ∀ u v us, LogsIn proto s msg u v → s.listener.context msg.userSession = some us →
    s'.listener.context msg.userSession = some { us with userId := u, sessionServerId := v }
  same : (∀ u v, ¬ LogsIn proto s msg u v) →
    s'.listener.context msg.userSession = s.listener.context msg.userSession
  silent : destination proto s msg = none → forwardedBy s s' = []
  sends : ∀ dest, destination proto s msg = some dest →
    ∃ us pkt, s'.listener.context msg.userSession = some us ∧
      Sends s s' dest ⟨us.userId, us.sessionServerId⟩ pkt

/-- A packet that is not an accepted login and leaves the sessions alone. -/
theorem Handles.of_sameTables (haccept : acceptedLogin proto msg.message = none)
    (halive : s.listener.context msg.userSession ≠ none → s.listener.Alive msg.userSession)
    (hbuf : s'.szSvrMsgCapacity.length = maxBuffSize) (hs : s.listener.SameTables s'.listener)
    (hsilent : destination proto s msg = none → forwardedBy s s' = [])
    (hsends : ∀ dest, destination proto s msg = some dest →
      ∃ us pkt, s.listener.context msg.userSession = some us ∧
        Sends s s' dest ⟨us.userId, us.sessionServerId⟩ pkt) :
    Handles proto s msg s' where
  buffer := hbuf
  alive := halive
  keepsClosed := hs.keepsClosed
  others c _ := by rw [hs.context]
  loggedIn u v us h := absurd (haccept.symm.trans h.1) (by simp)
  same _ := by rw [hs.context]
  silent := hsilent
  sends := by
    rw [hs.context]
    exact hsends

/-- A packet that is not an accepted login, leaves the sessions alone and is not forwarded. -/
theorem Handles.of_destination_none (haccept : acceptedLogin proto msg.message = none)
    (halive : s.listener.context msg.userSession ≠ none → s.listener.Alive msg.userSession)
    (hbuf : s'.szSvrMsgCapacity.length = maxBuffSize) (hs : s.listener.SameTables s'.listener)
    (hdest : destination proto s msg = none) (hforwarded : forwardedBy s s' = []) :
    Handles proto s msg s' :=
  .of_sameTables haccept halive hbuf hs (fun _ ↦ hforwarded)
    fun dest h ↦ absurd (hdest.symm.trans h) (by simp)

/-- A packet of a connection that is not known does nothing. -/
theorem Handles.of_context_none (hbuf : s.szSvrMsgCapacity.length = maxBuffSize)
    (hus : s.listener.context msg.userSession = none) : Handles proto s msg s where
  buffer := hbuf
  alive h := absurd hus h
  keepsClosed := (SameTables.refl _).keepsClosed
  others _ _ := rfl
  loggedIn _ _ us _ hus' := absurd (hus.symm.trans hus') (by simp)
  same _ := rfl
  silent _ := forwardedBy_self rfl
  sends dest h := by
    rw [destination, hus] at h
    cases h

private theorem setWidth_lt (len : BitVec 32) : (len.setWidth 64).toNat < 2 ^ 32 := by
  rw [BitVec.toNat_setWidth]
  omega

/-- The case `PRE_LOGIN_CMD`: the user is let in if the check key is right, and what is forwarded is
forwarded for the user that the session has afterwards. -/
theorem onPreLogin_handles {us : UserSession} (hn : s.listener.Numbered)
    (hbuf : s.szSvrMsgCapacity.length = maxBuffSize)
    (hcmd : msg.message.wholeCmd = some WholeCmd.preLogin)
    (hus : s.listener.context msg.userSession = some us)
    (h : s.onPreLogin proto msg.message msg.userSession = some s') : Handles proto s msg s' := by
  obtain ⟨payload, hpayload, h⟩ := Option.bind_eq_some_iff.1 h
  have haccept : acceptedLogin proto msg.message =
      if (proto.parseFromArray payload).checkKey =
          checkKey proto (proto.parseFromArray payload) then
        some ((proto.parseFromArray payload).userId, (proto.parseFromArray payload).serverId)
      else none := by
    rw [acceptedLogin, if_pos hcmd, hpayload]
    rfl
  have hdest : destination proto s msg = (acceptedLogin proto msg.message).map (·.2) := by
    rw [destination, hus, Option.bind_some, if_pos hcmd]
  dsimp only at h
  generalize proto.parseFromArray payload = login at h haccept
  obtain ⟨us', hsession, h⟩ := Option.bind_eq_some_iff.1 h
  obtain ⟨halive, hus'⟩ := session_eq_some_iff.1 hsession
  obtain rfl := Option.some.inj (hus.symm.trans hus')
  split at h
  · next hkey =>
    rw [if_pos hkey] at haccept
    obtain ⟨us', hsession', h⟩ := Option.bind_eq_some_iff.1 h
    obtain ⟨dataLen, -, h⟩ := Option.bind_eq_some_iff.1 h
    obtain ⟨hlistener, hbuffer, hforwards, -⟩ := forward_spec
      (s := s.withListener (s.listener.addSession us.socketKey login.userId login.serverId)) hbuf
      (setWidth_lt dataLen) h
    have hsilent : destination proto s msg = none → forwardedBy s s' = [] := by
      rw [hdest, haccept]
      exact fun hnone ↦ absurd hnone (by simp)
    have hsends : ∀ dest, destination proto s msg = some dest →
        ∃ us pkt, s'.listener.context msg.userSession = some us ∧
          Sends s s' dest ⟨us.userId, us.sessionServerId⟩ pkt := by
      rw [hdest, haccept, hlistener]
      rintro dest hdest
      obtain rfl := Option.some.inj hdest
      exact ⟨us', _, (session_eq_some_iff.1 hsession').2, hforwards⟩
    have hlogs : ∀ u v, LogsIn proto s msg u v → u = login.userId ∧ v = login.serverId := by
      intro u v hlogs
      have := Option.some.inj (hlogs.1.symm.trans haccept)
      exact ⟨congrArg (·.1) this, congrArg (·.2) this⟩
    have hl : s'.listener = s.listener.addSession us.socketKey login.userId login.serverId :=
      hlistener
    rcases hn.addSession_cases hus login.userId login.serverId with
      ⟨hcan, hkeeps, hctx⟩ | ⟨hcannot, hsame⟩
    · -- the session is set
      rw [← hl] at hkeeps hctx
      refine ⟨hbuffer, fun _ ↦ halive, hkeeps, fun c hne ↦ ?_, fun u v us' hlog hus' ↦ ?_,
        fun hno ↦ ?_, hsilent, hsends⟩
      · rw [hctx, context_modifyContext, if_neg hne.symm]
      · obtain ⟨rfl, rfl⟩ := hlogs u v hlog
        rw [hctx, context_modifyContext, if_pos rfl, hus']
        rfl
      · exact absurd ⟨haccept, hcan⟩ (hno _ _)
    · -- the user has a session, or the connection has closed
      rw [← hl] at hsame
      refine ⟨hbuffer, fun _ ↦ halive, hsame.keepsClosed, fun c _ ↦ by rw [hsame.context],
        fun u v us' hlog _ ↦ ?_, fun _ ↦ by rw [hsame.context], hsilent, hsends⟩
      obtain ⟨rfl, rfl⟩ := hlogs u v hlog
      exact absurd hlog.2 hcannot
  · next hkey =>
    rw [if_neg hkey] at haccept
    obtain ⟨ack, -, h⟩ := Option.bind_eq_some_iff.1 h
    obtain ⟨l, hsend, h⟩ := Option.bind_eq_some_iff.1 h
    obtain rfl := Option.some.inj h
    refine .of_destination_none haccept (fun _ ↦ halive) hbuf (sameTables_sendMsg hsend) ?_
      (forwardedBy_self rfl)
    rw [hdest, haccept]
    rfl

/-- **What handling a packet can do, said once**: every property of the runs is derived from it. -/
theorem doClientMessage_handles (hn : s.listener.Numbered)
    (hbuf : s.szSvrMsgCapacity.length = maxBuffSize) (h : s.doClientMessage proto msg = some s') :
    Handles proto s msg s' := by
  obtain ⟨cmd, hcmd, h⟩ := Option.bind_eq_some_iff.1 h
  cases hus : s.listener.context msg.userSession with
  | none =>
    simp only [hus] at h
    split_ifs at h
    all_goals
      obtain rfl := Option.some.inj h
      exact .of_context_none hbuf hus
  | some us =>
    simp only [hus] at h
    split at h
    · next hlogin =>
      subst hlogin
      exact onPreLogin_handles hn hbuf hcmd hus h
    · next hlogin =>
      have hne : msg.message.wholeCmd ≠ some WholeCmd.preLogin := by
        rw [hcmd]
        exact fun heq ↦ hlogin (Option.some.inj heq)
      have haccept : acceptedLogin proto msg.message = none := by rw [acceptedLogin, if_neg hne]
      have hdest : destination proto s msg =
          if cmd = WholeCmd.heart then none else some us.sessionServerId := by
        rw [destination, hus, Option.bind_some, if_neg hne, hcmd]
        simp only [Option.some.injEq]
      split at h
      · next hheart =>
        rw [if_pos hheart] at hdest
        obtain ⟨us', hsession, h⟩ := Option.bind_eq_some_iff.1 h
        obtain ⟨l, hsend, h⟩ := Option.bind_eq_some_iff.1 h
        obtain rfl := Option.some.inj h
        exact .of_destination_none haccept (fun _ ↦ (session_eq_some_iff.1 hsession).1) hbuf
          (sameTables_sendMsg hsend) hdest (forwardedBy_self rfl)
      · next hheart =>
        rw [if_neg hheart] at hdest
        obtain ⟨us', hsession, h⟩ := Option.bind_eq_some_iff.1 h
        obtain ⟨halive, hus'⟩ := session_eq_some_iff.1 hsession
        obtain rfl := Option.some.inj (hus.symm.trans hus')
        obtain ⟨dataLen, -, h⟩ := Option.bind_eq_some_iff.1 h
        obtain ⟨hlistener, hbuffer, hforwards, -⟩ := forward_spec hbuf (setWidth_lt dataLen) h
        refine .of_sameTables haccept (fun _ ↦ halive) hbuffer (hlistener ▸ .refl _) ?_ ?_
        · rw [hdest]
          exact fun hnone ↦ absurd hnone (by simp)
        · rintro dest hdest'
          obtain rfl := Option.some.inj (hdest.symm.trans hdest')
          exact ⟨us, _, hus, hforwards⟩

/-- What an event does: nothing to the listener, and the end of a connection is forwarded under the
ids that the event has. -/
theorem doClientEvent_spec {evt : TcpEvent} (hbuf : s.szSvrMsgCapacity.length = maxBuffSize)
    (h : s.doClientEvent proto evt = some s') :
    s'.listener = s.listener ∧ s'.szSvrMsgCapacity.length = maxBuffSize ∧
      if evt.eventId = .disconnected then ∃ pkt : Message,
        Sends s s' evt.serverId ⟨evt.userId, evt.serverId⟩ pkt ∧
          ∀ pad : List UInt8, Message.wholeCmd (pkt ++ pad) = some WholeCmd.userlogin
      else forwardedBy s s' = [] := by
  rw [doClientEvent] at h
  split at h
  · next he =>
    rw [if_pos he]
    obtain ⟨hlistener, hbuffer, hforwards, hdata⟩ := forward_spec hbuf (by decide) h
    refine ⟨hlistener, hbuffer, _, hforwards, fun pad ↦ ?_⟩
    rw [wholeCmd_take_append (by decide) hdata]
    exact wholeCmd_userloginMsg _
  all_goals
    next he =>
      obtain rfl := Option.some.inj h
      rw [he]
      exact ⟨rfl, hbuf, forwardedBy_self rfl⟩

/-! ### Runs -/

open ListenThread

/-- What happens at the gate: a callback or a turn of this thread; or the other thread, which serves
the logic servers, has changed who is registered and what it has connected. -/
inductive Happening
  | turn (i : Turning)
  | servers (serverIdList : Std.ExtTreeMap ServerId SocketKey) (tcpServerListener : TcpServer)

/-- What the other thread leaves. -/
def withServers (s : ClientThread) (serverIdList : Std.ExtTreeMap ServerId SocketKey)
    (tcpServerListener : TcpServer) : ClientThread :=
  { s with gate := { s.gate with serverIdList, tcpServerListener } }

variable (proto) in
/-- What becomes of the thread. -/
def step (s : Listening ClientThread) : Happening → Option (Listening ClientThread)
  | .turn i => (thread proto).step s i
  | .servers serverIdList tcpServerListener =>
    some { s with state := s.state.withServers serverIdList tcpServerListener }

variable (proto) in
/-- What can happen. -/
def Possible (s : Listening ClientThread) : Happening → Prop
  | .turn i => (thread proto).Possible s i
  | .servers _ _ => True

instance (s : Listening ClientThread) : ∀ i, Decidable (Possible proto s i)
  | .turn i => inferInstanceAs (Decidable ((thread proto).Possible s i))
  | .servers _ _ => isTrue trivial

/-- The session that the next packet points to has not been freed. -/
def SessionThere (s : Listening ClientThread) : Happening → Prop
  | .turn .message => ∀ msg ∈ nextMsg s, s.state.listener.context msg.userSession ≠ none →
    s.state.listener.Alive msg.userSession
  | _ => True

instance (s : Listening ClientThread) : ∀ i, Decidable (SessionThere s i)
  | .turn .message => inferInstanceAs (Decidable (∀ _ ∈ nextMsg s, _ → _))
  | .turn (.connect _) | .turn (.receive _) | .turn (.disConnect _) | .turn (.connectDestroyed _)
  | .turn .receiveMsg | .turn .getEvents | .turn .event | .servers _ _ => isTrue trivial

/-- Nobody has connected. The buffers are static. -/
def start (gate : GateManager) : Listening ClientThread where
  state :=
    { gate := { gate with tcpClientListener := {} }
      szMsgCapacity := .replicate maxBuffSize 0
      szSvrMsgCapacity := .replicate maxBuffSize 0 }

/-- A gate at which server `1` is registered. -/
def sampleGate : GateManager where
  tcpClientListener := {}
  tcpServerListener := (({} : TcpServer).onConnect 1).getD {}
  serverIdList := (∅ : Std.ExtTreeMap ServerId SocketKey).insert 1 2
  szMsgCapacity := .replicate maxBuffSize 0
  szSvrMsgCapacity := .replicate maxBuffSize 0

/-- The hash of `hero7cool5`. -/
def sampleKey : String := "61acb5e223c083a8ae52a4c5a78e18d5"

/-- The login of user `7`, whose account is `hero`, for server `1`. -/
def sampleLogin : List UInt8 :=
  [0x0a, 0x04, 0x68, 0x65, 0x72, 0x6f, 0x10, 0x07, 0x18, 0x01, 0x22, 0x20] ++
    sampleKey.toList.map (fun c ↦ .ofNat c.toNat) ++ [0x28, 0x05]

/-- The library, as far as that login goes, and an empty stack. -/
def sampleProto : ClientProto where
  parseFromArray data :=
    if data = sampleLogin then
      { account := "hero", userId := 7, serverId := 1, checkKey := sampleKey, time := 5 }
    else {}
  serializeAsString login := [0x08, .ofNat login.errorCode.toInt.toNat]
  md5 text := if text = "hero7cool5" then sampleKey else ""
  behindMsg := .replicate 6 0

/-- The packet with that login. -/
def samplePacket : Message := packet WholeCmd.preLogin sampleLogin

/-! ### What holds in every run -/

/-- What waits is so, and the buffer has its size. -/
structure Sound (proto : ClientProto) (s : Listening ClientThread) : Prop where
  booked : s.state.listener.Booked ((thread proto).waiting s)
  buffer : s.state.szSvrMsgCapacity.length = maxBuffSize

theorem sound_start (proto : ClientProto) (gate : GateManager) : Sound proto (start gate) :=
  ⟨booked_start, List.length_replicate⟩

theorem Sound.turn {s s' : Listening ClientThread} {i : Turning} (h : Sound proto s)
    (hp : (thread proto).Possible s i) (hs : (thread proto).step s i = some s') :
    Sound proto s' := by
  have hsteps := steps_of_step hs
  have hbooked := fun hkeeps ↦ hsteps.booked hp hkeeps h.booked
  cases hsteps with
  | connect hl => exact ⟨hbooked (by simp), h.buffer⟩
  | receive msg => exact ⟨hbooked (by simp), h.buffer⟩
  | disConnect conn => exact ⟨hbooked (by simp), h.buffer⟩
  | connectDestroyed conn => exact ⟨hbooked (by simp), h.buffer⟩
  | receiveMsg => exact ⟨hbooked (by simp), h.buffer⟩
  | message hm =>
    have hhandles := doClientMessage_handles h.booked.numbered h.buffer hm
    exact ⟨hbooked fun _ ↦ hhandles.keepsClosed, hhandles.buffer⟩
  | getEvents => exact ⟨hbooked (by simp), h.buffer⟩
  | @event state msgList evt evts state' he =>
    obtain ⟨hlistener, hbuffer, -⟩ := doClientEvent_spec h.buffer he
    have hkeeps : state.listener.KeepsClosed state'.listener := by
      rw [hlistener]
      exact (SameTables.refl _).keepsClosed
    exact ⟨hbooked fun _ ↦ hkeeps, hbuffer⟩

/-- The other thread does not touch the listener of this one. -/
theorem Sound.servers {s : Listening ClientThread} (h : Sound proto s)
    (serverIdList : Std.ExtTreeMap ServerId SocketKey) (tcpServerListener : TcpServer) :
    Sound proto { s with state := s.state.withServers serverIdList tcpServerListener } :=
  ⟨h.booked, h.buffer⟩

/-- A packet is not handled when its session has gone. -/
theorem sessionThere_of_message {s s' : Listening ClientThread} (h : Sound proto s)
    (hs : (thread proto).step s .message = some s') : SessionThere s (.turn .message) := by
  cases steps_of_step hs with
  | message hm =>
    intro msg hmsg
    obtain rfl := Option.some.inj hmsg
    exact (doClientMessage_handles h.booked.numbered h.buffer hm).alive

/-- Where a step was taken, the session that it reads was there: reading a destroyed one has no
result. -/
theorem sessionThere_of_step {s s' : Listening ClientThread} {i : Happening} (h : Sound proto s)
    (hs : step proto s i = some s') : SessionThere s i := by
  cases i with
  | servers => trivial
  | turn i =>
    cases i with
    | message => exact sessionThere_of_message h hs
    | _ => trivial

end ClientThread

end QCLib
