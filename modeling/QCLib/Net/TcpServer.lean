import QCLib.Net.Packet

/-!
# Connections and sessions

`TcpServer` of `tcp_server.cpp`: the connections that are open, by their keys, and the users that
are logged in, each with a connection. The library's connection objects are on a heap of their own,
since a session can hold on to one that has been closed; each carries its `UserSession`.

A connection object is shared by the library, which lets go of it some time after it has closed
(`connectDestroyed`), and by the two maps. When nothing refers to it any more it is freed, and its
session with it (`Alive`). A message that has arrived has a plain pointer to the session, which does
not keep it there: reading through it is undefined once the session has gone (`session`), although
the heap of the model keeps what it was (`context`).

`send` and `shutdown` belong to the library. What the model keeps of them is what a connection has
been asked to send, and whether it has been asked to close. The counter of keys is signed, and
`onConnect` is undefined where it would overflow.

The functions are those that run under the mutex, each as a whole. A run of them is in
`Net.Sessions`, and the loop that takes the lists in `Net.ListenThread`. The lemmas at the end say
what a function leaves as it is, and are what the frame arguments of the gate's modules are made of.
-/

namespace QCLib

/-- `UserSession`; the user `0` is nobody. -/
structure UserSession where
  socketKey : SocketKey
  userId : UserId := 0
  sessionServerId : ServerId := 0
  deriving DecidableEq, Repr

/-- `TcpEventType`. -/
inductive TcpEventType
  | connected
  | disconnected
  | error
  | firstRead
  deriving DecidableEq, Repr

/-- `TcpEvent`, what the loop tells the thread about a connection. -/
structure TcpEvent where
  socketKey : SocketKey
  userId : UserId
  serverId : ServerId
  eventId : TcpEventType
  errorCode : Int32
  deriving DecidableEq, Repr

/-- `TcpConnectionPtr`: connections are told apart by a number that is not used twice. -/
abbrev TcpConnectionPtr := Nat

/-- What a `TcpConnectionPtr` points to. It is `held` as long as the library refers to it. -/
structure TcpConnection where
  context : UserSession
  sent : Buffer := []
  shutdown : Bool := false
  held : Bool := true
  deriving DecidableEq, Repr

/-- `TcpServer`: the two maps and the counter of keys, the connections that the maps and the library
refer to, and the events that have not been taken yet. -/
structure TcpServer where
  socketKeyIndex : SocketKey := 1
  connectionMap : Std.ExtTreeMap SocketKey TcpConnectionPtr := ∅
  sessionMap : Std.ExtTreeMap UserId TcpConnectionPtr := ∅
  connections : Std.ExtTreeMap TcpConnectionPtr TcpConnection := ∅
  eventList : List TcpEvent := []

namespace TcpServer

/-! ### The library's connections -/

/-- `any_cast<UserSession>(conn->getMutableContext())`. -/
def context (s : TcpServer) (conn : TcpConnectionPtr) : Option UserSession :=
  (s.connections[conn]?).map (·.context)

/-- Write through the pointer that `getMutableContext` returned. -/
def modifyContext (s : TcpServer) (conn : TcpConnectionPtr) (f : UserSession → UserSession) :
    TcpServer :=
  { s with connections := s.connections.modify conn fun c ↦ { c with context := f c.context } }

/-- `conn->send(&buf)`. -/
def send (s : TcpServer) (conn : TcpConnectionPtr) (buf : Buffer) : TcpServer :=
  { s with connections := s.connections.modify conn fun c ↦ { c with sent := c.sent ++ buf } }

/-- `conn->shutdown()`. -/
def shutdown (s : TcpServer) (conn : TcpConnectionPtr) : TcpServer :=
  { s with connections := s.connections.modify conn fun c ↦ { c with shutdown := true } }

/-- `connectDestroyed` has run for a connection, and the library refers to it no longer. -/
def connectDestroyed (s : TcpServer) (conn : TcpConnectionPtr) : TcpServer :=
  { s with connections := s.connections.modify conn fun c ↦ { c with held := false } }

/-- The library refers to the connection. -/
def Held (s : TcpServer) (conn : TcpConnectionPtr) : Prop := ∃ c ∈ s.connections[conn]?, c.held

instance (s : TcpServer) (conn : TcpConnectionPtr) : Decidable (s.Held conn) :=
  decidable_of_iff ((s.connections[conn]?).any (·.held)) (by simp [Held, Option.any_eq_true])

/-- What a connection has been asked to send. -/
def sent (s : TcpServer) (conn : TcpConnectionPtr) : Buffer :=
  ((s.connections[conn]?).map (·.sent)).getD []

/-! ### How long a session is there -/

/-- The connection has not been freed: the library or one of the maps refers to it. -/
def Alive (s : TcpServer) (conn : TcpConnectionPtr) : Prop :=
  s.Held conn ∨ (∃ k : SocketKey, s.connectionMap[k]? = some conn) ∨
    ∃ u : UserId, s.sessionMap[u]? = some conn

/-- A connection is in a table if and only if it is listed there. -/
theorem exists_getElem?_iff {κ : Type} [Ord κ] [Std.TransOrd κ] [Std.LawfulEqOrd κ]
    {m : Std.ExtTreeMap κ TcpConnectionPtr} {conn : TcpConnectionPtr} :
    (∃ k : κ, m[k]? = some conn) ↔ ∃ p ∈ m.toList, p.2 = conn := by
  constructor
  · rintro ⟨k, hk⟩
    exact ⟨(k, conn), Std.ExtTreeMap.mem_toList_iff_getElem?_eq_some.2 hk, rfl⟩
  · rintro ⟨⟨k, _⟩, hmem, rfl⟩
    exact ⟨k, Std.ExtTreeMap.mem_toList_iff_getElem?_eq_some.1 hmem⟩

instance (s : TcpServer) (conn : TcpConnectionPtr) : Decidable (s.Alive conn) :=
  decidable_of_iff (s.Held conn ∨ (∃ p ∈ s.connectionMap.toList, p.2 = conn) ∨
    ∃ p ∈ s.sessionMap.toList, p.2 = conn) (by
      rw [Alive, exists_getElem?_iff, exists_getElem?_iff])

/-- Read through an `m_user_session` that is not null. -/
def session (s : TcpServer) (conn : TcpConnectionPtr) : Option UserSession :=
  if s.Alive conn then s.context conn else none

/-! ### Sending and closing -/

/-- `SendMsg`. An unknown key is passed over without a word. -/
def sendMsg (s : TcpServer) (socketKey : SocketKey) (msg : Message) : Option TcpServer :=
  match s.connectionMap[socketKey]? with
  | some conn => do
    let buf ← msg2Buffer msg []
    return s.send conn buf
  | none => return s

/-- `SendMsgToUser`. A user without a session is passed over as well. -/
def sendMsgToUser (s : TcpServer) (userId : UserId) (msg : Message) : Option TcpServer :=
  match s.sessionMap[userId]? with
  | some conn => do
    let buf ← msg2Buffer msg []
    return s.send conn buf
  | none => return s

/-- `DisConnect` only asks the library to close: the maps change when `onDisConnect` is called. -/
def disConnect (s : TcpServer) (socketKey : SocketKey) : TcpServer :=
  match s.connectionMap[socketKey]? with
  | some conn => s.shutdown conn
  | none => s

/-! ### Callbacks -/

/-- `setEvent`, under the mutex: the event goes to the end of the list. -/
def setEvent (s : TcpServer) (socketKey : SocketKey) (userId : UserId) (serverId : ServerId)
    (eventType : TcpEventType) (errorCode : Int32) : TcpServer :=
  { s with eventList := s.eventList ++ [⟨socketKey, userId, serverId, eventType, errorCode⟩] }

/-- `onConnect`: the connection gets the next key and a session of its own, and the thread is told.
-/
def onConnect (s : TcpServer) (conn : TcpConnectionPtr) : Option TcpServer :=
  if s.socketKeyIndex = Int64.maxValue then none
  else
    let socketKeyIndex := s.socketKeyIndex + 1
    let s := { s with
      socketKeyIndex
      connectionMap := s.connectionMap.insertIfNew socketKeyIndex conn
      connections := s.connections.insert conn { context := { socketKey := socketKeyIndex } } }
    some (s.setEvent socketKeyIndex 0 0 .connected 0)

/-- `onDisConnect`: the key and the user of the session are taken out of the maps, whoever the
user's entry belongs to, and the thread is told. -/
def onDisConnect (s : TcpServer) (conn : TcpConnectionPtr) : TcpServer :=
  match s.context conn with
  | some session =>
    let s := { s with
      connectionMap := s.connectionMap.erase session.socketKey
      sessionMap := s.sessionMap.erase session.userId }
    s.setEvent session.socketKey session.userId session.sessionServerId .disconnected 0
  | none => s

/-- `AddSession`. A user who is not logged in gets the session of the key. A user who is, on another
connection, has that one closed, and is not logged in by this call. -/
def addSession (s : TcpServer) (socketKey : SocketKey) (userId : UserId) (svrid : ServerId) :
    TcpServer :=
  match s.sessionMap[userId]? with
  | none =>
    match s.connectionMap[socketKey]? with
    | some conn =>
      let s := s.modifyContext conn fun session ↦
        { session with userId, sessionServerId := svrid }
      { s with sessionMap := s.sessionMap.insertIfNew userId conn }
    | none => s
  | some conn =>
    match s.context conn with
    | some session =>
      if socketKey = session.socketKey then s else s.disConnect session.socketKey
    | none => s

/-- A callback of the library, or a login. -/
inductive Callback
  | connect (conn : TcpConnectionPtr)
  | disConnect (conn : TcpConnectionPtr)
  | addSession (socketKey : SocketKey) (userId : UserId) (svrid : ServerId)
  deriving DecidableEq, Repr

/-- What a callback does, where it is defined. -/
def step (s : TcpServer) : Callback → Option TcpServer
  | .connect conn => s.onConnect conn
  | .disConnect conn => some (s.onDisConnect conn)
  | .addSession socketKey userId svrid => some (s.addSession socketKey userId svrid)

/-! ### What stays as it is -/

variable {s : TcpServer} {conn c : TcpConnectionPtr}

/-- Only one session is changed, and only if there is one. -/
theorem context_modifyContext (f : UserSession → UserSession) :
    (s.modifyContext conn f).context c =
      if conn = c then (s.context c).map f else s.context c := by
  simp only [context, modifyContext, Std.ExtTreeMap.getElem?_modify,
    Std.LawfulEqCmp.compare_eq_iff_eq]
  split_ifs with h
  · subst h
    rw [Option.map_map, Option.map_map]
    rfl
  · rfl

@[simp] theorem context_shutdown : (s.shutdown conn).context = s.context := by
  funext c
  simp only [context, shutdown, Std.ExtTreeMap.getElem?_modify,
    Std.LawfulEqCmp.compare_eq_iff_eq]
  split_ifs with h
  · subst h
    rw [Option.map_map]
    rfl
  · rfl

@[simp] theorem context_connectDestroyed : (s.connectDestroyed conn).context = s.context := by
  funext c
  simp only [context, connectDestroyed, Std.ExtTreeMap.getElem?_modify,
    Std.LawfulEqCmp.compare_eq_iff_eq]
  split_ifs with h
  · subst h
    rw [Option.map_map]
    rfl
  · rfl

/-- A session can be read as long as it is there. -/
theorem session_eq_some_iff {us : UserSession} :
    s.session conn = some us ↔ s.Alive conn ∧ s.context conn = some us := by
  rw [session]
  split_ifs with h
  · exact (and_iff_right h).symm
  · exact iff_of_false (by simp) fun halive ↦ h halive.1

/-- A connection that the map of connections refers to cannot have been freed, so its session can be
read. -/
theorem session_of_connectionMap {k : SocketKey} (h : s.connectionMap[k]? = some conn) :
    s.session conn = s.context conn :=
  if_pos (Or.inr (Or.inl ⟨k, h⟩))

@[simp] theorem connectionMap_disConnect (k : SocketKey) :
    (s.disConnect k).connectionMap = s.connectionMap := by
  rw [disConnect]
  cases s.connectionMap[k]? <;> rfl

@[simp] theorem sessionMap_disConnect (k : SocketKey) :
    (s.disConnect k).sessionMap = s.sessionMap := by
  rw [disConnect]
  cases s.connectionMap[k]? <;> rfl

@[simp] theorem socketKeyIndex_disConnect (k : SocketKey) :
    (s.disConnect k).socketKeyIndex = s.socketKeyIndex := by
  rw [disConnect]
  cases s.connectionMap[k]? <;> rfl

@[simp] theorem context_disConnect (k : SocketKey) : (s.disConnect k).context = s.context := by
  rw [disConnect]
  cases s.connectionMap[k]? with
  | none => rfl
  | some conn => exact context_shutdown

/-- Only the connection of the user is asked to send. -/
theorem sent_send_of_ne {buf : Buffer} (h : conn ≠ c) : (s.send conn buf).sent c = s.sent c := by
  simp only [sent, send, Std.ExtTreeMap.getElem?_modify, Std.LawfulEqCmp.compare_eq_iff_eq, h,
    if_false]

end TcpServer

end QCLib
