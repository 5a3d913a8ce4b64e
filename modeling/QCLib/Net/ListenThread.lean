import QCLib.Net.Receive
import QCLib.Net.Sessions

/-!
# Threads that serve a listener

`GateListenClientThread` and `GateListenServerThread` are one loop over different handlers: take the
messages that have arrived, handle each, take the events that have been set, handle each. The
callbacks of the library come in between, on a thread of their own; an interleaving is a list of
callbacks and turns of the loop.

A handler works on a state that has the listener in it. What holds of every such loop is said once
here: keys are not reissued (`Numbered`), and an event that waits to be handled says what the
connection that has closed was (`Booked`).

`ListenThread` is a record of what differs between the two threads of the gate: the handlers of a
packet and of an event, and where the listener is in their state. `Steps` is what a turn can be: a
callback of the library, the taking of a list, or the handling of its first element. That all
packets are handled before any event is a property of the loop, and is where both of the races that
the gate's modules are about come from.
-/

open StepRun

namespace QCLib

/-! ### Keys -/

namespace TcpServer

variable {s s' : TcpServer} {c conn : TcpConnectionPtr} {us : UserSession} {k : SocketKey}

/-- Every connection, open or closed, has a key of its own, and an open one is found under it. -/
structure Numbered (s : TcpServer) : Prop where
  context_of_mem : ∀ k c, s.connectionMap[k]? = some c →
    ∃ us, s.context c = some us ∧ us.socketKey = k
  key_le : ∀ c us, s.context c = some us → us.socketKey.toInt ≤ s.socketKeyIndex.toInt
  key_injective : ∀ c c' us us', s.context c = some us → s.context c' = some us' →
    us.socketKey = us'.socketKey → c = c'

theorem numbered_start : ({} : TcpServer).Numbered where
  context_of_mem k c h := by simp at h
  key_le c us h := by simp [context] at h
  key_injective c c' us us' h := by simp [context] at h

/-- A connection is open if the table of connections has it under the key of its session. -/
theorem open_iff (hus : s.context c = some us) :
    s.Open c ↔ s.connectionMap[us.socketKey]? = some c := by
  constructor
  · rintro ⟨us', hus', hopen⟩
    obtain rfl := Option.some.inj (hus.symm.trans hus')
    exact hopen
  · exact fun hopen ↦ ⟨us, hus, hopen⟩

/-- What does not touch the keys, and opens nothing, keeps them. -/
theorem Numbered.of_keys (h : s.Numbered)
    (hconn : ∀ (k : SocketKey) c, s'.connectionMap[k]? = some c → s.connectionMap[k]? = some c)
    (hctx : ∀ c, (s'.context c).map (·.socketKey) = (s.context c).map (·.socketKey))
    (hidx : s'.socketKeyIndex = s.socketKeyIndex) : s'.Numbered := by
  have hback : ∀ c us', s'.context c = some us' →
      ∃ us, s.context c = some us ∧ us.socketKey = us'.socketKey := fun c us' hus' ↦ by
    have hkey := hctx c
    rw [hus'] at hkey
    exact Option.map_eq_some_iff.1 hkey.symm
  refine ⟨fun k c hk ↦ ?_, fun c us' hus' ↦ ?_, fun c c' us us' hus hus' hkey ↦ ?_⟩
  · obtain ⟨us, hus, rfl⟩ := h.context_of_mem k c (hconn k c hk)
    have hkey := hctx c
    rw [hus] at hkey
    exact Option.map_eq_some_iff.1 hkey
  · obtain ⟨us, hus, hkey⟩ := hback c us' hus'
    rw [hidx, ← hkey]
    exact h.key_le c us hus
  · obtain ⟨vs, hvs, hv⟩ := hback c us hus
    obtain ⟨vs', hvs', hv'⟩ := hback c' us' hus'
    exact h.key_injective c c' vs vs' hvs hvs' (hv.trans (hkey.trans hv'.symm))

/-- A key is given out once: the next one is above all keys that a session has. -/
theorem Numbered.new_key (h : s.Numbered) (hmax : s.socketKeyIndex ≠ Int64.maxValue)
    (hus : s.context c = some us) : us.socketKey ≠ s.socketKeyIndex + 1 := by
  intro heq
  have hle := h.key_le c us hus
  rw [heq, toInt_succ hmax] at hle
  omega

theorem Numbered.onConnect (h : s.Numbered) (hc : s.context conn = none)
    (hs : s.onConnect conn = some s') : s'.Numbered := by
  obtain ⟨hmax, hidx, hconn, -, hctx⟩ := exists_onConnect hs
  have hsucc := toInt_succ hmax
  have hold : ∀ c, c ≠ conn → s'.context c = s.context c := fun c hne ↦ by
    rw [hctx, if_neg hne.symm]
  have hnew : s'.context conn = some { socketKey := s.socketKeyIndex + 1 } := by
    rw [hctx, if_pos rfl]
  refine ⟨fun k c hk ↦ ?_, fun c us hus ↦ ?_, fun c c' us us' hus hus' hkey ↦ ?_⟩
  · simp only [hconn, Std.ExtTreeMap.getElem?_insertIfNew, Std.LawfulEqCmp.compare_eq_iff_eq] at hk
    split_ifs at hk with hif
    · obtain rfl := Option.some.inj hk
      exact ⟨_, hnew, hif.1⟩
    · obtain ⟨us, hus, hkey⟩ := h.context_of_mem k c hk
      refine ⟨us, ?_, hkey⟩
      rw [hold c ?_, hus]
      rintro rfl
      exact Option.some_ne_none us (hus.symm.trans hc)
  · rcases eq_or_ne c conn with rfl | hne
    · obtain rfl := Option.some.inj (hnew.symm.trans hus)
      rw [hidx]
    · rw [hold c hne] at hus
      have := h.key_le c us hus
      rw [hidx]
      omega
  · rcases eq_or_ne c conn with rfl | hne
    · obtain rfl := Option.some.inj (hnew.symm.trans hus)
      rcases eq_or_ne c' c with rfl | hne'
      · rfl
      · rw [hold c' hne'] at hus'
        exact absurd hkey.symm (h.new_key hmax hus')
    · rw [hold c hne] at hus
      rcases eq_or_ne c' conn with rfl | hne'
      · obtain rfl := Option.some.inj (hnew.symm.trans hus')
        exact absurd hkey (h.new_key hmax hus)
      · rw [hold c' hne'] at hus'
        exact h.key_injective c c' us us' hus hus' hkey

/-- Connecting is nothing to the other connections. -/
theorem Numbered.onConnect_of_ne (h : s.Numbered) (hs : s.onConnect conn = some s')
    (hne : c ≠ conn) : s'.context c = s.context c ∧ (s'.Open c ↔ s.Open c) := by
  obtain ⟨hmax, -, hconn, -, hctx⟩ := exists_onConnect hs
  have hold : s'.context c = s.context c := by rw [hctx, if_neg hne.symm]
  refine ⟨hold, ?_⟩
  cases hus : s.context c with
  | none =>
    refine iff_of_false ?_ ?_ <;> rintro ⟨us, hus', -⟩
    · exact absurd (hus'.symm.trans (hold.trans hus)) (by simp)
    · exact absurd (hus'.symm.trans hus) (by simp)
  | some us =>
    rw [open_iff hus, open_iff (hold.trans hus), hconn]
    simp only [Std.ExtTreeMap.getElem?_insertIfNew, Std.LawfulEqCmp.compare_eq_iff_eq,
      (h.new_key hmax hus).symm, false_and, if_false]

/-! ### Frames -/

/-- The same tables and events: what differs is what connections have been asked to send, and
whether they have been asked to close. -/
structure SameTables (s s' : TcpServer) : Prop where
  socketKeyIndex : s'.socketKeyIndex = s.socketKeyIndex
  connectionMap : s'.connectionMap = s.connectionMap
  sessionMap : s'.sessionMap = s.sessionMap
  context : s'.context = s.context
  eventList : s'.eventList = s.eventList

theorem SameTables.refl (s : TcpServer) : s.SameTables s := ⟨rfl, rfl, rfl, rfl, rfl⟩

theorem sameTables_send (s : TcpServer) (conn : TcpConnectionPtr) (buf : Buffer) :
    s.SameTables (s.send conn buf) := by
  refine ⟨rfl, rfl, rfl, ?_, rfl⟩
  funext c
  simp only [context, send, Std.ExtTreeMap.getElem?_modify, Std.LawfulEqCmp.compare_eq_iff_eq]
  split_ifs with h
  · subst h
    rw [Option.map_map]
    rfl
  · rfl

/-- Sending by the key of a session touches none either. -/
theorem sameTables_sendMsg {msg : Message} (h : s.sendMsg k msg = some s') : s.SameTables s' := by
  rw [sendMsg] at h
  cases hconn : s.connectionMap[k]? with
  | none =>
    rw [hconn] at h
    obtain rfl := Option.some.inj h
    exact .refl s
  | some conn =>
    rw [hconn] at h
    obtain ⟨buf, -, heq⟩ := Option.bind_eq_some_iff.1 h
    obtain rfl := Option.some.inj heq
    exact sameTables_send s conn buf

/-- Writing to a session does the same on both sides. -/
theorem SameTables.modifyContext (h : s.SameTables s') (conn : TcpConnectionPtr)
    (f : UserSession → UserSession) :
    (s.modifyContext conn f).SameTables (s'.modifyContext conn f) := by
  refine ⟨h.socketKeyIndex, h.connectionMap, h.sessionMap, ?_, h.eventList⟩
  funext c
  rw [context_modifyContext, context_modifyContext, h.context]

/-- `DisConnect` only asks the connection to shut down; the tables change when the close is handled.
-/
theorem sameTables_disConnect (s : TcpServer) (k : SocketKey) : s.SameTables (s.disConnect k) := by
  refine ⟨socketKeyIndex_disConnect k, connectionMap_disConnect k, sessionMap_disConnect k,
    context_disConnect k, ?_⟩
  rw [disConnect]
  cases s.connectionMap[k]? <;> rfl

theorem sameTables_connectDestroyed (s : TcpServer) (conn : TcpConnectionPtr) :
    s.SameTables (s.connectDestroyed conn) :=
  ⟨rfl, rfl, rfl, context_connectDestroyed, rfl⟩

/-- Nothing is connected, disconnected or set as an event, and what the sessions of closed
connections say stays. -/
structure KeepsClosed (s s' : TcpServer) : Prop where
  socketKeyIndex : s'.socketKeyIndex = s.socketKeyIndex
  connectionMap : s'.connectionMap = s.connectionMap
  eventList : s'.eventList = s.eventList
  socketKey : ∀ c, (s'.context c).map (·.socketKey) = (s.context c).map (·.socketKey)
  closed : ∀ c, ¬ s.Open c → s'.context c = s.context c

/-- Where the tables are the same, nothing has been opened or closed. -/
theorem SameTables.keepsClosed (h : s.SameTables s') : s.KeepsClosed s' :=
  ⟨h.socketKeyIndex, h.connectionMap, h.eventList, fun c ↦ by rw [h.context],
    fun c _ ↦ by rw [h.context]⟩

/-- Whatever touches no table may follow a callback that opens and closes nothing. -/
theorem KeepsClosed.sameTables {s'' : TcpServer} (h : s.KeepsClosed s') (hs : s'.SameTables s'') :
    s.KeepsClosed s'' where
  socketKeyIndex := hs.socketKeyIndex.trans h.socketKeyIndex
  connectionMap := hs.connectionMap.trans h.connectionMap
  eventList := hs.eventList.trans h.eventList
  socketKey c := by rw [hs.context, h.socketKey]
  closed c hclosed := by rw [hs.context, h.closed c hclosed]

theorem KeepsClosed.exists_context (h : s.KeepsClosed s') {us : UserSession}
    (hus : s'.context c = some us) :
    ∃ us', s.context c = some us' ∧ us'.socketKey = us.socketKey := by
  have hkey := h.socketKey c
  rw [hus] at hkey
  exact Option.map_eq_some_iff.1 hkey.symm

/-- A callback that opens and closes nothing leaves the open connections as they are. -/
theorem KeepsClosed.open_iff (h : s.KeepsClosed s') : s'.Open c ↔ s.Open c := by
  have himp : ∀ {a b : TcpServer}, b.connectionMap = a.connectionMap →
      (b.context c).map (·.socketKey) = (a.context c).map (·.socketKey) → a.Open c → b.Open c := by
    rintro a b hconn hkey ⟨us, hus, hopen⟩
    have hus' : a.context c = some us := hus
    rw [hus'] at hkey
    obtain ⟨us', hus', hkey'⟩ := Option.map_eq_some_iff.1 hkey
    exact ⟨us', hus', by rw [hconn, hkey', hopen]⟩
  exact ⟨himp h.connectionMap.symm (h.socketKey c).symm, himp h.connectionMap (h.socketKey c)⟩

/-- The keys of the sessions are the same after such a callback. -/
theorem KeepsClosed.numbered (h : s.KeepsClosed s') (hn : s.Numbered) : s'.Numbered :=
  hn.of_keys (fun k c hk ↦ by rwa [h.connectionMap] at hk) h.socketKey h.socketKeyIndex

/-- A write to the session of an open connection that leaves its key alone. -/
theorem keepsClosed_modifyContext (s : TcpServer) (hopen : s.Open conn)
    {f : UserSession → UserSession} (hf : ∀ us, (f us).socketKey = us.socketKey) :
    s.KeepsClosed (s.modifyContext conn f) := by
  refine ⟨rfl, rfl, rfl, fun c ↦ ?_, fun c hclosed ↦ ?_⟩
  · rw [context_modifyContext]
    split_ifs
    · rw [Option.map_map]
      exact congrArg (Option.map · _) (funext hf)
    · rfl
  · rw [context_modifyContext, if_neg]
    rintro rfl
    exact hclosed hopen

/-- Connecting opens one connection, and sets one event. -/
theorem onConnect_events (hs : s.onConnect conn = some s') :
    s'.eventList = s.eventList ++ [⟨s.socketKeyIndex + 1, 0, 0, .connected, 0⟩] := by
  rw [onConnect] at hs
  split_ifs at hs
  obtain rfl := Option.some.inj hs
  rfl

/-- Disconnecting closes one connection and keeps its session, and sets one event. -/
theorem onDisConnect_tables (hus : s.context conn = some us) :
    (s.onDisConnect conn).socketKeyIndex = s.socketKeyIndex ∧
      (s.onDisConnect conn).context = s.context ∧
      (∀ k : SocketKey, (s.onDisConnect conn).connectionMap[k]? =
        if us.socketKey = k then none else s.connectionMap[k]?) ∧
      (s.onDisConnect conn).eventList = s.eventList ++
        [⟨us.socketKey, us.userId, us.sessionServerId, .disconnected, 0⟩] := by
  rw [onDisConnect, hus]
  refine ⟨rfl, rfl, fun k ↦ ?_, rfl⟩
  simp only [setEvent, Std.ExtTreeMap.getElem?_erase, Std.LawfulEqCmp.compare_eq_iff_eq]

/-- **`AddSession`**, for the key of a connection: the session is set if the connection is open and
the user has none yet, and otherwise nobody's session is touched. -/
theorem Numbered.addSession_cases (h : s.Numbered) (hus : s.context c = some us) (u : UserId)
    (v : ServerId) :
    ((s.sessionMap[u]? = none ∧ s.Open c) ∧ s.KeepsClosed (s.addSession us.socketKey u v) ∧
      (s.addSession us.socketKey u v).context = (s.modifyContext c fun us ↦
        { us with userId := u, sessionServerId := v }).context) ∨
    ¬ (s.sessionMap[u]? = none ∧ s.Open c) ∧ s.SameTables (s.addSession us.socketKey u v) := by
  cases hu : s.sessionMap[u]? with
  | none =>
    cases hk : s.connectionMap[us.socketKey]? with
    | none =>
      refine Or.inr ⟨fun hopen ↦ ?_, ?_⟩
      · exact absurd (hk.symm.trans ((open_iff hus).1 hopen.2)) (by simp)
      · simp only [addSession, hu, hk]
        exact .refl s
    | some c' =>
      -- what is found under the key of a connection is the connection
      obtain ⟨us', hus', hkey⟩ := h.context_of_mem _ _ hk
      obtain rfl := h.key_injective c' c us' us hus' hus hkey
      have hopen : s.Open c' := (open_iff hus).2 hk
      refine Or.inl ⟨⟨rfl, hopen⟩, ?_, ?_⟩
      · simp only [addSession, hu, hk]
        have hkeeps : s.KeepsClosed (s.modifyContext c' fun us ↦
            { us with userId := u, sessionServerId := v }) :=
          keepsClosed_modifyContext s hopen fun _ ↦ rfl
        exact ⟨hkeeps.socketKeyIndex, hkeeps.connectionMap, hkeeps.eventList, hkeeps.socketKey,
          hkeeps.closed⟩
      · simp only [addSession, hu, hk]
        rfl
  | some c' =>
    refine Or.inr ⟨fun hnone ↦ absurd hnone.1 (by simp), ?_⟩
    simp only [addSession, hu]
    cases s.context c' with
    | none => exact .refl s
    | some us' =>
      dsimp only
      split_ifs
      · exact .refl s
      · exact sameTables_disConnect s _

/-! ### Events that wait -/

/-- The keys of the connections that have closed, as some events have it. -/
def closing (waiting : List TcpEvent) : List SocketKey :=
  (waiting.filter (·.eventId = .disconnected)).map (·.socketKey)

/-- **What waits is so.** The events that have been set and not been handled are about connections
there have been; one that says that a connection has closed is right, the only one to say so, and
has the ids that the session has. -/
structure Booked (s : TcpServer) (waiting : List TcpEvent) : Prop where
  numbered : s.Numbered
  known : ∀ e ∈ waiting, ∃ c us, s.context c = some us ∧ us.socketKey = e.socketKey
  closed : ∀ e ∈ waiting, e.eventId = .disconnected → ∀ c us, s.context c = some us →
    us.socketKey = e.socketKey →
      ¬ s.Open c ∧ e.userId = us.userId ∧ e.serverId = us.sessionServerId
  once : (closing waiting).Nodup

variable {waiting : List TcpEvent} {e : TcpEvent}

/-- To begin with there is no connection, and no event about one. -/
theorem booked_start : ({} : TcpServer).Booked [] :=
  ⟨numbered_start, by simp, by simp, List.nodup_nil⟩

theorem mem_closing : k ∈ closing waiting ↔
    ∃ e ∈ waiting, e.eventId = .disconnected ∧ e.socketKey = k := by
  rw [closing, List.mem_map]
  simp only [List.mem_filter, decide_eq_true_eq, and_assoc]

theorem closing_cons (e : TcpEvent) (waiting : List TcpEvent) : closing (e :: waiting) =
    if e.eventId = .disconnected then e.socketKey :: closing waiting else closing waiting := by
  rw [closing, List.filter_cons]
  split_ifs with h h' h'
  · rfl
  · exact absurd (of_decide_eq_true h) h'
  · exact absurd (decide_eq_true h') h
  · rfl

theorem Booked.tail (h : s.Booked (e :: waiting)) : s.Booked waiting where
  numbered := h.numbered
  known e' he' := h.known e' (List.mem_cons_of_mem e he')
  closed e' he' := h.closed e' (List.mem_cons_of_mem e he')
  once := by
    have honce := h.once
    rw [closing_cons] at honce
    split_ifs at honce
    · exact (List.nodup_cons.1 honce).2
    · exact honce

/-- Taking the events out of the listener does not change which ones wait. -/
theorem Booked.takeEvents (h : s.Booked waiting) :
    ({ s with eventList := [] } : TcpServer).Booked waiting :=
  ⟨⟨h.numbered.1, h.numbered.2, h.numbered.3⟩, h.known, h.closed, h.once⟩

/-- A callback that opens and closes nothing keeps the account. -/
theorem Booked.of_keepsClosed (h : s.Booked waiting) (hk : s.KeepsClosed s') :
    s'.Booked waiting where
  numbered := hk.numbered h.numbered
  known e he := by
    obtain ⟨c, us, hus, hkey⟩ := h.known e he
    have hmap := hk.socketKey c
    rw [hus] at hmap
    obtain ⟨us', hus', hkey'⟩ := Option.map_eq_some_iff.1 hmap
    exact ⟨c, us', hus', hkey'.trans hkey⟩
  closed e he hid c us hus hkey := by
    obtain ⟨us', hus', hkey'⟩ := hk.exists_context hus
    have hclosed := (h.closed e he hid c us' hus' (hkey'.trans hkey)).1
    rw [hk.closed c hclosed] at hus
    rw [hk.open_iff]
    exact h.closed e he hid c us hus hkey
  once := h.once

theorem closing_append_connected (waiting : List TcpEvent) (k : SocketKey) :
    closing (waiting ++ [⟨k, 0, 0, .connected, 0⟩]) = closing waiting := by
  rw [closing, List.filter_append, List.map_append]
  exact List.append_nil _

theorem closing_append_disconnected (waiting : List TcpEvent) (us : UserSession) :
    closing (waiting ++ [⟨us.socketKey, us.userId, us.sessionServerId, .disconnected, 0⟩]) =
      closing waiting ++ [us.socketKey] := by
  rw [closing, List.filter_append, List.map_append]
  rfl

/-- A new connection sets an event with its key, behind those that wait. -/
theorem Booked.onConnect (h : s.Booked waiting) (hc : s.context conn = none)
    (hs : s.onConnect conn = some s') :
    s'.Booked (waiting ++ [⟨s.socketKeyIndex + 1, 0, 0, .connected, 0⟩]) := by
  have hnew : s'.context conn = some { socketKey := s.socketKeyIndex + 1 } := by
    rw [(exists_onConnect hs).2.2.2.2, if_pos rfl]
  have hold : ∀ c us, s.context c = some us →
      s'.context c = some us ∧ (s'.Open c ↔ s.Open c) := by
    intro c us hus
    have hne : c ≠ conn := by
      rintro rfl
      exact Option.some_ne_none us (hus.symm.trans hc)
    rw [(h.numbered.onConnect_of_ne hs hne).1]
    exact ⟨hus, (h.numbered.onConnect_of_ne hs hne).2⟩
  refine ⟨h.numbered.onConnect hc hs, fun e he ↦ ?_, fun e he hid c us hus hkey ↦ ?_, ?_⟩
  · rcases List.mem_append.1 he with he | he
    · obtain ⟨c, us, hus, hkey⟩ := h.known e he
      exact ⟨c, us, (hold c us hus).1, hkey⟩
    · obtain rfl := List.mem_singleton.1 he
      exact ⟨conn, _, hnew, rfl⟩
  · rcases List.mem_append.1 he with he | he
    · -- the key of an event that waits is not the new one
      obtain ⟨c', us', hus', hkey'⟩ := h.known e he
      obtain ⟨hsame, hopen⟩ := hold c' us' hus'
      have hc' := (h.numbered.onConnect hc hs).key_injective c c' us us' hus hsame
        (hkey.trans hkey'.symm)
      subst hc'
      obtain rfl := Option.some.inj (hus.symm.trans hsame)
      rw [hopen]
      exact h.closed e he hid c us hus' hkey
    · obtain rfl := List.mem_singleton.1 he
      cases hid
  · rw [closing_append_connected]
    exact h.once

/-- A closing takes one key out of the table of connections, and no other connection is closed by
it. -/
theorem Numbered.onDisConnect_open (h : s.Numbered) (hus : s.context conn = some us) :
    (s.onDisConnect conn).Open c ↔ s.Open c ∧ c ≠ conn := by
  obtain ⟨-, hctx, hconn, -⟩ := onDisConnect_tables hus
  constructor
  · rintro ⟨us', hus', hopen⟩
    rw [hctx] at hus'
    rw [hconn] at hopen
    split_ifs at hopen with hkey
    refine ⟨⟨us', hus', hopen⟩, ?_⟩
    rintro rfl
    exact hkey (congrArg _ (Option.some.inj (hus.symm.trans hus')))
  · rintro ⟨⟨us', hus', hopen⟩, hne⟩
    refine ⟨us', by rw [hctx]; exact hus', ?_⟩
    rw [hconn, if_neg, hopen]
    exact fun hkey ↦ hne (h.key_injective c conn us' us hus' hus hkey.symm)

/-- A closing sets an event with the key, the user and the server of the session, behind those that
wait. -/
theorem Booked.onDisConnect (h : s.Booked waiting) (hus : s.context conn = some us)
    (hopen : s.Open conn) : (s.onDisConnect conn).Booked
      (waiting ++ [⟨us.socketKey, us.userId, us.sessionServerId, .disconnected, 0⟩]) := by
  obtain ⟨hidx, hctx, hconn, -⟩ := onDisConnect_tables hus
  refine ⟨h.numbered.of_keys (fun k c hk ↦ ?_) (fun c ↦ by rw [hctx]) hidx, fun e he ↦ ?_,
    fun e he hid c us' hus' hkey ↦ ?_, ?_⟩
  · rw [hconn] at hk
    split_ifs at hk
    exact hk
  · rw [hctx]
    rcases List.mem_append.1 he with he | he
    · exact h.known e he
    · obtain rfl := List.mem_singleton.1 he
      exact ⟨conn, us, hus, rfl⟩
  · rw [hctx] at hus'
    rcases List.mem_append.1 he with he | he
    · obtain ⟨hclosed, hids⟩ := h.closed e he hid c us' hus' hkey
      exact ⟨fun hopen' ↦ hclosed ((h.numbered.onDisConnect_open hus).1 hopen').1, hids⟩
    · obtain rfl := List.mem_singleton.1 he
      obtain rfl := h.numbered.key_injective c conn us' us hus' hus hkey
      obtain rfl := Option.some.inj (hus.symm.trans hus')
      exact ⟨fun hopen' ↦ ((h.numbered.onDisConnect_open hus).1 hopen').2 rfl, rfl, rfl⟩
  · have hnew : us.socketKey ∉ closing waiting := by
      intro hmem
      obtain ⟨e, he, hid, hkey⟩ := mem_closing.1 hmem
      exact (h.closed e he hid conn us hus hkey.symm).1 hopen
    rw [closing_append_disconnected]
    exact h.once.append (List.nodup_singleton _) (by simpa using hnew)

end TcpServer

/-! ### The loop -/

/-- A loop over a listener: where the listener is in the state of the handlers, and the bodies of
the loops over the messages and over the events. -/
structure ListenThread (σ : Type) where
  listener : σ → TcpServer
  withListener : σ → TcpServer → σ
  onMessage : σ → MsgFromClient → Option σ
  onEvent : σ → TcpEvent → Option σ
  listener_withListener : ∀ st l, listener (withListener st l) = l

/-- Which of its two lists the loop is handling, with what is left of it. -/
inductive Phase
  | messages (msgs : List MsgFromClient)
  | events (evts : List TcpEvent)
  deriving DecidableEq, Repr

/-- The state of the handlers, `m_msg_List` of the listener, and where the loop is. -/
structure Listening (σ : Type) where
  state : σ
  msgList : List MsgFromClient := []
  phase : Phase := .events []

/-- A callback of the library, or a turn of the loop. -/
inductive Turning
  | connect (conn : TcpConnectionPtr)
  | receive (msg : MsgFromClient)
  | disConnect (conn : TcpConnectionPtr)
  | connectDestroyed (conn : TcpConnectionPtr)
  | receiveMsg
  | message
  | getEvents
  | event
  deriving DecidableEq, Repr

namespace ListenThread

variable {σ : Type} (t : ListenThread σ)

/-- What a callback or a turn does. -/
def step : Listening σ → Turning → Option (Listening σ)
  | s, .connect conn => ((t.listener s.state).onConnect conn).map fun l ↦
    { s with state := t.withListener s.state l }
  | s, .receive msg => some { s with msgList := s.msgList ++ [msg] }
  | s, .disConnect conn =>
    some { s with state := t.withListener s.state ((t.listener s.state).onDisConnect conn) }
  | s, .connectDestroyed conn =>
    some { s with state := t.withListener s.state ((t.listener s.state).connectDestroyed conn) }
  | ⟨state, msgList, .events []⟩, .receiveMsg => some ⟨state, [], .messages msgList⟩
  | ⟨state, msgList, .messages (msg :: msgs)⟩, .message =>
    (t.onMessage state msg).map fun state ↦ ⟨state, msgList, .messages msgs⟩
  | ⟨state, msgList, .messages []⟩, .getEvents =>
    some ⟨t.withListener state { t.listener state with eventList := [] }, msgList,
      .events (t.listener state).eventList⟩
  | ⟨state, msgList, .events (evt :: evts)⟩, .event =>
    (t.onEvent state evt).map fun state ↦ ⟨state, msgList, .events evts⟩
  | _, _ => none

/-- What can happen: a connection that is not known yet connects, one that is open receives or
disconnects, and the library lets go of one that has closed. -/
def Possible (s : Listening σ) : Turning → Prop
  | .connect conn => (t.listener s.state).context conn = none
  | .receive msg => (t.listener s.state).Open msg.userSession
  | .disConnect conn => (t.listener s.state).Open conn
  | .connectDestroyed conn => (t.listener s.state).Held conn ∧ ¬ (t.listener s.state).Open conn
  | _ => True

instance (s : Listening σ) : ∀ i, Decidable (t.Possible s i)
  | .connect _ => inferInstanceAs (Decidable (_ = _))
  | .receive msg => inferInstanceAs (Decidable ((t.listener s.state).Open msg.userSession))
  | .disConnect conn => inferInstanceAs (Decidable ((t.listener s.state).Open conn))
  | .connectDestroyed conn => inferInstanceAs (Decidable (_ ∧ ¬ (t.listener s.state).Open conn))
  | .receiveMsg | .message | .getEvents | .event => isTrue trivial

/-- The message that is handled next. -/
def nextMsg (s : Listening σ) : Option MsgFromClient :=
  match s.phase with
  | .messages msgs => msgs.head?
  | .events _ => none

/-- The event that is handled next. -/
def nextEvt (s : Listening σ) : Option TcpEvent :=
  match s.phase with
  | .messages _ => none
  | .events evts => evts.head?

/-- The events that have been set and not been handled, oldest first. -/
def waiting (s : Listening σ) : List TcpEvent :=
  match s.phase with
  | .messages _ => (t.listener s.state).eventList
  | .events evts => evts ++ (t.listener s.state).eventList

/-- The messages that have arrived and not been handled, oldest first. -/
def arrived (s : Listening σ) : List MsgFromClient :=
  match s.phase with
  | .messages msgs => msgs ++ s.msgList
  | .events _ => s.msgList

variable {t} {s s' : Listening σ} {i : Turning}

/-- **What one step can do**, case by case. -/
inductive Steps (t : ListenThread σ) : Listening σ → Turning → Listening σ → Prop
  | connect {state msgList phase conn l} : (t.listener state).onConnect conn = some l →
    Steps t ⟨state, msgList, phase⟩ (.connect conn) ⟨t.withListener state l, msgList, phase⟩
  | receive {state msgList phase} (msg) :
    Steps t ⟨state, msgList, phase⟩ (.receive msg) ⟨state, msgList ++ [msg], phase⟩
  | disConnect {state msgList phase} (conn) : Steps t ⟨state, msgList, phase⟩ (.disConnect conn)
      ⟨t.withListener state ((t.listener state).onDisConnect conn), msgList, phase⟩
  | connectDestroyed {state msgList phase} (conn) :
    Steps t ⟨state, msgList, phase⟩ (.connectDestroyed conn)
      ⟨t.withListener state ((t.listener state).connectDestroyed conn), msgList, phase⟩
  | receiveMsg {state msgList} :
    Steps t ⟨state, msgList, .events []⟩ .receiveMsg ⟨state, [], .messages msgList⟩
  | message {state msgList msg msgs state'} : t.onMessage state msg = some state' →
    Steps t ⟨state, msgList, .messages (msg :: msgs)⟩ .message ⟨state', msgList, .messages msgs⟩
  | getEvents {state msgList} : Steps t ⟨state, msgList, .messages []⟩ .getEvents
      ⟨t.withListener state { t.listener state with eventList := [] }, msgList,
        .events (t.listener state).eventList⟩
  | event {state msgList evt evts state'} : t.onEvent state evt = some state' →
    Steps t ⟨state, msgList, .events (evt :: evts)⟩ .event ⟨state', msgList, .events evts⟩

/-- A step of the model is one of the kinds that the invariants are about. -/
theorem steps_of_step (h : t.step s i = some s') : t.Steps s i s' := by
  unfold step at h
  split at h
  · obtain ⟨l, hl, rfl⟩ := Option.map_eq_some_iff.1 h
    exact .connect hl
  · obtain rfl := Option.some.inj h
    exact .receive _
  · obtain rfl := Option.some.inj h
    exact .disConnect _
  · obtain rfl := Option.some.inj h
    exact .connectDestroyed _
  · obtain rfl := Option.some.inj h
    exact .receiveMsg
  · obtain ⟨state', hstate, rfl⟩ := Option.map_eq_some_iff.1 h
    exact .message hstate
  · obtain rfl := Option.some.inj h
    exact .getEvents
  · obtain ⟨state', hstate, rfl⟩ := Option.map_eq_some_iff.1 h
    exact .event hstate
  · cases h

/-! ### Along a run -/

variable {state state' : σ} {msgList msgs : List MsgFromClient} {phase : Phase}
  {conn : TcpConnectionPtr} {l : TcpServer} {us : UserSession} {evt : TcpEvent}
  {evts : List TcpEvent}

/-- What a callback sets waits behind everything else. -/
private theorem waiting_append {new : List TcpEvent}
    (h : (t.listener state').eventList = (t.listener state).eventList ++ new) :
    t.waiting ⟨state', msgList, phase⟩ = t.waiting ⟨state, msgList, phase⟩ ++ new := by
  cases phase with
  | messages msgs => exact h
  | events evts =>
    show evts ++ (t.listener state').eventList = evts ++ (t.listener state).eventList ++ new
    rw [h, List.append_assoc]

/-- A new connection puts its event behind those that wait. -/
theorem waiting_connect (h : (t.listener state).onConnect conn = some l) :
    t.waiting ⟨t.withListener state l, msgList, phase⟩ = t.waiting ⟨state, msgList, phase⟩ ++
      [⟨(t.listener state).socketKeyIndex + 1, 0, 0, .connected, 0⟩] :=
  waiting_append (by rw [t.listener_withListener, TcpServer.onConnect_events h])

/-- A close puts its event behind them too, with the user and the server of the session. -/
theorem waiting_disConnect (h : (t.listener state).context conn = some us) :
    t.waiting ⟨t.withListener state ((t.listener state).onDisConnect conn), msgList, phase⟩ =
      t.waiting ⟨state, msgList, phase⟩ ++
        [⟨us.socketKey, us.userId, us.sessionServerId, .disconnected, 0⟩] :=
  waiting_append (by rw [t.listener_withListener, (TcpServer.onDisConnect_tables h).2.2.2])

/-- Freeing a connection tells the other thread nothing. -/
theorem waiting_connectDestroyed (conn : TcpConnectionPtr) :
    t.waiting ⟨t.withListener state ((t.listener state).connectDestroyed conn), msgList, phase⟩ =
      t.waiting ⟨state, msgList, phase⟩ := by
  have hsame :
      (t.listener (t.withListener state ((t.listener state).connectDestroyed conn))).eventList =
        (t.listener state).eventList ++ [] := by
    rw [t.listener_withListener, List.append_nil]
    rfl
  rw [waiting_append hsame, List.append_nil]

/-- Taking the events over changes who has them, and not which ones wait. -/
theorem waiting_getEvents :
    t.waiting ⟨t.withListener state { t.listener state with eventList := [] }, msgList,
      .events (t.listener state).eventList⟩ = t.waiting ⟨state, msgList, .messages []⟩ := by
  show _ ++ (t.listener (t.withListener state _)).eventList = _
  rw [t.listener_withListener, List.append_nil]
  rfl

theorem waiting_event (h : (t.listener state').eventList = (t.listener state).eventList) :
    t.waiting ⟨state, msgList, .events (evt :: evts)⟩ =
      evt :: t.waiting ⟨state', msgList, .events evts⟩ := by
  show evt :: (evts ++ _) = evt :: (evts ++ _)
  rw [h]

/-- **What waits stays so.** Only the handlers are left to be looked at. -/
theorem Steps.booked (h : t.Steps s i s') (hp : t.Possible s i)
    (hkeeps : i = .message ∨ i = .event → (t.listener s.state).KeepsClosed (t.listener s'.state))
    (hb : (t.listener s.state).Booked (t.waiting s)) :
    (t.listener s'.state).Booked (t.waiting s') := by
  cases h with
  | connect hl =>
    rw [waiting_connect hl, t.listener_withListener]
    exact hb.onConnect hp hl
  | receive msg => exact hb
  | disConnect conn =>
    obtain ⟨us, hus, -⟩ := id hp
    rw [waiting_disConnect hus, t.listener_withListener]
    exact hb.onDisConnect hus hp
  | @connectDestroyed state msgList phase conn =>
    rw [waiting_connectDestroyed, t.listener_withListener]
    exact hb.of_keepsClosed (TcpServer.sameTables_connectDestroyed _ conn).keepsClosed
  | receiveMsg => exact hb
  | message hm =>
    have hk := hkeeps (Or.inl rfl)
    rw [ListenThread.waiting, hk.eventList]
    exact hb.of_keepsClosed hk
  | getEvents =>
    rw [waiting_getEvents, t.listener_withListener]
    exact hb.takeEvents
  | event he =>
    have hk := hkeeps (Or.inr rfl)
    rw [waiting_event hk.eventList] at hb
    exact hb.tail.of_keepsClosed hk

end ListenThread

end QCLib
