import QCLib.Foundations.Indexes
import QCLib.Foundations.StepRun
import QCLib.Net.TcpServer

/-!
# When the session tables are consistent

The sessions of a server and the users that its open connections are logged in as should be two
views of one thing, **inverse** tables in the sense of `Indexes`. Connecting changes neither,
disconnecting removes a pair from both, and a login adds one; so the tables are inverse as long as
every login that opens a session is the first on its connection (`FirstLogin`). A second login under
another name leaves the session of the first behind.

The tables are read as functions: `sessions` is what the server has under a user, and `logins` which
user an open connection is logged in as. `Keyed` holds in every run: the keys of connections are
their own and below the counter. With it, consistency is the abstract property of
`Foundations.Indexes`, and each callback is one of the operations there, `Inverse.unlink` for a
closing and `Inverse.link_iff` for a login.

The condition is exact along runs, and the two runs at the end are a login that meets it and one
that does not.
-/

open Indexes StepRun

namespace QCLib

namespace TcpServer

variable {s s' : TcpServer} {c conn : TcpConnectionPtr} {k : SocketKey} {u : UserId}
  {us : UserSession} {v : ServerId}

/-! ### Definitions -/

/-- The connection is still in `m_connection_map`, under its own key. -/
def Open (s : TcpServer) (c : TcpConnectionPtr) : Prop :=
  ∃ us ∈ s.context c, s.connectionMap[us.socketKey]? = some c

/-- The two tables agree. -/
structure Consistent (s : TcpServer) : Prop where
  /-- Every session is that of an open connection, which is logged in as its user. -/
  session_open : ∀ u c, s.sessionMap[u]? = some c →
    s.Open c ∧ ∃ us, s.context c = some us ∧ us.userId = u
  /-- Every open connection that is logged in has the session of its user. -/
  open_session : ∀ c us, s.Open c → s.context c = some us → us.userId ≠ 0 →
    s.sessionMap[us.userId]? = some c

/-- What is sent to a user is put on no connection but one that is open and logged in as the
user. -/
def OnlyReaches (s : TcpServer) : Prop :=
  ∀ u msg s' c, s.sendMsgToUser u msg = some s' → s'.sent c ≠ s.sent c →
    s.Open c ∧ ∃ us, s.context c = some us ∧ us.userId = u

/-- What can happen: a connection that is not known yet connects, one that is open disconnects, and
somebody logs in. -/
def Possible (s : TcpServer) : Callback → Prop
  | .connect c => s.context c = none
  | .disConnect c => s.Open c
  | .addSession _ u _ => u ≠ 0

/-- A login that opens a session is the first on its connection. -/
def FirstLogin (s : TcpServer) : Callback → Prop
  | .addSession k u _ => s.sessionMap[u]? = none →
    ∀ c ∈ s.connectionMap[k]?, ∀ us ∈ s.context c, us.userId = 0
  | _ => True

/-! ### Keys -/

/-- Keys belong to one connection each, and are not reissued. -/
structure Keyed (s : TcpServer) : Prop where
  context_of_mem : ∀ k c, s.connectionMap[k]? = some c →
    ∃ us, s.context c = some us ∧ us.socketKey = k
  key_le : ∀ c us, s.context c = some us → us.socketKey.toInt ≤ s.socketKeyIndex.toInt
  nobody : s.sessionMap[(0 : UserId)]? = none

theorem keyed_start : ({} : TcpServer).Keyed where
  context_of_mem k c h := by simp at h
  key_le c us h := by simp [context] at h
  nobody := by simp

/-- A server is `Keyed` if it has the keys, the sessions and the contexts of one that is, apart from
users. -/
theorem Keyed.of_eq (h : s.Keyed) (hconn : s'.connectionMap = s.connectionMap)
    (hctx : ∀ c, (s'.context c).map (·.socketKey) = (s.context c).map (·.socketKey))
    (hidx : s'.socketKeyIndex = s.socketKeyIndex) (hnobody : s'.sessionMap[(0 : UserId)]? = none) :
    s'.Keyed where
  context_of_mem k c hc := by
    rw [hconn] at hc
    obtain ⟨us, hus, rfl⟩ := h.context_of_mem k c hc
    have hkey := hctx c
    rw [hus] at hkey
    exact Option.map_eq_some_iff.1 hkey
  key_le c us hc := by
    have hkey := hctx c
    rw [hc] at hkey
    obtain ⟨us', hus', heq⟩ := Option.map_eq_some_iff.1 hkey.symm
    have hkey' : us'.socketKey = us.socketKey := heq
    rw [← hkey', hidx]
    exact h.key_le c us' hus'
  nobody := hnobody

/-! ### The tables -/

/-- The connection of a user. -/
def sessions (s : TcpServer) (u : UserId) : Option TcpConnectionPtr := s.sessionMap[u]?

/-- The user of an open connection. -/
def logins (s : TcpServer) (c : TcpConnectionPtr) : Option UserId :=
  (s.context c).bind fun us ↦
    if s.connectionMap[us.socketKey]? = some c ∧ us.userId ≠ 0 then some us.userId else none

/-- A user is logged in on a connection that is open and whose session has that user. -/
theorem logins_eq_some_iff : s.logins c = some u ↔
    s.Open c ∧ (∃ us, s.context c = some us ∧ us.userId = u) ∧ u ≠ 0 := by
  rw [logins, Option.bind_eq_some_iff]
  constructor
  · intro ⟨us, hus, h⟩
    split_ifs at h with hif
    obtain rfl := Option.some.inj h
    exact ⟨⟨us, hus, hif.1⟩, ⟨us, hus, rfl⟩, hif.2⟩
  · intro ⟨⟨us, hus, hopen⟩, ⟨us', hus', heq⟩, hne⟩
    obtain rfl := Option.some.inj (hus.symm.trans hus')
    subst heq
    exact ⟨us, hus, if_pos ⟨hopen, hne⟩⟩

/-- **Consistency in abstract terms.** The two tables are partial functions between users and
connections, and they are consistent if and only if each is the inverse of the other. -/
theorem Keyed.consistent_iff (h : s.Keyed) : s.Consistent ↔ Inverse s.sessions s.logins := by
  constructor
  · intro hs u c
    rw [logins_eq_some_iff]
    constructor
    · intro hu
      obtain ⟨hopen, hus⟩ := hs.session_open u c hu
      refine ⟨hopen, hus, ?_⟩
      rintro rfl
      exact Option.some_ne_none c (hu.symm.trans h.nobody)
    · intro ⟨hopen, ⟨us, hus, heq⟩, hne⟩
      subst heq
      exact hs.open_session c us hopen hus hne
  · intro hinv
    refine ⟨fun u c hu ↦ ?_, fun c us hopen hus hne ↦ ?_⟩
    · obtain ⟨hopen, hus, -⟩ := logins_eq_some_iff.1 ((hinv u c).1 hu)
      exact ⟨hopen, hus⟩
    · exact (hinv us.userId c).2 (logins_eq_some_iff.2 ⟨hopen, ⟨us, hus, rfl⟩, hne⟩)

/-! ### What the callbacks do to the tables -/

/-- The next key is one larger, as long as there is one. -/
theorem toInt_succ {a : Int64} (h : a ≠ Int64.maxValue) : (a + 1).toInt = a.toInt + 1 := by
  have hlt : a.toInt ≠ Int64.maxValue.toInt := fun heq ↦ h (Int64.toInt_inj.1 heq)
  have hmax : Int64.maxValue.toInt = 2 ^ 63 - 1 := by decide
  have hle := a.toInt_lt
  have hge := a.le_toInt
  rw [Int64.toInt_add, show (1 : Int64).toInt = 1 by decide, Int.bmod_def]
  omega

theorem exists_onConnect (hs : s.onConnect conn = some s') :
    s.socketKeyIndex ≠ Int64.maxValue ∧ s'.socketKeyIndex = s.socketKeyIndex + 1 ∧
      s'.connectionMap = s.connectionMap.insertIfNew (s.socketKeyIndex + 1) conn ∧
      s'.sessionMap = s.sessionMap ∧
      ∀ c, s'.context c =
        if conn = c then some { socketKey := s.socketKeyIndex + 1 } else s.context c := by
  rw [onConnect] at hs
  split_ifs at hs with hmax
  obtain rfl := Option.some.inj hs
  refine ⟨hmax, rfl, rfl, rfl, fun c ↦ ?_⟩
  simp only [context, setEvent, Std.ExtTreeMap.getElem?_insert, Std.LawfulEqCmp.compare_eq_iff_eq]
  split_ifs <;> rfl

/-- **A new connection** has a key but no user, so both tables stay as they are. -/
theorem Keyed.onConnect (h : s.Keyed) (hc : s.context conn = none)
    (hs : s.onConnect conn = some s') :
    s'.Keyed ∧ s'.sessions = s.sessions ∧ s'.logins = s.logins := by
  obtain ⟨hmax, hidx, hconn, hsess, hctx⟩ := exists_onConnect hs
  have hsucc := toInt_succ hmax
  -- the key is above all that were ever given, so the entries of the others stay
  have hnew : ∀ c us, s.context c = some us → us.socketKey ≠ s.socketKeyIndex + 1 := by
    intro c us hus heq
    have hle := h.key_le c us hus
    rw [heq] at hle
    omega
  have hold : ∀ k, k ≠ s.socketKeyIndex + 1 → s'.connectionMap[k]? = s.connectionMap[k]? := by
    intro k hk
    simp only [hconn, Std.ExtTreeMap.getElem?_insertIfNew, Std.LawfulEqCmp.compare_eq_iff_eq,
      hk.symm, false_and, if_false]
  refine ⟨⟨fun k c hk ↦ ?_, fun c us hus ↦ ?_, ?_⟩, ?_, ?_⟩
  · rw [hctx]
    simp only [hconn, Std.ExtTreeMap.getElem?_insertIfNew, Std.LawfulEqCmp.compare_eq_iff_eq] at hk
    split_ifs at hk with hif
    · obtain rfl := Option.some.inj hk
      exact ⟨_, if_pos rfl, hif.1⟩
    · obtain ⟨us, hus, hkey⟩ := h.context_of_mem k c hk
      have hne : conn ≠ c := by
        rintro rfl
        exact Option.some_ne_none us (hus.symm.trans hc)
      exact ⟨us, by rw [if_neg hne, hus], hkey⟩
  · rw [hctx] at hus
    rw [hidx]
    split_ifs at hus
    · obtain rfl := Option.some.inj hus
      exact Int.le_refl _
    · have := h.key_le c us hus
      omega
  · rw [hsess]
    exact h.nobody
  · funext u
    rw [sessions, hsess]
    rfl
  · funext c
    rw [logins, logins, hctx]
    split_ifs with hif
    · subst hif
      rw [hc, Option.bind_some, if_neg fun hif ↦ hif.2 rfl]
      rfl
    · refine Option.bind_congr fun us hus ↦ ?_
      rw [hold us.socketKey (hnew c us hus)]

/-- **Disconnecting** removes the connection from one table, and its user from the other. -/
theorem Keyed.onDisConnect (h : s.Keyed) (hus : s.context conn = some us)
    (hopen : s.connectionMap[us.socketKey]? = some conn) :
    (s.onDisConnect conn).Keyed ∧
      (s.onDisConnect conn).sessions = Function.update s.sessions us.userId none ∧
      (s.onDisConnect conn).logins = Function.update s.logins conn none := by
  have heq : s.onDisConnect conn = ({ s with
      connectionMap := s.connectionMap.erase us.socketKey
      sessionMap := s.sessionMap.erase us.userId } : TcpServer).setEvent us.socketKey us.userId
        us.sessionServerId .disconnected 0 := by
    rw [TcpServer.onDisConnect, hus]
  rw [heq]
  have hconn : ∀ k, (s.connectionMap.erase us.socketKey)[k]? =
      if us.socketKey = k then none else s.connectionMap[k]? := fun k ↦ by
    simp only [Std.ExtTreeMap.getElem?_erase, Std.LawfulEqCmp.compare_eq_iff_eq]
  have hsess : ∀ u, (s.sessionMap.erase us.userId)[u]? =
      if us.userId = u then none else s.sessionMap[u]? := fun u ↦ by
    simp only [Std.ExtTreeMap.getElem?_erase, Std.LawfulEqCmp.compare_eq_iff_eq]
  refine ⟨⟨fun k c hk ↦ ?_, h.key_le, ?_⟩, ?_, ?_⟩
  · refine h.context_of_mem k c ?_
    have hk' := (hconn k).symm.trans hk
    split_ifs at hk'
    exact hk'
  · refine (hsess 0).trans ?_
    split_ifs
    · rfl
    · exact h.nobody
  · funext u
    refine (hsess u).trans ?_
    rcases eq_or_ne u us.userId with rfl | hne
    · rw [if_pos rfl, Function.update_self]
    · rw [if_neg hne.symm, Function.update_of_ne hne]
      rfl
  · funext c
    show (s.context c).bind (fun us' ↦ if (s.connectionMap.erase us.socketKey)[us'.socketKey]? =
      some c ∧ us'.userId ≠ 0 then some us'.userId else none) = _
    rcases eq_or_ne c conn with rfl | hne
    · rw [hus, Option.bind_some, hconn, if_pos rfl, Function.update_self]
      exact if_neg fun hif ↦ Option.some_ne_none c hif.1.symm
    · -- another connection has another key, or it would be the one that is open under this key
      rw [Function.update_of_ne hne]
      refine Option.bind_congr fun us' hus' ↦ ?_
      rw [hconn]
      rcases eq_or_ne us.socketKey us'.socketKey with hkey | hkey
      · rw [if_pos hkey, ← hkey, hopen, if_neg fun hif ↦ Option.some_ne_none c hif.1.symm,
          if_neg fun hif ↦ hne (Option.some.inj hif.1).symm]
      · rw [if_neg hkey]

private theorem addSession_eq_of_refused
    (hcase : s.sessionMap[u]? = none → s.connectionMap[k]? = none) :
    s.addSession k u v = s ∨ ∃ k', s.addSession k u v = s.disConnect k' := by
  cases hu : s.sessionMap[u]? with
  | none => exact Or.inl (by simp only [addSession, hu, hcase hu])
  | some c =>
    cases hc : s.context c with
    | none => exact Or.inl (by simp only [addSession, hu, hc])
    | some us =>
      simp only [addSession, hu, hc]
      split_ifs
      · exact Or.inl rfl
      · exact Or.inr ⟨us.socketKey, rfl⟩

/-- A login of a user who has a session, or on a key that is not open, changes neither table. -/
theorem Keyed.addSession_of_refused (h : s.Keyed)
    (hcase : s.sessionMap[u]? = none → s.connectionMap[k]? = none) :
    (s.addSession k u v).Keyed ∧ (s.addSession k u v).sessions = s.sessions ∧
      (s.addSession k u v).logins = s.logins := by
  rcases addSession_eq_of_refused hcase with heq | ⟨k', heq⟩
  · rw [heq]
    exact ⟨h, rfl, rfl⟩
  · rw [heq]
    refine ⟨h.of_eq (connectionMap_disConnect k') (fun c ↦ ?_) (socketKeyIndex_disConnect k') ?_,
      ?_, ?_⟩
    · rw [context_disConnect]
    · rw [sessionMap_disConnect]
      exact h.nobody
    · funext u
      rw [sessions, sessionMap_disConnect]
      rfl
    · funext c
      rw [logins, context_disConnect, connectionMap_disConnect]
      rfl

/-- **Logging in** adds the pair to both tables otherwise. -/
theorem Keyed.addSession_of_open (h : s.Keyed) (hu : s.sessionMap[u]? = none)
    (hk : s.connectionMap[k]? = some c) (hne : u ≠ 0) :
    (s.addSession k u v).Keyed ∧
      (s.addSession k u v).sessions = Function.update s.sessions u (some c) ∧
      (s.addSession k u v).logins = Function.update s.logins c (some u) := by
  obtain ⟨us, hus, hkey⟩ := h.context_of_mem k c hk
  have heq : s.addSession k u v =
      { s.modifyContext c (fun us ↦ { us with userId := u, sessionServerId := v }) with
        sessionMap := s.sessionMap.insertIfNew u c } := by
    simp only [addSession, hu, hk]
    rfl
  have hctx : ∀ c', (s.addSession k u v).context c' =
      if c = c' then (s.context c').map fun us ↦ { us with userId := u, sessionServerId := v }
      else s.context c' := by
    intro c'
    rw [heq]
    show (s.modifyContext c fun us ↦ { us with userId := u, sessionServerId := v }).context c' = _
    exact context_modifyContext _
  have hsess : ∀ u', (s.addSession k u v).sessionMap[u']? =
      if u = u' then some c else s.sessionMap[u']? := by
    intro u'
    have hmem : u ∉ s.sessionMap := by
      rw [Std.ExtTreeMap.mem_iff_isSome_getElem?, hu]
      simp
    simp only [heq, Std.ExtTreeMap.getElem?_insertIfNew, Std.LawfulEqCmp.compare_eq_iff_eq, hmem,
      not_false_eq_true, and_true]
  have hconn : (s.addSession k u v).connectionMap = s.connectionMap := by
    rw [heq]
    rfl
  refine ⟨h.of_eq hconn (fun c' ↦ ?_) (by rw [heq]; rfl) ?_, ?_, ?_⟩
  · rw [hctx]
    split_ifs
    · rw [Option.map_map]
      rfl
    · rfl
  · rw [hsess, if_neg hne]
    exact h.nobody
  · funext u'
    refine (hsess u').trans ?_
    rcases eq_or_ne u' u with rfl | hu'
    · rw [if_pos rfl, Function.update_self]
    · rw [if_neg hu'.symm, Function.update_of_ne hu']
      rfl
  · funext c'
    rw [logins, hctx, hconn]
    rcases eq_or_ne c' c with rfl | hc'
    · rw [if_pos rfl, hus, Function.update_self]
      exact if_pos ⟨hkey ▸ hk, hne⟩
    · rw [if_neg hc'.symm, Function.update_of_ne hc']
      rfl

/-- One callback keeps the tables inverse, unless it is a second login. -/
theorem Keyed.step_iff {e : Callback} (h : s.Keyed) (hinv : Inverse s.sessions s.logins)
    (hp : s.Possible e) (hs : s.step e = some s') :
    s'.Keyed ∧ (Inverse s'.sessions s'.logins ↔ s.FirstLogin e) := by
  cases e with
  | connect c =>
    obtain ⟨hkeyed, hsess, hlog⟩ := h.onConnect hp hs
    refine ⟨hkeyed, iff_of_true ?_ trivial⟩
    rwa [hsess, hlog]
  | disConnect c =>
    obtain ⟨us, hus, hopen⟩ := hp
    obtain rfl := Option.some.inj hs
    obtain ⟨hkeyed, hsess, hlog⟩ := h.onDisConnect hus hopen
    refine ⟨hkeyed, iff_of_true ?_ trivial⟩
    rw [hsess, hlog]
    refine hinv.unlink (fun c' hc' ↦ ?_) fun u hu ↦ ?_
    · obtain ⟨-, -, hne⟩ := logins_eq_some_iff.1 ((hinv us.userId c').1 hc')
      have hc := (hinv us.userId c).2 (logins_eq_some_iff.2 ⟨⟨us, hus, hopen⟩, ⟨us, hus, rfl⟩, hne⟩)
      exact Option.some.inj (hc'.symm.trans hc)
    · obtain ⟨-, ⟨us', hus', heq⟩, -⟩ := logins_eq_some_iff.1 hu
      obtain rfl := Option.some.inj (Eq.trans (Eq.symm hus) hus')
      exact heq.symm
  | addSession k u v =>
    obtain rfl := Option.some.inj hs
    -- a login of a user who is known, or under a key that is not, changes nothing
    have hrefused : (s.sessionMap[u]? = none → s.connectionMap[k]? = none) →
        (s.addSession k u v).Keyed ∧ (Inverse (s.addSession k u v).sessions
          (s.addSession k u v).logins ↔ s.FirstLogin (.addSession k u v)) := by
      intro hcase
      obtain ⟨hkeyed, hsess, hlog⟩ := h.addSession_of_refused (v := v) hcase
      refine ⟨hkeyed, iff_of_true ?_ fun hu c hc ↦ ?_⟩
      · rwa [hsess, hlog]
      · rw [hcase hu] at hc
        exact absurd hc (by simp)
    cases hu : s.sessionMap[u]? with
    | some c => exact hrefused fun hnone ↦ absurd (hu.symm.trans hnone) (by simp)
    | none =>
      cases hk : s.connectionMap[k]? with
      | none => exact hrefused fun _ ↦ hk
      | some c =>
        -- otherwise the tables stay inverse if and only if the connection had no user before
        obtain ⟨hkeyed, hsess, hlog⟩ := h.addSession_of_open (v := v) hu hk hp
        obtain ⟨us, hus, hkey⟩ := h.context_of_mem k c hk
        refine ⟨hkeyed, ?_⟩
        rw [hsess, hlog, hinv.link_iff hu]
        constructor
        · intro hnone _ c' hc' us' hus'
          obtain rfl := Option.some.inj (hk.symm.trans hc')
          by_contra hne
          have hlogin := logins_eq_some_iff.2
            ⟨⟨us, hus, hkey ▸ hk⟩, ⟨us', hus', rfl⟩, hne⟩
          exact Option.some_ne_none _ (hlogin.symm.trans hnone)
        · intro hfirst
          refine Option.eq_none_iff_forall_ne_some.2 fun u' hu' ↦ ?_
          obtain ⟨-, ⟨us', hus', heq⟩, hne⟩ := logins_eq_some_iff.1 hu'
          exact hne (heq ▸ hfirst hu c hk us' hus')

/-- Consistent tables reach nobody but the user they are asked for. -/
theorem Consistent.onlyReaches (h : s.Consistent) : s.OnlyReaches := by
  intro u msg s' c hsend hsent
  rw [sendMsgToUser] at hsend
  cases hu : s.sessionMap[u]? with
  | none =>
    rw [hu] at hsend
    obtain rfl := Option.some.inj hsend
    exact absurd rfl hsent
  | some conn =>
    rw [hu] at hsend
    obtain ⟨buf, -, heq⟩ := Option.bind_eq_some_iff.1 hsend
    obtain rfl := Option.some.inj heq
    have hc : conn = c := by
      by_contra hne
      exact hsent (sent_send_of_ne hne)
    subst hc
    exact h.session_open u conn hu

/-! ### Runs -/

/-- **The session tables.** Along any run that can happen: the tables agree in every state, and what
is sent to a user reaches no other, if and only if every login that opens a session is the first on
its connection. -/
theorem consistent_iff_firstLogin {l : List Callback} (hl : Guarded step Possible {} l) :
    Throughout step (fun s ↦ s.Consistent ∧ s.OnlyReaches) {} l ↔ Guarded step FirstLogin {} l := by
  have hiff : ∀ {s : TcpServer}, s.Keyed →
      ((s.Consistent ∧ s.OnlyReaches) ↔ Inverse s.sessions s.logins) := by
    intro s h
    rw [and_iff_left_of_imp Consistent.onlyReaches, h.consistent_iff]
  have hstart : Inverse ({} : TcpServer).sessions ({} : TcpServer).logins := by
    intro u c
    simp [sessions, logins, context]
  have hsame : ∀ (s : TcpServer) (e : Callback), s.Keyed ∧ Inverse s.sessions s.logins →
      s.Possible e → (s.FirstLogin e ↔ Into step (fun s ↦ s.Consistent ∧ s.OnlyReaches) s e) := by
    intro s e hs hp
    cases hstep : s.step e with
    | none =>
      refine iff_of_true ?_ (by rw [Into, hstep]; trivial)
      cases e with
      | connect c => trivial
      | disConnect c => exact absurd hstep (by simp [step])
      | addSession k u v => exact absurd hstep (by simp [step])
    | some s' =>
      obtain ⟨hkeyed, hcons⟩ := hs.1.step_iff hs.2 hp hstep
      rw [into_of_eq hstep, hiff hkeyed, hcons]
  rw [Throughout, hiff keyed_start, and_iff_right hstart]
  refine (guarded_iff hsame (fun s e s' hs hp hok hstep ↦ ?_) ⟨keyed_start, hstart⟩ hl).symm
  obtain ⟨hkeyed, hcons⟩ := hs.1.step_iff hs.2 hp hstep
  exact ⟨hkeyed, hcons.2 hok⟩

/-! ### Two runs -/

instance (s : TcpServer) (c : TcpConnectionPtr) : Decidable (s.Open c) :=
  decidable_of_iff ((s.context c).any fun us ↦ s.connectionMap[us.socketKey]? = some c) (by
    simp [Open, Option.any_eq_true])

instance (s : TcpServer) : ∀ e : Callback, Decidable (s.Possible e)
  | .connect c => inferInstanceAs (Decidable (s.context c = none))
  | .disConnect c => inferInstanceAs (Decidable (s.Open c))
  | .addSession _ u _ => inferInstanceAs (Decidable (u ≠ 0))

instance (s : TcpServer) : ∀ e : Callback, Decidable (s.FirstLogin e)
  | .connect _ | .disConnect _ => isTrue trivial
  | .addSession k u _ => inferInstanceAs (Decidable (s.sessionMap[u]? = none →
      ∀ c ∈ s.connectionMap[k]?, ∀ us ∈ s.context c, us.userId = 0))

/-- A user logs in twice, the second time from elsewhere; when the first connection has closed, it
tries again. -/
def sampleCallbacks : List Callback :=
  [.connect 1, .addSession 2 7 1, .connect 2, .addSession 3 7 1, .disConnect 1, .addSession 3 7 1]

/-- A run with a first login, which stays consistent. -/
theorem consistent_sampleCallbacks :
    Throughout step (fun s ↦ s.Consistent ∧ s.OnlyReaches) {} sampleCallbacks :=
  (consistent_iff_firstLogin (by decide +kernel)).2 (by decide +kernel)

/-- A connection logs in under a second name and closes. The first session is still there, and its
user is locked out. -/
def reloginCallbacks : List Callback :=
  [.connect 1, .addSession 2 7 1, .addSession 2 8 1, .disConnect 1, .connect 2, .addSession 3 7 1]

/-- A second login under the same connection: the run is possible, and a session is left behind. -/
theorem relogin_leaves_session :
    Guarded step Possible {} reloginCallbacks ∧ ∃ s, run step {} reloginCallbacks = some s ∧
      s.sessionMap[(7 : UserId)]? = some 1 ∧ ¬ s.Open 1 ∧ ¬ s.Consistent := by
  obtain ⟨s, hrun, hsession, hclosed⟩ : ∃ s, run step {} reloginCallbacks = some s ∧
      s.sessionMap[(7 : UserId)]? = some 1 ∧ ¬ s.Open 1 :=
    ⟨_, rfl, by decide +kernel, by decide +kernel⟩
  refine ⟨by decide +kernel, s, hrun, hsession, hclosed, fun h ↦ ?_⟩
  exact hclosed (h.session_open 7 1 hsession).1

end TcpServer

end QCLib
