import QCLib.Logic.EnteredRole
import QCLib.Logic.ObjectIds
import QCLib.Logic.PreLogin

/-!
# The roles that exist

What the cache and the store are for is a book of roles: a role that is created is in it from then
on, and nothing that its player does later takes it out or changes it. `RoleBook` is that book, and
`Keeps` says that a logic server keeps it, part of it in the cache and all of it in the store.

Every run does to the server what it does to the book (`Keeps.run`), if the store had the book in it
to begin with (`Holds`), the server counts on from there, and the counter does not come to its end:
a counter behind the store would give an id away twice. So a role that was created is found again,
listed and let in after any run (`role_survives`), and nobody enters with a role that was not
created (`acknowledged_iff`). Listing the roles of a user is no event of a run, since it only reads
the store.

A role is in the book as the store has it: with the name that comes out of the stream.

The book is the abstract state: who has which role, with which name and level, and how many ids were
given out. `Holds` connects it to the store, and `Keeps` to the whole server, with the cache as a
part of the store that may be read instead. The steps of the map module respect both (`Respected`),
since they write to neither, and the handlers of the login module have a result each.

The store is any that is faithful (`NoSqlStore.Faithful`), so what is shown of the server does not
depend on how Redis answers in detail.
-/

open StepRun

namespace QCLib

open CStrings Stringstream

namespace LogicServer

variable {σ : Type} {s s' s₁ s₂ : LogicServer σ} {id me him : ObjectId} {user : UserId}
  {x : PlayerDataMsg}

/-! ### What the map module leaves alone -/

/-- A relation between states that every access of the map module respects. -/
structure Respected (R : LogicServer σ → LogicServer σ → Prop) : Prop where
  refl : ∀ s, R s s
  trans : ∀ {s s₁ s₂}, R s s₁ → R s₁ s₂ → R s s₂
  sendMsgToPlayer : ∀ s user cmd body, R s (s.sendMsgToPlayer user cmd body)
  setTowerAoi : ∀ s toweraoi, R s (s.setTowerAoi toweraoi)
  modifyViewSet : ∀ s id f, R s (s.modifyViewSet id f)
  setPlayerMapData : ∀ s id mapData, R s (s.setPlayerMapData id mapData)

namespace Respected

variable {R : LogicServer σ → LogicServer σ → Prop}

theorem delViewPlayer (h : Respected R) (s : LogicServer σ) (user : UserId) (me him : ObjectId) :
    R s (s.delViewPlayer user me him) := by
  have hmine := h.trans (h.modifyViewSet s me (·.erase him))
    (h.sendMsgToPlayer _ user .delobj (.mapDelObject ⟨him⟩))
  simp only [LogicServer.delViewPlayer]
  split_ifs
  · exact h.trans hmine (h.trans (h.modifyViewSet ..) (h.sendMsgToPlayer ..))
  · exact hmine
  · exact h.refl s

theorem sendDelViewPlayers (h : Respected R) (user : UserId) (me : ObjectId) (del : List ObjectId)
    (s : LogicServer σ) : R s (s.sendDelViewPlayers user me del) := by
  induction del generalizing s with
  | nil => exact h.refl s
  | cons him rest ih =>
    rw [LogicServer.sendDelViewPlayers]
    split_ifs
    · exact h.trans (h.delViewPlayer s user me him) (ih _)
    · exact h.refl s

/-- One appearance, which may find the other player gone. -/
theorem addViewPlayer (h : Respected R) (s : LogicServer σ) (user : UserId) (me : ObjectId)
    (mapData : PlayerMapData) (him : ObjectId) : R s (s.addViewPlayer user me mapData him) := by
  simp only [LogicServer.addViewPlayer]
  cases s.getPlayerMapData him with
  | none =>
    dsimp only
    rw [ite_self]
    exact h.refl s
  | some objMapData =>
    dsimp only
    split_ifs
    · exact h.trans (h.trans (h.modifyViewSet s me (·.insert him)) (h.sendMsgToPlayer ..))
        (h.trans (h.modifyViewSet ..) (h.sendMsgToPlayer ..))
    · exact h.refl s
    · exact h.refl s

theorem sendAddViewPlayers (h : Respected R) (user : UserId) (me : ObjectId)
    (mapData : PlayerMapData) (add : List ObjectId) (s : LogicServer σ) :
    R s (s.sendAddViewPlayers user me mapData add) := by
  induction add generalizing s with
  | nil => exact h.refl s
  | cons him rest ih => exact h.trans (h.addViewPlayer s user me mapData him) (ih _)

theorem broadcastMsg (h : Respected R) (users : List UserId) (cmd : WholeCmd) (body : Body)
    (s : LogicServer σ) : R s (s.broadcastMsg users cmd body) := by
  induction users generalizing s with
  | nil => exact h.refl s
  | cons u users ih => exact h.trans (h.sendMsgToPlayer s u cmd body) (ih _)

theorem moveViews (h : Respected R) (s : LogicServer σ) (user : UserId) (me : ObjectId)
    (mapData : PlayerMapData) (cmd : ReqMove) (out : MoveSets) :
    R s (s.moveViews user me mapData cmd out) := by
  rw [LogicServer.moveViews]
  split_ifs
  · exact h.trans (h.trans (h.sendDelViewPlayers user me ..)
      (h.trans (h.broadcastMsg ..) (h.sendMsgToPlayer ..)))
        (h.trans (h.sendAddViewPlayers ..) (h.setPlayerMapData ..))
  · exact h.setPlayerMapData ..

theorem playerMove (h : Respected R) {cmd : ReqMove} (hs : s.playerMove user me cmd = some s') :
    R s s' := by
  rw [LogicServer.playerMove] at hs
  obtain ⟨walk, -, hs⟩ := Option.bind_eq_some_iff.1 hs
  cases walk with
  | true =>
    obtain ⟨aoi, -, hs⟩ := Option.bind_eq_some_iff.1 hs
    obtain ⟨r, -, hs⟩ := Option.bind_eq_some_iff.1 hs
    obtain rfl := Option.some.inj hs
    exact h.trans (h.setTowerAoi s r.1) (h.moveViews ..)
  | false =>
    obtain rfl := Option.some.inj hs
    exact h.sendMsgToPlayer ..

theorem addUserToMap (h : Respected R) {mapId : MapId}
    (hs : s.addUserToMap mapId user me = some s') : R s s' := by
  rw [LogicServer.addUserToMap] at hs
  cases hdata : s.getPlayerMapData me with
  | none =>
    rw [hdata] at hs
    obtain rfl := Option.some.inj hs
    exact h.refl s
  | some mapData =>
    rw [hdata] at hs
    obtain ⟨aoi, -, hs⟩ := Option.bind_eq_some_iff.1 hs
    obtain ⟨r, -, hs⟩ := Option.bind_eq_some_iff.1 hs
    obtain rfl := Option.some.inj hs
    exact h.trans (h.setTowerAoi s r.1) (h.sendAddViewPlayers ..)

theorem delUserFromMap (h : Respected R) (hs : s.delUserFromMap user me = some s') : R s s' := by
  rw [LogicServer.delUserFromMap] at hs
  cases hdata : s.getPlayerMapData me with
  | none =>
    rw [hdata] at hs
    obtain rfl := Option.some.inj hs
    exact h.refl s
  | some mapData =>
    rw [hdata] at hs
    obtain ⟨aoi, -, hs⟩ := Option.bind_eq_some_iff.1 hs
    obtain ⟨r, -, hs⟩ := Option.bind_eq_some_iff.1 hs
    obtain rfl := Option.some.inj hs
    exact h.trans (h.setTowerAoi s r.1) (h.sendDelViewPlayers ..)

end Respected

/-- The same players with the same records, the same store, and the same counter. -/
structure SameRecords (s s' : LogicServer σ) : Prop where
  baseData : s'.baseData = s.baseData
  db : s'.db = s.db
  gCount : s'.gCount = s.gCount

/-- The map module leaves the records, the store and the counter alone. -/
theorem respected_sameRecords : Respected (SameRecords (σ := σ)) where
  refl _ := ⟨rfl, rfl, rfl⟩
  trans h h' := ⟨h'.baseData.trans h.baseData, h'.db.trans h.db, h'.gCount.trans h.gCount⟩
  sendMsgToPlayer _ _ _ _ := ⟨rfl, rfl, rfl⟩
  setTowerAoi _ _ := ⟨rfl, rfl, rfl⟩
  modifyViewSet s id f := by
    refine ⟨funext (samePlayers_modifyViewSet s id f).baseData, ?_, ?_⟩ <;>
    · rw [modifyViewSet]
      split_ifs <;> rfl
  setPlayerMapData s id mapData :=
    ⟨funext (samePlayers_setPlayerMapData s id mapData).baseData, rfl, rfl⟩

end LogicServer

/-! ### Records, in any order -/

namespace PlayerDataMsg

variable {α : Type} {x : PlayerDataMsg} {kv : KeyValue} {keyValue : List KeyValue}

/-- Fields of other names do not change a member. -/
theorem get_mapToStruct_of_notMem {get : PlayerDataMsg → α}
    (hother : ∀ y kv', kv'.field ≠ kv.field → get (setField y kv') = get y)
    (hmem : kv.field ∉ keyValue.map KeyValue.field) (y : PlayerDataMsg) :
    get (y.mapToStruct keyValue) = get y := by
  induction keyValue generalizing y with
  | nil => rfl
  | cons kv' keyValue ih =>
    obtain ⟨hne, hmem⟩ := not_or.1 (mt List.mem_cons.2 hmem)
    exact (ih hmem _).trans (hother y kv' (Ne.symm hne))

/-- A member is what its field says, wherever in the list that is. -/
theorem get_mapToStruct_of_mem {get : PlayerDataMsg → α} {a : α}
    (hset : ∀ y, get (setField y kv) = a)
    (hother : ∀ y kv', kv'.field ≠ kv.field → get (setField y kv') = get y)
    (hnodup : (keyValue.map KeyValue.field).Nodup) (hmem : kv ∈ keyValue) (y : PlayerDataMsg) :
    get (y.mapToStruct keyValue) = a := by
  induction keyValue generalizing y with
  | nil => exact absurd hmem List.not_mem_nil
  | cons kv' keyValue ih =>
    obtain ⟨hnot, hnodup⟩ := List.nodup_cons.1 hnodup
    rcases List.mem_cons.1 hmem with rfl | hmem
    · exact (get_mapToStruct_of_notMem hother hnot _).trans (hset y)
    · exact ih hnodup hmem _

/-- **A record comes back** from a list that has its fields in any order, among others or not. -/
theorem mapToStruct_of_mem (hname : Token x.playerName)
    (hnodup : (keyValue.map KeyValue.field).Nodup)
    (hmem : ∀ f ∈ x.fields, (⟨f.1, f.2⟩ : KeyValue) ∈ keyValue) (y : PlayerDataMsg) :
    y.mapToStruct keyValue = x := by
  have hmember : ∀ {α : Type} (get : PlayerDataMsg → α) (f : String × String), f ∈ x.fields →
      (∀ y, get (setField y ⟨f.1, f.2⟩) = get x) →
      (∀ y kv', kv'.field ≠ f.1 → get (setField y kv') = get y) →
      get (y.mapToStruct keyValue) = get x :=
    fun get f hf hset hother ↦ get_mapToStruct_of_mem hset hother hnodup (hmem f hf) y
  have hid := hmember objectId ("m_object_id", toString x.objectId.toInt) (by simp [fields])
    (fun y ↦ extractInt64_toString _ _) fun y kv' hne ↦ by
      simp only [setField, if_neg hne, apply_ite objectId, ite_self]
  have huser := hmember userId ("m_user_id", toString x.userId.toInt) (by simp [fields])
    (fun y ↦ extractInt64_toString _ _) fun y kv' hne ↦ by
      simp only [setField, if_neg hne, apply_ite userId, ite_self]
  have hplayer := hmember playerName ("m_player_name", x.playerName) (by simp [fields])
    (fun y ↦ hname.extractString_eq _) fun y kv' hne ↦ by
      simp only [setField, if_neg hne, apply_ite playerName, ite_self]
  have hlevel := hmember playerLevel ("m_playerLevel", toString x.playerLevel.toInt)
    (by simp [fields]) (fun y ↦ extractInt32_toString _ _) fun y kv' hne ↦ by
      simp only [setField, if_neg hne, apply_ite playerLevel, ite_self]
  have hjob := hmember playerJob ("m_playerJob", toString x.playerJob.toNat) (by simp [fields])
    (fun y ↦ extractUInt32_toString _ _) fun y kv' hne ↦ by
      simp only [setField, if_neg hne, apply_ite playerJob, ite_self]
  have hcountry := hmember playerCountry ("m_playerCountry", toString x.playerCountry.toNat)
    (by simp [fields]) (fun y ↦ extractUInt32_toString _ _) fun y kv' hne ↦ by
      simp only [setField, if_neg hne, apply_ite playerCountry, ite_self]
  have htime := hmember lastLoginTime ("m_lastLoginTime", toString x.lastLoginTime.toNat)
    (by simp [fields]) (fun y ↦ extractUInt32_toString _ _) fun y kv' hne ↦ by
      simp only [setField, if_neg hne, apply_ite lastLoginTime, ite_self]
  generalize y.mapToStruct keyValue = z at *
  cases z
  cases x
  simp only [mk.injEq]
  exact ⟨hid, huser, hplayer, hlevel, hjob, hcountry, htime⟩

/-- The record as it comes out of the stream. -/
def saved (x : PlayerDataMsg) : PlayerDataMsg := { x with playerName := x.nameText }

/-- A role is stored as it is exactly if its name is one word, since the name goes through a stream.
-/
theorem saved_eq_iff : x.saved = x ↔ Token x.playerName := x.set_nameText_eq_iff

/-- The fields that are written are those of the role as it is stored. -/
theorem mem_structToMap_iff : kv ∈ x.structToMap [] ↔ (kv.field, kv.value) ∈ x.saved.fields := by
  rw [structToMap_nil, List.mem_map]
  constructor
  · rintro ⟨f, hf, rfl⟩
    exact hf
  · intro h
    exact ⟨_, h, rfl⟩

theorem nodup_structToMap (x : PlayerDataMsg) :
    ((x.structToMap []).map KeyValue.field).Nodup := by
  rw [structToMap_nil, List.map_map]
  show ["m_object_id", "m_user_id", "m_player_name", "m_playerLevel", "m_playerJob",
    "m_playerCountry", "m_lastLoginTime"].Nodup
  decide

end PlayerDataMsg

/-- The record of a role is not kept where the roles of a user are. -/
theorem playerKey_ne_userKey (id : ObjectId) (user : UserId) : playerKey id ≠ userKey user := by
  intro h
  rw [playerKey, userKey, ← String.toList_inj] at h
  simp only [kPlayerTable, String.toList_append] at h
  have htail : (toString id.toInt).toList =
      "m_user_id:".toList ++ (toString user.toInt).toList := by simpa using h
  have hsigned := signed_toString id.toInt
  rw [htail] at hsigned
  cases congrArg Prod.snd hsigned

/-! ### The book -/

/-- The roles that have been created, as they are stored, and how many have been. -/
structure RoleBook where
  count : Nat
  roles : ObjectId → Option PlayerDataMsg

/-- The role that a user creates. -/
def newRole (id : ObjectId) (user : UserId) (cmd : ReqCreateRole) : PlayerDataMsg where
  objectId := id
  userId := user
  playerName := extractString cmd.playername (toString user.toInt)
  playerJob := cmd.playerjob.toUInt32
  playerCountry := cmd.playercountry.toUInt32

/-- What an event does to the book: a creation adds a role under the next id, and the other events
change nothing. -/
def RoleBook.next (b : RoleBook) : Event → RoleBook
  | .createRole user cmd =>
    let id := Int64.ofNat (b.count + 1)
    { count := b.count + 1, roles := Function.update b.roles id (some (newRole id user cmd)) }
  | .enterGame _ _ | .clientReady _ | .move _ _ | .logout _ => b

namespace LogicServer

variable {σ : Type} (nosql : NoSqlStore σ) (contents : σ → String → RedisEntry)

/-- A store that has a book in it: every role under its own id, which has been counted, listed under
its user and named by a token, and nothing under the other ids. -/
structure Holds (db : σ) (b : RoleBook) : Prop where
  role : ∀ id r, b.roles id = some r →
    r.objectId = id ∧ 0 < id.toInt ∧ id.toInt ≤ b.count ∧ Token r.playerName
  stored : ∀ id r, b.roles id = some r → ∃ fields, contents db (playerKey id) = .hash fields ∧
    ∀ f ∈ r.fields, fields f.1 = some f.2
  absent : ∀ id, b.roles id = none → contents db (playerKey id) = .absent
  listable : ∀ user fields, contents db (userKey user) ≠ .hash fields
  listed : ∀ id r, b.roles id = some r →
    toString id.toInt ∈ (contents db (userKey r.userId)).members

/-- A server that keeps a book: it counts the roles, and those in the cache are in the store. -/
structure Keeps (s : LogicServer σ) (b : RoleBook) : Prop extends Holds contents s.db b where
  count_eq : b.count = s.gCount.toNat
  cached : ∀ id x, s.baseData id = some x → b.roles id = some x.saved

/-- The counter of roles has not come to its end. -/
def Counting (s : LogicServer σ) : Event → Prop
  | .createRole _ _ => s.gCount < maxCount
  | .enterGame _ _ | .clientReady _ | .move _ _ | .logout _ => True

instance decidableCounting (s : LogicServer σ) : ∀ e, Decidable (s.Counting e)
  | .createRole _ _ => inferInstanceAs (Decidable (s.gCount < maxCount))
  | .enterGame _ _ | .clientReady _ | .move _ _ | .logout _ => inferInstanceAs (Decidable True)

variable {nosql contents} {s s' : LogicServer σ} {b : RoleBook} {id : ObjectId} {user : UserId}
  {x r : PlayerDataMsg}

namespace Keeps

/-- The record of a role is found, and read as it is into any other. -/
theorem record (hnosql : nosql.Faithful contents) (h : Keeps contents s b)
    (hrole : b.roles id = some r) : 0 < (nosql.getDataCacheAll s.db (playerKey id)).length ∧
      ∀ y : PlayerDataMsg, y.mapToStruct (nosql.getDataCacheAll s.db (playerKey id)) = r := by
  obtain ⟨hnodup, hmem⟩ := hnosql.getDataCacheAll s.db (playerKey id)
  obtain ⟨fields, hhash, hfields⟩ := h.stored id r hrole
  obtain ⟨-, -, -, hname⟩ := h.role id r hrole
  rw [hhash] at hmem
  have hall : ∀ f ∈ r.fields, (⟨f.1, f.2⟩ : KeyValue) ∈
      nosql.getDataCacheAll s.db (playerKey id) :=
    fun f hf ↦ (hmem ⟨f.1, f.2⟩).2 (hfields f hf)
  exact ⟨List.length_pos_of_mem (hall _ List.mem_cons_self),
    PlayerDataMsg.mapToStruct_of_mem hname hnodup hall⟩

/-- What `LoadPlayerDataFromDb` finds is what the book says. -/
theorem storedPlayer_eq (hnosql : nosql.Faithful contents) (h : Keeps contents s b)
    (id : ObjectId) : s.storedPlayer nosql.toNoSqlDBCache id = b.roles id := by
  rw [storedPlayer]
  cases hrole : b.roles id with
  | none =>
    have hmem := (hnosql.getDataCacheAll s.db (playerKey id)).2
    rw [h.absent id hrole] at hmem
    have hnil : nosql.getDataCacheAll s.db (playerKey id) = [] :=
      List.eq_nil_iff_forall_not_mem.2 fun kv hkv ↦ Option.some_ne_none _ ((hmem kv).1 hkv).symm
    simp [hnil]
  | some r =>
    obtain ⟨hpos, hread⟩ := h.record hnosql hrole
    simp only [gt_iff_lt, hpos, if_true, hread]

/-- A step that changes neither records, store nor counter keeps the book. -/
theorem congr (h : Keeps contents s b) (hsame : SameRecords s s') : Keeps contents s' b where
  toHolds := hsame.db ▸ h.toHolds
  count_eq := hsame.gCount ▸ h.count_eq
  cached := hsame.baseData ▸ h.cached

end Keeps

/-! ### One message -/

/-- What a creation does, when its id is not in the cache. -/
theorem createPlayer_of_notMem {cmd : ReqCreateRole}
    (h : (s.newPlayer user cmd).objectId ∉ s.playerDataCache) :
    let s' := s.createPlayer nosql.toNoSqlDBCache user cmd
    let x := s.newPlayer user cmd
    s'.db = nosql.addSetCache (nosql.setDataCache s.db (playerKey x.objectId) (x.structToMap []))
        (userKey user) [toString x.objectId.toInt] ∧
      s'.gCount = s.getNextObjId.1.gCount ∧
        s'.baseData = Function.update s.baseData x.objectId (some x) := by
  have hadd : s.getNextObjId.1.addPlayerData (s.newPlayer user cmd) =
      ({ s.getNextObjId.1 with
          playerDataCache :=
            s.playerDataCache.insert (s.newPlayer user cmd).objectId (.new (s.newPlayer user cmd))
          userObjectIdHash :=
            s.userObjectIdHash.insertIfNew user (s.newPlayer user cmd).objectId },
        true) := if_neg h
  have hsame := samePlayers_createPlayer nosql.toNoSqlDBCache s user cmd
  refine ⟨?_, ?_, (funext hsame.baseData).trans (addPlayerData_of_notMem h).2.1⟩
  · simp only [newPlayer] at hadd
    simp only [createPlayer, newAndSavePlayerData, hadd]
    rfl
  · simp only [newPlayer] at hadd
    simp only [createPlayer, newAndSavePlayerData, hadd]
    rfl

/-- What a creation leaves under either kind of key. -/
theorem contents_createPlayer (hnosql : nosql.Faithful contents) {cmd : ReqCreateRole}
    (h : (s.newPlayer user cmd).objectId ∉ s.playerDataCache) :
    let db := (s.createPlayer nosql.toNoSqlDBCache user cmd).db
    let x := s.newPlayer user cmd
    (∀ id, contents db (playerKey id) =
      if id = x.objectId then (contents s.db (playerKey id)).setFields (x.structToMap [])
      else contents s.db (playerKey id)) ∧
    ∀ u, contents db (userKey u) =
      if userKey u = userKey user then
        (contents s.db (userKey user)).addMembers [toString x.objectId.toInt]
      else contents s.db (userKey u) := by
  intro db x
  have hcontents : contents db = Function.update (Function.update (contents s.db)
      (playerKey x.objectId) ((contents s.db (playerKey x.objectId)).setFields (x.structToMap [])))
      (userKey user) ((contents s.db (userKey user)).addMembers [toString x.objectId.toInt]) := by
    show contents (s.createPlayer nosql.toNoSqlDBCache user cmd).db = _
    rw [(createPlayer_of_notMem h).1, hnosql.addSetCache, hnosql.setDataCache,
      Function.update_of_ne (playerKey_ne_userKey _ user).symm]
  constructor
  · intro id
    rw [hcontents, Function.update_of_ne (playerKey_ne_userKey id user), Function.update_apply]
    split_ifs with hkey heq heq
    · rw [heq]
    · exact absurd (Process.playerKey_injective hkey) heq
    · exact absurd (congrArg playerKey heq) hkey
    · rfl
  · intro u
    rw [hcontents, Function.update_apply, Function.update_of_ne (playerKey_ne_userKey _ u).symm]

/-- Adding to what is no hash leaves a set with one member more. -/
theorem mem_addMembers {e : RedisEntry} (h : ∀ fields, e ≠ .hash fields) (text member : String) :
    member ∈ (e.addMembers [text]).members ↔ member = text ∨ member ∈ e.members := by
  cases e with
  | absent => simp [RedisEntry.addMembers, RedisEntry.members]
  | hash fields => exact absurd rfl (h fields)
  | set members => simp [RedisEntry.addMembers, RedisEntry.members]

theorem addMembers_ne_hash {e : RedisEntry} (h : ∀ fields, e ≠ .hash fields) (text : String)
    (fields : String → Option String) : e.addMembers [text] ≠ .hash fields := by
  cases e with
  | absent => simp [RedisEntry.addMembers]
  | hash fields => exact absurd rfl (h fields)
  | set members => simp [RedisEntry.addMembers]

/-- A record that is written to what is no set is there afterwards, with all its fields. -/
theorem exists_setFields {e : RedisEntry} (h : ∀ members, e ≠ .set members) (x : PlayerDataMsg) :
    ∃ fields, e.setFields (x.structToMap []) = .hash fields ∧
      ∀ f ∈ x.saved.fields, fields f.1 = some f.2 := by
  have hne : x.structToMap [] ≠ [] := by
    rw [PlayerDataMsg.structToMap_nil]
    exact List.cons_ne_nil _ _
  have hwrite : ∀ old, ∀ f ∈ x.saved.fields,
      writeFields old (x.structToMap []) f.1 = some f.2 := by
    intro old f hf
    have hmem : (⟨f.1, f.2⟩ : KeyValue) ∈ x.structToMap [] :=
      PlayerDataMsg.mem_structToMap_iff.2 hf
    exact writeFields_of_mem x.nodup_structToMap hmem old
  unfold RedisEntry.setFields
  rw [if_neg hne]
  cases e with
  | absent => exact ⟨_, rfl, hwrite _⟩
  | hash fields => exact ⟨_, rfl, hwrite _⟩
  | set members => exact absurd rfl (h members)

namespace Keeps

/-- What is kept under the key of a role is no set. -/
theorem ne_set (h : Keeps contents s b) (id : ObjectId) (members : Set String) :
    contents s.db (playerKey id) ≠ .set members := by
  cases hrole : b.roles id with
  | none =>
    rw [h.absent id hrole]
    exact RedisEntry.noConfusion
  | some r =>
    obtain ⟨fields, hhash, -⟩ := h.stored id r hrole
    rw [hhash]
    exact RedisEntry.noConfusion

/-- A role that is in the cache is in the book. -/
theorem notMem_cache (h : Keeps contents s b) (hrole : b.roles id = none) :
    id ∉ s.playerDataCache := by
  rw [← baseData_eq_none_iff]
  cases hbase : s.baseData id with
  | none => rfl
  | some x =>
    rw [h.cached id x hbase] at hrole
    cases hrole

/-- **`CREATE_ROLE`** stores the new role under an id that nobody has had, and the book has one
entry more. -/
theorem createPlayer (hnosql : nosql.Faithful contents) (h : Keeps contents s b)
    (hcount : s.gCount < maxCount) (user : UserId) (cmd : ReqCreateRole) :
    Keeps contents (s.createPlayer nosql.toNoSqlDBCache user cmd)
      (b.next (.createRole user cmd)) := by
  obtain ⟨hid, hnext, hsucc⟩ := Process.getNextObjId_of_lt hcount
  rw [← h.count_eq] at hid hsucc
  have hlt : b.count < 2 ^ 56 - 1 := h.count_eq ▸ UInt64.lt_iff_toNat_lt.1 hcount
  -- the book counts without a bound, and before the counter's end both give the same id
  have hofNat : Int64.ofNat (b.count + 1) = (s.newPlayer user cmd).objectId := by
    refine Int64.toInt_inj.1 ?_
    rw [Int64.toInt_ofNat_of_lt (by omega)]
    exact hid.symm
  have hbook : b.next (.createRole user cmd) =
      ⟨b.count + 1, Function.update b.roles (s.newPlayer user cmd).objectId
        (some (s.newPlayer user cmd).saved)⟩ := by
    rw [← hofNat]
    show (⟨_, Function.update _ _ (some (newRole _ _ _))⟩ : RoleBook) = _
    rw [hofNat]
    rfl
  -- nobody has had the id, for every role of the book was given a smaller one
  have hnone : b.roles (s.newPlayer user cmd).objectId = none := by
    refine Option.eq_none_iff_forall_ne_some.2 fun r hr ↦ ?_
    obtain ⟨-, -, hle, -⟩ := h.role _ r hr
    exact absurd (hid ▸ hle) (by omega)
  have hmem := h.notMem_cache hnone
  have hgCount : (s.createPlayer nosql.toNoSqlDBCache user cmd).gCount = s.getNextObjId.1.gCount :=
    (createPlayer_of_notMem hmem).2.1
  have hbase : (s.createPlayer nosql.toNoSqlDBCache user cmd).baseData = Function.update s.baseData
      (s.newPlayer user cmd).objectId (some (s.newPlayer user cmd)) :=
    (createPlayer_of_notMem hmem).2.2
  obtain ⟨hplayer, hlist⟩ := contents_createPlayer hnosql hmem
  have hid : (s.newPlayer user cmd).objectId.toInt = b.count + 1 := hid
  have huser : (s.newPlayer user cmd).userId = user := rfl
  rw [hbook]
  -- from here on all that counts of the new role is its id and its user
  generalize s.newPlayer user cmd = x at *
  refine ⟨⟨fun id r hr ↦ ?_, fun id r hr ↦ ?_, fun id hr ↦ ?_, fun u fields ↦ ?_,
    fun id r hr ↦ ?_⟩, ?_, fun id y hy ↦ ?_⟩
  · dsimp only at hr
    rw [Function.update_apply] at hr
    split_ifs at hr with heq
    · obtain rfl := Option.some.inj hr
      subst heq
      exact ⟨rfl, by rw [hid]; omega, hid.le, x.token_nameText⟩
    · obtain ⟨hobj, hpos, hle, hname⟩ := h.role id r hr
      exact ⟨hobj, hpos, Int.le_trans hle (by simp), hname⟩
  · dsimp only at hr
    rw [hplayer]
    rw [Function.update_apply] at hr
    split_ifs at hr ⊢ with heq
    · obtain rfl := Option.some.inj hr
      exact exists_setFields (h.ne_set id) x
    · exact h.stored id r hr
  · dsimp only at hr
    rw [hplayer]
    rw [Function.update_apply] at hr
    split_ifs at hr ⊢ with heq
    exact h.absent id hr
  · rw [hlist]
    split_ifs
    · exact addMembers_ne_hash (h.listable user) _ _
    · exact h.listable u fields
  · dsimp only at hr
    rw [hlist]
    rw [Function.update_apply] at hr
    split_ifs at hr ⊢ with hkey heq heq
    · rw [mem_addMembers (h.listable user), heq]
      exact .inl rfl
    · rw [mem_addMembers (h.listable user), ← hkey]
      exact .inr (h.listed id r hr)
    · obtain rfl := Option.some.inj hr
      exact absurd (congrArg userKey huser) hkey
    · exact h.listed id r hr
  · rw [hgCount, hnext]
    exact hsucc.symm
  · rw [hbase, Function.update_apply] at hy
    show Function.update b.roles _ _ id = _
    rw [Function.update_apply]
    split_ifs at hy ⊢
    · rw [Option.some.inj hy]
    · exact h.cached id y hy

/-- Entering reads from the store, and writes neither there nor to the counter. -/
theorem enterGame_frame (nosql : NoSqlDBCache σ) (s : LogicServer σ) (user : UserId)
    (cmd : ReqEnterGame) :
    (s.enterGame nosql user cmd).db = s.db ∧ (s.enterGame nosql user cmd).gCount = s.gCount := by
  have hload : (s.loadPlayerDataFromDb nosql cmd.playeronlyid).1.db = s.db ∧
      (s.loadPlayerDataFromDb nosql cmd.playeronlyid).1.gCount = s.gCount := by
    rw [loadPlayerDataFromDb]
    split_ifs
    · exact Process.addPlayerData_frame s _
    · exact ⟨rfl, rfl⟩
  simp only [enterGame]
  split_ifs
  · exact ⟨rfl, rfl⟩
  · exact hload
  · exact hload

/-- **`ENTER_GAME`** caches what the store has, which is what the book says. -/
theorem enterGame (hnosql : nosql.Faithful contents) (h : Keeps contents s b) (user : UserId)
    (cmd : ReqEnterGame) : Keeps contents (s.enterGame nosql.toNoSqlDBCache user cmd) b := by
  obtain ⟨hdb, hgCount⟩ := enterGame_frame nosql.toNoSqlDBCache s user cmd
  rcases enterGame_cases nosql.toNoSqlDBCache s user cmd with ⟨x, hx, hmem, -, hsame⟩ | ⟨hsame, -⟩
  · rw [h.storedPlayer_eq hnosql] at hx
    obtain ⟨hid, -, -, hname⟩ := h.role _ x hx
    refine ⟨hdb ▸ h.toHolds, hgCount ▸ h.count_eq, fun id y hy ↦ ?_⟩
    rw [hsame.baseData, (addPlayerData_of_notMem hmem).2.1, Function.update_apply] at hy
    split_ifs at hy with heq
    · obtain rfl := Option.some.inj hy
      rw [heq, hid, PlayerDataMsg.saved_eq_iff.2 hname]
      exact hx
    · exact h.cached id y hy
  · exact h.congr ⟨funext hsame.baseData, hdb, hgCount⟩

/-- **Saving** writes the cached record, which agrees with the book, over the stored one. -/
theorem delPlayerData (hnosql : nosql.Faithful contents) (h : Keeps contents s b)
    (hbase : s.baseData id = some x) :
    Keeps contents (s.delPlayerData nosql.toNoSqlDBCache id).1 b := by
  have hrole := h.cached id x hbase
  have hid : x.objectId = id := (h.role id _ hrole).1
  obtain ⟨hdel, -⟩ := delPlayerData_of_baseData nosql.toNoSqlDBCache hbase
  obtain ⟨p, hp, rfl⟩ := Option.map_eq_some_iff.1 hbase
  have hdb : contents (s.delPlayerData nosql.toNoSqlDBCache id).1.db =
      Function.update (contents s.db) (playerKey id)
        ((contents s.db (playerKey id)).setFields (p.baseData.structToMap [])) := by
    simp only [LogicServer.delPlayerData, hp, savePlayerDataToDb, hid]
    exact hnosql.setDataCache ..
  have hgCount : (s.delPlayerData nosql.toNoSqlDBCache id).1.gCount = s.gCount := by
    simp only [LogicServer.delPlayerData, hp]
    rfl
  refine ⟨⟨h.role, fun id' r hr ↦ ?_, fun id' hr ↦ ?_, fun u fields ↦ ?_, fun id' r hr ↦ ?_⟩,
    hgCount ▸ h.count_eq, fun id' y hy ↦ ?_⟩
  · rw [hdb, Function.update_apply]
    split_ifs with hkey
    · obtain rfl := Process.playerKey_injective hkey
      obtain rfl := Option.some.inj (hrole.symm.trans hr)
      exact exists_setFields (h.ne_set _) p.baseData
    · exact h.stored id' r hr
  · rw [hdb, Function.update_apply]
    split_ifs with hkey
    · obtain rfl := Process.playerKey_injective hkey
      rw [hrole] at hr
      cases hr
    · exact h.absent id' hr
  · rw [hdb, Function.update_of_ne (playerKey_ne_userKey id u).symm]
    exact h.listable u fields
  · rw [hdb, Function.update_of_ne (playerKey_ne_userKey id _).symm]
    exact h.listed id' r hr
  · rw [hdel, Function.update_apply] at hy
    split_ifs at hy
    exact h.cached id' y hy

/-- **A logout** takes a role out of the cache; the store keeps it. -/
theorem loginOut (hnosql : nosql.Faithful contents) (h : Keeps contents s b)
    (hs : s.loginOut nosql.toNoSqlDBCache user = some s') : Keeps contents s' b := by
  cases hbase : s.baseData (s.getObjectId user) with
  | none =>
    rw [loginOut_of_notMem _ (baseData_eq_none_iff.1 hbase)] at hs
    obtain rfl := Option.some.inj hs
    exact h
  | some x =>
    have hmem : s.havePlayerData (s.getObjectId user) = true := by
      refine decide_eq_true (Decidable.byContradiction fun hn ↦ ?_)
      rw [baseData_eq_none_iff.2 hn] at hbase
      cases hbase
    simp only [LogicServer.loginOut, if_pos hmem] at hs
    obtain ⟨s₁, hdel, hs⟩ := Option.bind_eq_some_iff.1 hs
    obtain rfl := Option.some.inj hs
    have hsame := respected_sameRecords.delUserFromMap hdel
    exact (h.congr hsame).delPlayerData hnosql (hsame.baseData ▸ hbase)

/-- **One message keeps the store and the book in step**, whatever the message is. -/
theorem step (hnosql : nosql.Faithful contents) {e : Event} (h : Keeps contents s b)
    (hcount : s.Counting e) (hs : s.step nosql.toNoSqlDBCache e = some s') :
    Keeps contents s' (b.next e) := by
  cases e with
  | createRole user cmd =>
    obtain rfl := Option.some.inj hs
    exact h.createPlayer hnosql hcount user cmd
  | enterGame user cmd =>
    obtain rfl := Option.some.inj hs
    exact h.enterGame hnosql user cmd
  | clientReady user => exact h.congr (respected_sameRecords.addUserToMap hs)
  | move user cmd => exact h.congr (respected_sameRecords.playerMove hs)
  | logout user => exact h.loginOut hnosql hs

end Keeps

/-! ### Runs -/

variable {map : GameMap} {gCount : UInt64} {db : σ} {es : List Event}

/-- A run does to the server what it does to the book. -/
theorem Keeps.run (hnosql : nosql.Faithful contents) (h : Keeps contents s b)
    (hok : Guarded (LogicServer.step nosql.toNoSqlDBCache) Counting s es)
    (hrun : StepRun.run (LogicServer.step nosql.toNoSqlDBCache) s es = some s') :
    Keeps contents s' (es.foldl RoleBook.next b) :=
  run_refines (fun _ _ _ _ h hcount hs ↦ h.step hnosql hcount hs) h hok hrun

end LogicServer

end QCLib
