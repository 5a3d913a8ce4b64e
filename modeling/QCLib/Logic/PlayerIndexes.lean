import QCLib.Foundations.Indexes
import QCLib.Foundations.StepRun
import QCLib.Logic.LoginModule
import QCLib.Logic.Placement

/-!
# The two player indexes

`m_player_data_cache` holds the players by object id, each with the user it belongs to;
`m_user_object_id_hash` holds one object id for each user. They are inverse views of each other as
long as nobody has a second role in the cache: `AddPlayerData` then leaves the index alone, and
`DelPlayerData` takes out whatever entry the user has.

The handlers of the map module write view sets and locations only (`SamePlayers`), so what happens
to the indexes is decided by the three handlers of the login module.

The two maps are turned into tables in the sense of `Foundations.Indexes`, `owners` from roles to
users and `roles` from users to roles, and being inverse is a property of the two. `SoleRole` is the
condition on a step: a player that is put into the cache belongs to a user who has no entry. Both
directions hold along every run.
-/

open Indexes StepRun

namespace QCLib

namespace LogicServer

variable {σ : Type} {nosql : NoSqlDBCache σ} {s s' s₁ s₂ : LogicServer σ} {id me him : ObjectId}
  {user : UserId} {x : PlayerDataMsg}

/-! ### What the map module leaves alone -/

/-- The record of a cached player. -/
def baseData (s : LogicServer σ) (id : ObjectId) : Option PlayerDataMsg :=
  (s.playerDataCache[id]?).map (·.baseData)

/-- The same players with the same records, and the same index. -/
structure SamePlayers (s s' : LogicServer σ) : Prop where
  hash : s'.userObjectIdHash = s.userObjectIdHash
  baseData : ∀ id, s'.baseData id = s.baseData id

@[refl] theorem SamePlayers.refl (s : LogicServer σ) : SamePlayers s s := ⟨rfl, fun _ ↦ rfl⟩

/-- One access after another that leaves the players alone. -/
theorem SamePlayers.trans (h : SamePlayers s s₁) (h' : SamePlayers s₁ s₂) : SamePlayers s s₂ :=
  ⟨h'.hash.trans h.hash, fun id ↦ (h'.baseData id).trans (h.baseData id)⟩

theorem baseData_eq_none_iff : s.baseData id = none ↔ id ∉ s.playerDataCache := by
  rw [baseData, Option.map_eq_none_iff, ← Std.ExtTreeMap.isSome_getElem?_iff_mem,
    Option.not_isSome_iff_eq_none]

theorem samePlayers_sendMsgToPlayer (s : LogicServer σ) (user : UserId) (cmd : WholeCmd)
    (body : Body) : SamePlayers s (s.sendMsgToPlayer user cmd body) := ⟨rfl, fun _ ↦ rfl⟩

theorem samePlayers_setTowerAoi (s : LogicServer σ) (toweraoi : TowerAoi) :
    SamePlayers s (s.setTowerAoi toweraoi) := ⟨rfl, fun _ ↦ rfl⟩

/-- A write to one cached player that keeps its record. -/
private theorem map_baseData_modify (f : PlayerData → PlayerData)
    (hf : ∀ p, (f p).baseData = p.baseData) (j : ObjectId) :
    ((s.playerDataCache.modify id f)[j]?).map (·.baseData) = s.baseData j := by
  rw [Std.ExtTreeMap.getElem?_modify]
  simp only [Std.compare_eq_iff_eq]
  split_ifs with h
  · subst h
    rw [Option.map_map, baseData]
    exact congrArg (fun g ↦ Option.map g _) (funext hf)
  · rfl

theorem samePlayers_modifyViewSet (s : LogicServer σ) (id : ObjectId) (f : ObjectSet → ObjectSet) :
    SamePlayers s (s.modifyViewSet id f) := by
  rw [modifyViewSet]
  split_ifs
  · exact ⟨rfl, map_baseData_modify _ fun _ ↦ rfl⟩
  · exact ⟨rfl, fun _ ↦ rfl⟩

/-- The place of a player on the map is no part of its record either. -/
theorem samePlayers_setPlayerMapData (s : LogicServer σ) (id : ObjectId) (mapData : PlayerMapData) :
    SamePlayers s (s.setPlayerMapData id mapData) :=
  ⟨rfl, map_baseData_modify _ fun _ ↦ rfl⟩

theorem samePlayers_delViewPlayer (s : LogicServer σ) (user : UserId) (me him : ObjectId) :
    SamePlayers s (s.delViewPlayer user me him) := by
  have hmine := (samePlayers_modifyViewSet s me (·.erase him)).trans
    (samePlayers_sendMsgToPlayer _ user .delobj (.mapDelObject ⟨him⟩))
  simp only [delViewPlayer]
  split_ifs
  · exact hmine.trans ((samePlayers_modifyViewSet ..).trans (samePlayers_sendMsgToPlayer ..))
  · exact hmine
  · exact .refl s

/-- All the disappearances of a step leave the players alone. -/
theorem samePlayers_sendDelViewPlayers (user : UserId) (me : ObjectId) (del : List ObjectId) :
    SamePlayers s (s.sendDelViewPlayers user me del) := by
  induction del generalizing s with
  | nil => exact .refl s
  | cons him rest ih =>
    rw [sendDelViewPlayers]
    split_ifs
    · exact (samePlayers_delViewPlayer s user me him).trans ih
    · exact .refl s

theorem samePlayers_addViewPlayer (s : LogicServer σ) (user : UserId) (me : ObjectId)
    (mapData : PlayerMapData) (him : ObjectId) :
    SamePlayers s (s.addViewPlayer user me mapData him) := by
  simp only [addViewPlayer]
  cases s.getPlayerMapData him with
  | none =>
    dsimp only
    rw [ite_self]
  | some objMapData =>
    dsimp only
    split_ifs
    · exact ((samePlayers_modifyViewSet s me (·.insert him)).trans
        (samePlayers_sendMsgToPlayer ..)).trans
          ((samePlayers_modifyViewSet ..).trans (samePlayers_sendMsgToPlayer ..))
    · exact .refl s
    · exact .refl s

/-- All the appearances of a step leave the players alone. -/
theorem samePlayers_sendAddViewPlayers (user : UserId) (me : ObjectId) (mapData : PlayerMapData)
    (add : List ObjectId) : SamePlayers s (s.sendAddViewPlayers user me mapData add) := by
  induction add generalizing s with
  | nil => exact .refl s
  | cons him rest ih => exact (samePlayers_addViewPlayer s user me mapData him).trans ih

/-- A message to many is many messages, and leaves the players alone. -/
theorem samePlayers_broadcastMsg (users : List UserId) (cmd : WholeCmd) (body : Body) :
    SamePlayers s (s.broadcastMsg users cmd body) := by
  induction users generalizing s with
  | nil => exact .refl s
  | cons u users ih => exact (samePlayers_sendMsgToPlayer s u cmd body).trans ih

/-- What a move tells the users around it changes no player. -/
theorem samePlayers_moveViews (s : LogicServer σ) (user : UserId) (me : ObjectId)
    (mapData : PlayerMapData) (cmd : ReqMove) (out : MoveSets) :
    SamePlayers s (s.moveViews user me mapData cmd out) := by
  rw [moveViews]
  split_ifs
  · exact ((samePlayers_sendDelViewPlayers user me _).trans
      ((samePlayers_broadcastMsg ..).trans (samePlayers_sendMsgToPlayer ..))).trans
        ((samePlayers_sendAddViewPlayers ..).trans (samePlayers_setPlayerMapData ..))
  · exact samePlayers_setPlayerMapData ..

/-- **A move** changes where a player is and what is in view, and nothing that is kept of it. -/
theorem samePlayers_playerMove {cmd : ReqMove} (h : s.playerMove user me cmd = some s') :
    SamePlayers s s' := by
  rw [playerMove] at h
  obtain ⟨walk, -, h⟩ := Option.bind_eq_some_iff.1 h
  cases walk with
  | true =>
    obtain ⟨aoi, -, h⟩ := Option.bind_eq_some_iff.1 h
    obtain ⟨r, -, h⟩ := Option.bind_eq_some_iff.1 h
    obtain rfl := Option.some.inj h
    exact (samePlayers_setTowerAoi s r.1).trans (samePlayers_moveViews ..)
  | false =>
    obtain rfl := Option.some.inj h
    exact samePlayers_sendMsgToPlayer ..

/-- Entering the map changes nothing that is kept of a player. -/
theorem samePlayers_addUserToMap {mapId : MapId} (h : s.addUserToMap mapId user me = some s') :
    SamePlayers s s' := by
  rw [addUserToMap] at h
  cases hdata : s.getPlayerMapData me with
  | none =>
    rw [hdata] at h
    obtain rfl := Option.some.inj h
    exact .refl s
  | some mapData =>
    rw [hdata] at h
    obtain ⟨aoi, -, h⟩ := Option.bind_eq_some_iff.1 h
    obtain ⟨r, -, h⟩ := Option.bind_eq_some_iff.1 h
    obtain rfl := Option.some.inj h
    exact (samePlayers_setTowerAoi s r.1).trans (samePlayers_sendAddViewPlayers ..)

/-- Leaving the map changes nothing that is kept of a player. -/
theorem samePlayers_delUserFromMap (h : s.delUserFromMap user me = some s') : SamePlayers s s' := by
  rw [delUserFromMap] at h
  cases hdata : s.getPlayerMapData me with
  | none =>
    rw [hdata] at h
    obtain rfl := Option.some.inj h
    exact .refl s
  | some mapData =>
    rw [hdata] at h
    obtain ⟨aoi, -, h⟩ := Option.bind_eq_some_iff.1 h
    obtain ⟨r, -, h⟩ := Option.bind_eq_some_iff.1 h
    obtain rfl := Option.some.inj h
    exact (samePlayers_setTowerAoi s r.1).trans (samePlayers_sendDelViewPlayers ..)

/-! ### What the login module does -/

/-- The player that `LoadPlayerDataFromDb` reads, if there is anything under its key. -/
def storedPlayer (nosql : NoSqlDBCache σ) (s : LogicServer σ) (id : ObjectId) :
    Option PlayerDataMsg :=
  let keyValue := nosql.getDataCacheAll s.db (playerKey id)
  if keyValue.length > 0 then some (PlayerDataMsg.mapToStruct {} keyValue) else none

/-- A record that is found in the store goes into the cache. -/
theorem loadPlayerDataFromDb_of_some (h : s.storedPlayer nosql id = some x) :
    s.loadPlayerDataFromDb nosql id = s.addPlayerData x := by
  rw [storedPlayer] at h
  rw [loadPlayerDataFromDb]
  split_ifs at h with hlen
  rw [if_pos hlen, Option.some.inj h]

theorem loadPlayerDataFromDb_of_none (h : s.storedPlayer nosql id = none) :
    s.loadPlayerDataFromDb nosql id = (s, false) := by
  rw [storedPlayer] at h
  rw [loadPlayerDataFromDb]
  split_ifs at h with hlen
  exact if_neg hlen

theorem addPlayerData_of_mem (h : x.objectId ∈ s.playerDataCache) :
    s.addPlayerData x = (s, false) := if_pos h

/-- What a new player does to the records and to the index. -/
theorem addPlayerData_of_notMem (h : x.objectId ∉ s.playerDataCache) :
    (s.addPlayerData x).2 = true ∧
      (s.addPlayerData x).1.baseData = Function.update s.baseData x.objectId (some x) ∧
        (s.addPlayerData x).1.userObjectIdHash =
          s.userObjectIdHash.insertIfNew x.userId x.objectId := by
  rw [addPlayerData, if_neg h]
  refine ⟨rfl, funext fun id ↦ ?_, rfl⟩
  simp only [baseData, Std.ExtTreeMap.getElem?_insert, Std.compare_eq_iff_eq]
  rcases eq_or_ne id x.objectId with rfl | hne
  · rw [if_pos rfl, Function.update_self]
    rfl
  · rw [if_neg hne.symm, Function.update_of_ne hne]
    rfl

/-- The record that `CreatePlayer` asks to be stored. -/
def newPlayer (s : LogicServer σ) (userId : UserId) (createRole : ReqCreateRole) : PlayerDataMsg :=
  { objectId := s.getNextObjId.2, userId, playerName := createRole.playername,
    playerJob := createRole.playerjob.toUInt32, playerCountry := createRole.playercountry.toUInt32 }

/-- Creating a role is adding its player, as far as players are concerned. -/
theorem samePlayers_createPlayer (nosql : NoSqlDBCache σ) (s : LogicServer σ) (user : UserId)
    (role : ReqCreateRole) :
    SamePlayers (s.addPlayerData (s.newPlayer user role)).1 (s.createPlayer nosql user role) := by
  have hcount : SamePlayers (s.addPlayerData (s.newPlayer user role)).1
      (s.getNextObjId.1.addPlayerData (s.newPlayer user role)).1 := by
    rcases Decidable.em ((s.newPlayer user role).objectId ∈ s.playerDataCache) with h | h
    · rw [addPlayerData_of_mem h, addPlayerData_of_mem (s := s.getNextObjId.1) h]
      exact ⟨rfl, fun _ ↦ rfl⟩
    · have h' : (s.newPlayer user role).objectId ∉ s.getNextObjId.1.playerDataCache := h
      rw [addPlayerData, if_neg h, addPlayerData, if_neg h']
      exact ⟨rfl, fun _ ↦ rfl⟩
  refine hcount.trans ?_
  simp only [createPlayer, newAndSavePlayerData, newPlayer]
  split_ifs
  · exact ⟨rfl, fun _ ↦ rfl⟩
  · exact ⟨rfl, fun _ ↦ rfl⟩

/-- `EnterGame` adds the stored player unless the role that was named is in the cache. -/
theorem samePlayers_enterGame (nosql : NoSqlDBCache σ) (s : LogicServer σ) (user : UserId)
    (enter : ReqEnterGame) :
    SamePlayers
      (if enter.playeronlyid > 0 ∧ s.havePlayerData enter.playeronlyid then s
        else (s.loadPlayerDataFromDb nosql enter.playeronlyid).1)
      (s.enterGame nosql user enter) := by
  simp only [enterGame]
  split_ifs
  · exact ⟨rfl, fun _ ↦ rfl⟩
  · exact ⟨rfl, fun _ ↦ rfl⟩
  · exact ⟨rfl, fun _ ↦ rfl⟩

/-- What `DelPlayerData` does to the records and to the index. -/
theorem delPlayerData_of_baseData (nosql : NoSqlDBCache σ) (h : s.baseData id = some x) :
    (s.delPlayerData nosql id).1.baseData = Function.update s.baseData id none ∧
      (s.delPlayerData nosql id).1.userObjectIdHash = s.userObjectIdHash.erase x.userId := by
  obtain ⟨p, hp, rfl⟩ := Option.map_eq_some_iff.1 h
  simp only [delPlayerData, hp, savePlayerDataToDb]
  refine ⟨funext fun j ↦ ?_, rfl⟩
  simp only [baseData, Std.ExtTreeMap.getElem?_erase, Std.compare_eq_iff_eq]
  rcases eq_or_ne j id with rfl | hne
  · rw [if_pos rfl, Function.update_self]
    rfl
  · rw [if_neg hne.symm, Function.update_of_ne hne]
    rfl

/-- `LoginOut` takes out the player that the index leads to. -/
theorem samePlayers_loginOut (h : s.loginOut nosql user = some s') :
    match s.baseData (s.getObjectId user) with
    | some x => s'.baseData = Function.update s.baseData (s.getObjectId user) none ∧
      s'.userObjectIdHash = s.userObjectIdHash.erase x.userId
    | none => SamePlayers s s' := by
  cases hbase : s.baseData (s.getObjectId user) with
  | none =>
    rw [loginOut_of_notMem nosql (baseData_eq_none_iff.1 hbase)] at h
    obtain rfl := Option.some.inj h
    exact .refl s
  | some x =>
    have hmem : s.havePlayerData (s.getObjectId user) = true := by
      refine decide_eq_true (Decidable.byContradiction fun hn ↦ ?_)
      rw [baseData_eq_none_iff.2 hn] at hbase
      exact Option.some_ne_none x hbase.symm
    simp only [loginOut, if_pos hmem] at h
    obtain ⟨s₁, hdel, h⟩ := Option.bind_eq_some_iff.1 h
    obtain rfl := Option.some.inj h
    have hsame := samePlayers_delUserFromMap hdel
    have hspec := delPlayerData_of_baseData nosql ((hsame.baseData _).trans hbase)
    exact ⟨by rw [hspec.1, funext hsame.baseData], by rw [hspec.2, hsame.hash]⟩

/-! ### Inverse views -/

/-- The user that a cached player belongs to. -/
def owners (s : LogicServer σ) (id : ObjectId) : Option UserId := (s.baseData id).map (·.userId)

/-- The role that the index has for a user. -/
def roles (s : LogicServer σ) (user : UserId) : Option ObjectId := s.userObjectIdHash[user]?

/-- **The indexes agree.** A user has an entry for a player exactly when the player is in the cache
and belongs to it. -/
def IndexesAgree (s : LogicServer σ) : Prop := Inverse s.owners s.roles

theorem SamePlayers.owners (h : SamePlayers s s') : s'.owners = s.owners :=
  funext fun id ↦ congrArg (Option.map _) (h.baseData id)

theorem SamePlayers.roles (h : SamePlayers s s') : s'.roles = s.roles :=
  funext fun user ↦ congrArg (fun m : Std.ExtTreeMap UserId ObjectId ↦ m[user]?) h.hash

/-- Whether index and records agree depends on nothing else. -/
theorem SamePlayers.indexesAgree_iff (h : SamePlayers s s') : s'.IndexesAgree ↔ s.IndexesAgree := by
  rw [IndexesAgree, IndexesAgree, h.owners, h.roles]

theorem owners_of_update {o : Option PlayerDataMsg}
    (h : s'.baseData = Function.update s.baseData id o) :
    s'.owners = Function.update s.owners id (o.map (·.userId)) := by
  funext j
  rw [owners, h]
  rcases eq_or_ne j id with rfl | hne
  · rw [Function.update_self, Function.update_self]
  · rw [Function.update_of_ne hne, Function.update_of_ne hne]
    rfl

/-- An entry that is erased leaves its user without a role. -/
theorem roles_of_erase (h : s'.userObjectIdHash = s.userObjectIdHash.erase user) :
    s'.roles = Function.update s.roles user none := by
  funext u
  simp only [roles, h, Std.ExtTreeMap.getElem?_erase, Std.compare_eq_iff_eq]
  rcases eq_or_ne u user with rfl | hne
  · rw [if_pos rfl, Function.update_self]
  · rw [if_neg hne.symm, Function.update_of_ne hne]
    rfl

/-- The index takes an entry for a user who has none, and refuses it otherwise: this is where a
second role of a user is lost. -/
theorem roles_of_insertIfNew (h : s'.userObjectIdHash = s.userObjectIdHash.insertIfNew user id) :
    s'.roles = if s.roles user = none then Function.update s.roles user (some id)
      else s.roles := by
  have hget (u : UserId) :
      s'.roles u = if user = u ∧ s.roles user = none then some id else s.roles u := by
    have hmem : user ∉ s.userObjectIdHash ↔ s.roles user = none := by
      rw [roles, ← Std.ExtTreeMap.isSome_getElem?_iff_mem, Option.not_isSome_iff_eq_none]
    show s'.userObjectIdHash[u]? = _
    simp only [h, Std.ExtTreeMap.getElem?_insertIfNew, Std.compare_eq_iff_eq, hmem]
    rfl
  funext u
  rw [hget]
  cases hrole : s.roles user with
  | none =>
    rw [if_pos rfl]
    rcases eq_or_ne u user with rfl | hne
    · rw [if_pos ⟨rfl, rfl⟩, Function.update_self]
    · rw [if_neg fun h ↦ hne h.1.symm, Function.update_of_ne hne]
  | some r => rw [if_neg (Option.some_ne_none r), if_neg fun h ↦ Option.some_ne_none r h.2]

/-- `AddPlayerData` keeps the indexes in agreement exactly when it adds nobody, or the first role of
its user. -/
theorem indexesAgree_addPlayerData_iff (h : s.IndexesAgree) :
    (s.addPlayerData x).1.IndexesAgree ↔
      (x.objectId ∉ s.playerDataCache → x.userId ∉ s.userObjectIdHash) := by
  have hmem : x.userId ∉ s.userObjectIdHash ↔ s.roles x.userId = none := by
    rw [roles, ← Std.ExtTreeMap.isSome_getElem?_iff_mem, Option.not_isSome_iff_eq_none]
  rcases Decidable.em (x.objectId ∈ s.playerDataCache) with hx | hx
  · rw [addPlayerData_of_mem hx]
    exact iff_of_true h fun hnot ↦ absurd hx hnot
  · obtain ⟨-, hbase, hhash⟩ := addPlayerData_of_notMem hx
    have hnone : s.owners x.objectId = none := by
      rw [owners, baseData_eq_none_iff.2 hx]
      rfl
    rw [IndexesAgree, owners_of_update hbase, roles_of_insertIfNew hhash, hmem,
      forall_prop_of_true hx]
    exact Inverse.linkNew_iff h hnone

/-- `LoginOut` takes the role out of the cache and out of the index. -/
theorem IndexesAgree.loginOut (h : s.IndexesAgree) (hs : s.loginOut nosql user = some s') :
    s'.IndexesAgree := by
  have hspec := samePlayers_loginOut hs
  cases hbase : s.baseData (s.getObjectId user) with
  | none =>
    rw [hbase] at hspec
    exact hspec.indexesAgree_iff.2 h
  | some x =>
    rw [hbase] at hspec
    have howner : s.owners (s.getObjectId user) = some x.userId := by rw [owners, hbase]; rfl
    rw [IndexesAgree, owners_of_update hspec.1, roles_of_erase hspec.2]
    refine Inverse.unlink h (fun u hu ↦ ?_) fun o ho ↦ ?_
    · exact Option.some.inj (hu.symm.trans howner)
    · exact Option.some.inj (ho.symm.trans ((h _ _).1 howner))

/-! ### Runs -/

/-- A handler puts no second role of a user into the cache. -/
def SoleRole (nosql : NoSqlDBCache σ) (s : LogicServer σ) : Event → Prop
  | .createRole user _ => s.getNextObjId.2 ∉ s.playerDataCache → user ∉ s.userObjectIdHash
  | .enterGame _ cmd =>
    ¬ (cmd.playeronlyid > 0 ∧ s.havePlayerData cmd.playeronlyid) →
      ∀ x ∈ s.storedPlayer nosql cmd.playeronlyid,
        x.objectId ∉ s.playerDataCache → x.userId ∉ s.userObjectIdHash
  | .clientReady _ | .move _ _ | .logout _ => True

/-- One message keeps the indexes in agreement exactly when it brings in no second role. -/
theorem IndexesAgree.step_iff {e : Event} (h : s.IndexesAgree) (hs : s.step nosql e = some s') :
    s'.IndexesAgree ↔ s.SoleRole nosql e := by
  cases e with
  | createRole user cmd =>
    obtain rfl := Option.some.inj hs
    rw [(samePlayers_createPlayer nosql s user cmd).indexesAgree_iff,
      indexesAgree_addPlayerData_iff h]
    exact Iff.rfl
  | enterGame user cmd =>
    obtain rfl := Option.some.inj hs
    rw [(samePlayers_enterGame nosql s user cmd).indexesAgree_iff, SoleRole]
    split_ifs with hcached
    · exact iff_of_true h fun hnot ↦ absurd hcached hnot
    · rw [forall_prop_of_true hcached]
      cases hstored : s.storedPlayer nosql cmd.playeronlyid with
      | none =>
        rw [loadPlayerDataFromDb_of_none hstored]
        exact iff_of_true h (by simp)
      | some x =>
        rw [loadPlayerDataFromDb_of_some hstored]
        simp only [Option.mem_def, Option.some.injEq, forall_eq']
        exact indexesAgree_addPlayerData_iff h
  | clientReady user =>
    exact iff_of_true ((samePlayers_addUserToMap hs).indexesAgree_iff.2 h) trivial
  | move user cmd => exact iff_of_true ((samePlayers_playerMove hs).indexesAgree_iff.2 h) trivial
  | logout user => exact iff_of_true (h.loginOut hs) trivial

theorem start_indexesAgree (map : GameMap) (gCount : UInt64) (db : σ) :
    (start map gCount db).IndexesAgree := by
  intro id user
  simp [start, owners, baseData, roles]

/-- **The two player indexes.** Along any run, with anything in the store: the indexes agree in
every state if and only if no handler puts a second role of a user into the cache. -/
theorem indexesAgree_iff_soleRole (nosql : NoSqlDBCache σ) (map : GameMap) (gCount : UInt64)
    (db : σ) (l : List Event) :
    Throughout (step nosql) IndexesAgree (start map gCount db) l ↔
      Guarded (step nosql) (SoleRole nosql) (start map gCount db) l := by
  have hstart := start_indexesAgree map gCount db
  have hside : Guarded (step nosql) (fun _ _ ↦ True) (start map gCount db) l :=
    guarded_of_forall fun _ _ ↦ trivial
  rw [Throughout, and_iff_right hstart]
  refine (guarded_iff (fun s e h _ ↦ ?_) (fun s e s' h _ hok hs ↦ ?_) hstart hside).symm
  · cases hs : s.step nosql e with
    | none =>
      refine iff_of_true ?_ (by rw [Into, hs]; trivial)
      cases e with
      | createRole user cmd => exact absurd hs (Option.some_ne_none _)
      | enterGame user cmd => exact absurd hs (Option.some_ne_none _)
      | clientReady user => trivial
      | move user cmd => trivial
      | logout user => trivial
    | some s' => rw [into_of_eq hs, h.step_iff hs]
  · exact (h.step_iff hs).2 hok

/-- A user creates two roles. Both are in the cache, and its entry is for the first. -/
theorem indexes_disagree_after_second_role :
    ∃ s, run (step .inMemory) sampleServer [.createRole 7 {}, .createRole 7 {}] = some s ∧
      ¬ s.IndexesAgree := by
  refine ⟨_, rfl, fun h ↦ ?_⟩
  exact absurd ((h 2 7).1 (by decide +kernel)) (by decide +kernel)

end LogicServer

end QCLib
