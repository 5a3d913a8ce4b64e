import QCLib.Aoi.Construction
import QCLib.Aoi.Operations
import QCLib.Logic.LoginModule
import QCLib.Logic.Views

/-!
# Where players are

Two invariants of the logic server, one on top of the other.

* `Located`: the map has its grid, and every cached player is on map `1` at a cell inside it. It
  makes every handler defined, on any map.
* `Placed`: moreover the towers show a board on which a cached player is either not registered or
  registered, as a watcher, at the tower of its stored location, and nobody else is. Nothing asks
  whether a player is ready: a move may register it too.

The handlers come apart into a tower call, one of the view routines, and a write to the cache; the
lemmas here state each handler as that composition, and what the cache writes do.

The two views of a player's place, its record and the towers, are connected by the board: `Placed`
says that the board has, for every cached player, either nothing or a watcher at the tower of the
location that the cache has. A role that is not cached is on no tower. So the towers can be updated
from the cached location, which is what the handlers do.
-/

open CSemantics Interest

namespace QCLib

/-- The map is map `1`, with the sizes of `g`, and has a grid. -/
structure GameMap.Ready (g : TowerInfo) (m : GameMap) : Prop where
  mapId : m.mapId = 1
  mapWidth : m.mapWidth = g.weight
  mapHeight : m.mapHeight = g.hight
  grid : ∃ cells, m.mapGridInfo = some cells ∧ (cells.length : Int) = g.weight * g.hight

/-- The bounds that `InitMapGrids` insists on. -/
def TowerInfo.HasGrid (g : TowerInfo) : Prop := 1 < g.weight ∧ 1 < g.hight

variable {g : TowerInfo} {m : GameMap} {p : Point}

theorem GameMap.Ready.find? (hm : m.Ready g) : m.find? 1 = some m := by
  rw [GameMap.find?, if_pos hm.mapId.symm]

/-- `IsGridCanWalk` reads the cell of a point inside the map. -/
theorem GameMap.Ready.exists_isGridCanWalk (hm : m.Ready g) (hp : g.InMap p) :
    ∃ walk, m.isGridCanWalk 1 p = some walk := by
  obtain ⟨cells, hcells, hlen⟩ := hm.grid
  obtain ⟨⟨hx₀, hx₁⟩, hy₀, hy₁⟩ := hp
  have hrow : (p.y.toInt + 1) * g.weight ≤ g.hight * g.weight :=
    Int.mul_le_mul_of_nonneg_right (by omega) (by omega)
  have hcomm : g.weight * g.hight = g.hight * g.weight := Int.mul_comm ..
  have hsucc : (p.y.toInt + 1) * g.weight = p.y.toInt * g.weight + g.weight := by
    rw [Int.add_mul, Int.one_mul]
  have hnonneg : 0 ≤ p.y.toInt * g.weight := Int.mul_nonneg hy₀ (by omega)
  obtain ⟨cell, hcell⟩ := exists_vecAt (v := cells) (i := p.y.toInt * g.weight + p.x.toInt)
    (by omega) (by omega)
  refine ⟨cell.bitCanWalk = 0, ?_⟩
  simp only [isGridCanWalk, hm.find?, getGridInfo, hm.mapWidth, hm.mapHeight,
    if_pos (And.intro hx₁ hy₁), hcells, hcell, Option.bind_eq_bind, Option.bind_some,
    Option.pure_def]

/-- A walkable cell of the map is walkable by its flags. -/
theorem GameMap.Ready.walkable (hm : m.Ready g) (hp : g.InMap p)
    (hwalk : m.isGridCanWalk 1 p = some true) : ∃ cells cell, m.mapGridInfo = some cells ∧
      vecAt cells (p.y.toInt * m.mapWidth + p.x.toInt) = some cell ∧ cell.bitCanWalk = 0 := by
  have hbounds : p.x.toInt < m.mapWidth ∧ p.y.toInt < m.mapHeight := by
    rw [hm.mapWidth, hm.mapHeight]
    exact ⟨hp.1.2, hp.2.2⟩
  simp only [GameMap.isGridCanWalk, hm.find?, GameMap.getGridInfo, if_pos hbounds,
    Option.bind_eq_bind, Option.bind_eq_some_iff, Option.pure_def, Option.some.injEq] at hwalk
  obtain ⟨_, ⟨cells, hcells, cell, hcell, rfl⟩, hflag⟩ := hwalk
  exact ⟨cells, cell, hcells, hcell, of_decide_eq_true hflag⟩

/-- The cell where a new player stands is inside the map. -/
theorem TowerInfo.HasGrid.inMap (hg : g.HasGrid) : g.InMap ⟨1, 1⟩ := by
  have hone : (1 : Coordinate).toInt = 1 := by decide
  obtain ⟨hw, hh⟩ := hg
  refine ⟨⟨?_, ?_⟩, ?_, ?_⟩ <;> simp only [hone] <;> omega

namespace LogicServer

variable {σ : Type} {nosql : NoSqlDBCache σ} {s s' s₁ : LogicServer σ} {id me : ObjectId}
  {user : UserId} {d : PlayerMapData} {cmd : ReqMove} {B : Board ObjectId (Int × Int)}
  {toweraoi : TowerAoi} {out : MoveSets}

/-! ### Writes to the cache -/

/-- Moving a player does not change who is in view; the handlers do that by messages of their own.
-/
theorem viewSet_setPlayerMapData :
    (s.setPlayerMapData me d).viewSet id = s.viewSet id := by
  simp only [viewSet, getViewListPlayerSet, setPlayerMapData, Std.ExtTreeMap.getElem?_modify,
    Std.compare_eq_iff_eq]
  split_ifs with h
  · subst h
    cases s.playerDataCache[me]? <;> rfl
  · rfl

theorem getPlayerMapData_setPlayerMapData :
    (s.setPlayerMapData me d).getPlayerMapData id =
      if id = me then (s.getPlayerMapData me).map fun _ ↦ d else s.getPlayerMapData id := by
  simp only [getPlayerMapData, setPlayerMapData, Std.ExtTreeMap.getElem?_modify,
    Std.compare_eq_iff_eq]
  split_ifs with h₁ h₂ h₂
  · rw [Option.map_map, Option.map_map]
    rfl
  · exact absurd h₁.symm h₂
  · exact absurd h₂.symm h₁
  · rfl

/-- At most one player has joined: it stands at `(1, 1)` of map `1`, it sees nobody, and nobody sees
it who did not before. -/
structure Joined (s s' : LogicServer σ) : Prop where
  map : s'.map = s.map
  defult : s'.defultObjectSet = ∅
  viewSet : ∀ id, s'.viewSet id = s.viewSet id
  mapData : ∀ id, s'.getPlayerMapData id = s.getPlayerMapData id ∨
    s.getPlayerMapData id = none ∧
      ∃ d, s'.getPlayerMapData id = some d ∧ d.mapId = 1 ∧ d.location = ⟨1, 1⟩

theorem joined_refl (hdef : s.defultObjectSet = ∅) : Joined s s :=
  ⟨rfl, hdef, fun _ ↦ rfl, fun _ ↦ Or.inl rfl⟩

/-- **`AddPlayerData`** lets one role join, at the default place. -/
theorem addPlayerData_joined (hdef : s.defultObjectSet = ∅) (playdata : PlayerDataMsg) :
    Joined s (s.addPlayerData playdata).1 := by
  by_cases hmem : playdata.objectId ∈ s.playerDataCache
  · rw [addPlayerData, if_pos hmem]
    exact joined_refl hdef
  · have hnone : s.playerDataCache[playdata.objectId]? = none :=
      Std.ExtTreeMap.getElem?_eq_none hmem
    rw [addPlayerData, if_neg hmem]
    refine ⟨rfl, hdef, fun id ↦ ?_, fun id ↦ ?_⟩
    · simp only [LogicServer.viewSet, getViewListPlayerSet, Std.ExtTreeMap.getElem?_insert,
        Std.compare_eq_iff_eq]
      split_ifs with h
      · subst h
        rw [hnone, hdef]
        rfl
      · rfl
    · simp only [getPlayerMapData, Std.ExtTreeMap.getElem?_insert, Std.compare_eq_iff_eq]
      split_ifs with h
      · subst h
        rw [hnone]
        exact Or.inr ⟨rfl, _, rfl, rfl, rfl⟩
      · exact Or.inl rfl

/-- Joining concerns the cache, the default set and the map only. -/
theorem Joined.congr (h : Joined s s₁) (hcache : s'.playerDataCache = s₁.playerDataCache)
    (hmap : s'.map = s₁.map) (hdef : s'.defultObjectSet = s₁.defultObjectSet) : Joined s s' := by
  refine ⟨hmap.trans h.map, hdef.trans h.defult, fun id ↦ ?_, fun id ↦ ?_⟩
  · rw [← h.viewSet id]
    simp only [LogicServer.viewSet, getViewListPlayerSet, hcache, hdef]
  · have hget : s'.getPlayerMapData id = s₁.getPlayerMapData id := by
      simp only [getPlayerMapData, hcache]
    rw [hget]
    exact h.mapData id

theorem joined_sendMsgToPlayer (hdef : s.defultObjectSet = ∅) (user : UserId) (cmd : WholeCmd)
    (body : Body) : Joined s (s.sendMsgToPlayer user cmd body) :=
  (joined_refl hdef).congr rfl rfl rfl

/-- **`CREATE_ROLE`** lets the new role join, at the default place. -/
theorem createPlayer_joined (hdef : s.defultObjectSet = ∅) (user : UserId) (role : ReqCreateRole) :
    Joined s (s.createPlayer nosql user role) := by
  have hnew : ∀ x : PlayerDataMsg, Joined s (s.newAndSavePlayerData nosql x).1 := by
    intro x
    have hadd := addPlayerData_joined (s := s.getNextObjId.1) hdef
      { x with objectId := s.getNextObjId.2 }
    have hjoin : Joined s (s.getNextObjId.1.addPlayerData
        { x with objectId := s.getNextObjId.2 }).1 :=
      ⟨hadd.map, hadd.defult, hadd.viewSet, hadd.mapData⟩
    simp only [newAndSavePlayerData]
    split_ifs
    · exact hjoin.congr rfl rfl rfl
    · exact hjoin
  exact (hnew _).congr rfl rfl rfl

/-- **`ENTER_GAME`** lets a role join that was not in the cache, and nobody otherwise. -/
theorem enterGame_joined (hdef : s.defultObjectSet = ∅) (user : UserId) (enter : ReqEnterGame) :
    Joined s (s.enterGame nosql user enter) := by
  have hload : Joined s (s.loadPlayerDataFromDb nosql enter.playeronlyid).1 := by
    rw [loadPlayerDataFromDb]
    split_ifs
    · exact addPlayerData_joined hdef _
    · exact joined_refl hdef
  simp only [enterGame]
  split_ifs
  · exact (joined_refl hdef).congr rfl rfl rfl
  · exact hload.congr rfl rfl rfl
  · exact hload.congr rfl rfl rfl

/-- Dropping a player from the cache, with everything that it leaves as it is. -/
theorem delPlayerData_spec (nosql : NoSqlDBCache σ) (hdef : s.defultObjectSet = ∅)
    (hme : me ∈ s.playerDataCache) :
    let s' := (s.delPlayerData nosql me).1
    s'.map = s.map ∧ s'.defultObjectSet = ∅ ∧
      (∀ id, s'.viewSet id = if id = me then ∅ else s.viewSet id) ∧
      ∀ id, s'.getPlayerMapData id = if id = me then none else s.getPlayerMapData id := by
  intro s'
  obtain ⟨p, hp⟩ := Option.isSome_iff_exists.1 (Std.ExtTreeMap.isSome_getElem?_iff_mem.2 hme)
  have hcache : s'.playerDataCache = s.playerDataCache.erase me := by
    simp only [s', delPlayerData, hp, savePlayerDataToDb]
  have hdef' : s'.defultObjectSet = ∅ := by
    simp only [s', delPlayerData, hp, savePlayerDataToDb, hdef]
  have hget : ∀ id : ObjectId, s'.playerDataCache[id]? =
      if id = me then none else s.playerDataCache[id]? := by
    intro id
    rw [hcache, Std.ExtTreeMap.getElem?_erase]
    simp only [Std.compare_eq_iff_eq, eq_comm (a := me)]
  refine ⟨by simp only [s', delPlayerData, hp, savePlayerDataToDb], hdef', fun id ↦ ?_, fun id ↦ ?_⟩
  · simp only [viewSet, getViewListPlayerSet, hget]
    split_ifs with h
    · exact hdef'
    · rw [hdef', hdef]
  · simp only [getPlayerMapData, hget]
    split_ifs <;> rfl

/-! ### The handlers, taken apart -/

theorem getMapTowerAoi_eq (hm : s.map.Ready g) : s.map.getMapTowerAoi 1 = some s.map.toweraoi := by
  rw [GameMap.getMapTowerAoi, hm.find?]
  rfl

/-- The answer to a move that fails. -/
def moveFailed (s : LogicServer σ) (id : ObjectId) : AckMove :=
  { errorcode := 0, tmpid := id, location := location ((s.getPlayerMapData id).getD {}) }

/-- A move to a cell that is not walkable is refused, and changes nothing but what is sent. -/
theorem playerMove_of_fails (user : UserId)
    (h : s.map.isGridCanWalk ((s.getPlayerMapData me).getD {}).mapId cmd.dstPoint = some false) :
    s.playerMove user me cmd =
      some (s.sendMsgToPlayer user .delobj (.ackMove (s.moveFailed me))) := by
  simp only [playerMove, h, Option.bind_eq_bind, Option.bind_some]
  rfl

/-- A role without a location is on the map with the number 0, which there is not, so no cell of it
can be walked on. -/
theorem isGridCanWalk_of_none (hm : s.map.Ready g) (h : s.getPlayerMapData me = none) (p : Point) :
    s.map.isGridCanWalk ((s.getPlayerMapData me).getD {}).mapId p = some false := by
  have hfind : s.map.find? 0 = none := by
    rw [GameMap.find?, hm.mapId]
    rfl
  simp only [h, Option.getD_none, GameMap.isGridCanWalk, hfind, Option.pure_def]

/-- A move of nobody, or onto a cell that cannot be walked on, is only answered. -/
theorem playerMove_of_stays (hm : s.map.Ready g) (user : UserId)
    (h : s.getPlayerMapData me = none ∨ ∃ d, s.getPlayerMapData me = some d ∧ d.mapId = 1 ∧
      s.map.isGridCanWalk 1 cmd.dstPoint = some false) :
    ∃ body, s.playerMove user me cmd = some (s.sendMsgToPlayer user .delobj body) := by
  refine ⟨_, playerMove_of_fails user ?_⟩
  rcases h with h | ⟨d, h, hd, hwalk⟩
  · exact isGridCanWalk_of_none hm h _
  · rw [h, Option.getD_some, hd, hwalk]

/-- A move onto a walkable cell moves the watcher, and then the views. -/
theorem playerMove_of_walks (hm : s.map.Ready g) (h : s.getPlayerMapData me = some d)
    (hd : d.mapId = 1) (hwalk : s.map.isGridCanWalk 1 cmd.dstPoint = some true) :
    s.playerMove user me cmd =
      (s.map.toweraoi.moveWatcher me d.location cmd.dstPoint {}).map fun r ↦
        (s.setTowerAoi r.1).moveViews user me { d with location := cmd.dstPoint } cmd r.2 := by
  simp only [playerMove, h, Option.getD_some, hd, hwalk, Option.bind_eq_bind, Option.bind_some,
    if_true, getMapTowerAoi_eq hm, Option.map_eq_bind]
  rfl

/-- A player who is in the cache becomes a watcher where it is. -/
theorem addUserToMap_of_some (hm : s.map.Ready g) (h : s.getPlayerMapData me = some d) :
    s.addUserToMap 1 user me =
      (s.map.toweraoi.addWatcher me d.location ∅ ∅).map fun r ↦
        (s.setTowerAoi r.1).sendAddViewPlayers user me d r.2.1.toList := by
  simp only [addUserToMap, h, getMapTowerAoi_eq hm, Option.bind_eq_bind, Option.bind_some,
    Option.map_eq_bind]
  rfl

theorem addUserToMap_of_none (h : s.getPlayerMapData me = none) :
    s.addUserToMap 1 user me = some s := by
  simp only [addUserToMap, h, Option.pure_def]

theorem delUserFromMap_of_some (hm : s.map.Ready g) (h : s.getPlayerMapData me = some d)
    (hd : d.mapId = 1) :
    s.delUserFromMap user me =
      (s.map.toweraoi.delWatcher me d.location ∅ ∅).map fun r ↦
        (s.setTowerAoi r.1).sendDelViewPlayers user me r.2.1.toList := by
  simp only [delUserFromMap, h, hd, getMapTowerAoi_eq hm, Option.bind_eq_bind, Option.bind_some,
    Option.map_eq_bind]
  rfl

/-- The logout of a user without a cached role does nothing. -/
theorem loginOut_of_notMem (nosql : NoSqlDBCache σ) (h : s.getObjectId user ∉ s.playerDataCache) :
    s.loginOut nosql user = some s := by
  simp only [loginOut, havePlayerData, decide_eq_true_eq, if_neg h]
  rfl

/-- The location that a move stores. -/
def movedData (d : PlayerMapData) (p : Point) : PlayerMapData :=
  { d with location := p, moveCount := d.moveCount + 1 }

/-- What a move does, told in the order in which it happens: the lost ones, the kept ones, the new
ones, the place. -/
theorem moveViews_eq (hme : s.getPlayerMapData me = some d) (p : Point) :
    s.moveViews user me { d with location := p } cmd out =
      (((s.sendDelViewPlayers user me out.wremove.toList).sendMoveViewPlayers user me
        { d with location := p } cmd).sendAddViewPlayers user me (movedData d p)
          out.winsert.toList).setPlayerMapData me (movedData d p) := by
  obtain ⟨q, hq⟩ := Option.isSome_iff_exists.1 (Std.ExtTreeMap.isSome_getElem?_iff_mem.2
    (mem_iff_getPlayerMapData.2 (Option.isSome_iff_exists.2 ⟨d, hme⟩)))
  have halive : (s.getViewListPlayerSet me).2 = true := by rw [getViewListPlayerSet, hq]
  rw [moveViews, if_pos halive]
  rfl

/-- What a move does to the view lists: the players it has left out of sight are taken out, and then
those it has come into sight of are put in. -/
theorem moveViews_viewSet (hdef : s.defultObjectSet = ∅) (hmut : s.Mutual)
    (hme : s.getPlayerMapData me = some d) (user : UserId) (cmd : ReqMove) (out : MoveSets)
    (p : Point) :
    ∃ s₁ : LogicServer σ, me ∈ s₁.playerDataCache ∧ Frame s s₁ ∧
      (∀ a b, b ∈ s₁.viewSet a ↔ b ∈ s.viewSet a ∧ ¬ (a = me ∧ b ∈ out.wremove) ∧
        ¬ (b = me ∧ a ∈ out.wremove)) ∧
      ∀ id, (s.moveViews user me { d with location := p } cmd out).viewSet id =
        (s₁.sendAddViewPlayers user me (movedData d p) out.winsert.toList).viewSet id := by
  have hmem : me ∈ s.playerDataCache :=
    mem_iff_getPlayerMapData.2 (Option.isSome_iff_exists.2 ⟨d, hme⟩)
  have hframe := (frame_sendDelViewPlayers hdef user me out.wremove.toList).trans
    (frame_sendMoveViewPlayers _ user me { d with location := p } cmd)
  refine ⟨_, (hframe.mem_iff me).2 hmem, hframe, fun a b ↦ ?_, fun id ↦ ?_⟩
  · rw [viewSet_sendMoveViewPlayers, mem_viewSet_sendDelViewPlayers hdef hmut,
      Std.ExtTreeSet.mem_toList, Std.ExtTreeSet.mem_toList]
  · rw [moveViews_eq hme, viewSet_setPlayerMapData]

/-- Where nobody comes into sight or leaves it, the lists stay as they are. -/
theorem moveViews_viewSet_of_empty (hme : s.getPlayerMapData me = some d) (p : Point)
    (hinsert : out.winsert = ∅) (hremove : out.wremove = ∅) :
    (s.moveViews user me { d with location := p } cmd out).viewSet id = s.viewSet id := by
  have hnil : (∅ : ObjectSet).toList = [] := rfl
  rw [moveViews_eq hme, viewSet_setPlayerMapData, hinsert, hremove, hnil]
  exact viewSet_sendMoveViewPlayers cmd

/-- What a move leaves in the cache and on the map. -/
theorem moveViews_mapData (hdef : s.defultObjectSet = ∅) (hme : s.getPlayerMapData me = some d)
    (user : UserId) (cmd : ReqMove) (out : MoveSets) (p : Point) :
    let s' := s.moveViews user me { d with location := p } cmd out
    s'.map = s.map ∧ s'.defultObjectSet = ∅ ∧ ∀ id, s'.getPlayerMapData id =
      if id = me then some (movedData d p) else s.getPlayerMapData id := by
  intro s'
  have hmem : me ∈ s.playerDataCache :=
    mem_iff_getPlayerMapData.2 (Option.isSome_iff_exists.2 ⟨d, hme⟩)
  have hf₁ := (frame_sendDelViewPlayers hdef user me out.wremove.toList).trans
    (frame_sendMoveViewPlayers _ user me { d with location := p } cmd)
  have hf := hf₁.trans (sendAddViewPlayers_spec ((hf₁.mem_iff me).2 hmem) user (movedData d p)
    out.winsert.toList).frame
  simp only [s', moveViews_eq hme]
  refine ⟨hf.map, hf.defult.trans hdef, fun id ↦ ?_⟩
  rw [getPlayerMapData_setPlayerMapData, hf.getPlayerMapData, hf.getPlayerMapData, hme]
  rfl

/-! ### Located players -/

/-- The map has its grid, its towers have their places, and every cached player stands on it. -/
structure Located (g : TowerInfo) (s : LogicServer σ) : Prop where
  ready : s.map.Ready g
  info : s.map.toweraoi.toTowerInfo = g
  indexed : s.map.toweraoi.Indexed
  defult : s.defultObjectSet = ∅
  mapId : ∀ id d, s.getPlayerMapData id = some d → d.mapId = 1
  inMap : ∀ id d, s.getPlayerMapData id = some d → g.InMap d.location

theorem Joined.located (h : Joined s s') (hgrid : g.HasGrid) (hs : s.Located g) :
    s'.Located g := by
  refine ⟨h.map ▸ hs.ready, h.map ▸ hs.info, h.map ▸ hs.indexed, h.defult, fun id d hd ↦ ?_,
    fun id d hd ↦ ?_⟩
  · rcases h.mapData id with heq | ⟨-, d', hd', hmap, -⟩
    · exact hs.mapId id d (heq ▸ hd)
    · rw [hd] at hd'
      exact Option.some.inj hd' ▸ hmap
  · rcases h.mapData id with heq | ⟨-, d', hd', -, hloc⟩
    · exact hs.inMap id d (heq ▸ hd)
    · rw [hd] at hd'
      rw [Option.some.inj hd', hloc]
      exact hgrid.inMap

/-- What follows from a state that differs only in views, in messages, and in the towers. -/
theorem Located.of_frame (hs : s.Located g) (hshape : TowerAoi.SameShape s.map.toweraoi toweraoi)
    (h : Frame (s.setTowerAoi toweraoi) s') : s'.Located g := by
  have hmap := h.map
  refine ⟨?_, ?_, ?_, h.defult.trans hs.defult, fun id d hd ↦ ?_, fun id d hd ↦ ?_⟩
  · rw [hmap]
    exact ⟨hs.ready.mapId, hs.ready.mapWidth, hs.ready.mapHeight, hs.ready.grid⟩
  · rw [hmap]
    exact hshape.info.trans hs.info
  · rw [hmap]
    exact hshape.indexed hs.indexed
  · rw [h.getPlayerMapData] at hd
    exact hs.mapId id d hd
  · rw [h.getPlayerMapData] at hd
    exact hs.inMap id d hd

/-- A handler that is not a move is defined, wherever the players are. -/
theorem exists_clientReady (hr : g.Regular) (hs : s.Located g) (user : UserId) :
    ∃ s', s.clientReady user = some s' ∧ s'.Located g := by
  rw [clientReady]
  generalize s.getObjectId user = me
  cases hme : s.getPlayerMapData me with
  | none => exact ⟨s, addUserToMap_of_none hme, hs⟩
  | some d =>
    have hinfo := hs.info
    have hp := hs.inMap me d hme
    subst hinfo
    obtain ⟨-, a', objs, -, -, hshape, heq⟩ :=
      TowerAoi.addWatcher_trace hr hs.indexed hp me ∅ ∅
    rw [addUserToMap_of_some hs.ready hme, heq]
    have hmem : me ∈ (s.setTowerAoi a').playerDataCache :=
      mem_iff_getPlayerMapData.2 (Option.isSome_iff_exists.2 ⟨d, hme⟩)
    exact ⟨_, rfl, hs.of_frame hshape (sendAddViewPlayers_spec hmem user d _).frame⟩

/-- Taking a role out of the cache leaves the others where they are. -/
theorem Located.delPlayerData (nosql : NoSqlDBCache σ) (hs : s.Located g)
    (hme : me ∈ s.playerDataCache) :
    (s.delPlayerData nosql me).1.Located g := by
  obtain ⟨hmap, hdef, -, hdata⟩ := delPlayerData_spec nosql hs.defult hme
  refine ⟨hmap ▸ hs.ready, hmap ▸ hs.info, hmap ▸ hs.indexed, hdef, fun id d hd ↦ ?_,
    fun id d hd ↦ ?_⟩
  · rw [hdata] at hd
    split_ifs at hd
    exact hs.mapId id d hd
  · rw [hdata] at hd
    split_ifs at hd
    exact hs.inMap id d hd

/-- **A logout is defined**, and leaves everybody located. -/
theorem exists_loginOut (hr : g.Regular) (hs : s.Located g) (user : UserId) :
    ∃ s', s.loginOut nosql user = some s' ∧ s'.Located g := by
  simp only [loginOut, havePlayerData, decide_eq_true_eq]
  generalize s.getObjectId user = me
  split_ifs with hmem
  · obtain ⟨d, hme⟩ := Option.isSome_iff_exists.1 (mem_iff_getPlayerMapData.1 hmem)
    have hinfo := hs.info
    have hp := hs.inMap me d hme
    subst hinfo
    obtain ⟨a₁, a', objs, -, -, hshape, heq⟩ :=
      TowerAoi.delWatcher_trace hr hs.indexed hp me ∅ ∅
    rw [delUserFromMap_of_some hs.ready hme (hs.mapId me d hme), heq]
    have hframe := frame_sendDelViewPlayers (s := s.setTowerAoi a') hs.defult user me
      ((∅ ∪ (s.map.toweraoi.tower (s.map.toweraoi.towerOf d.location)).watchers : ObjectSet).erase
        me).toList
    exact ⟨_, rfl, (hs.of_frame hshape hframe).delPlayerData nosql ((hframe.mem_iff me).2 hmem)⟩
  · exact ⟨s, rfl, hs⟩

/-- A move is only answered, or it leads a cached player onto a walkable cell. -/
theorem Located.playerMove_cases (hs : s.Located g) (hp : g.InMap cmd.dstPoint) (user : UserId)
    (me : ObjectId) :
    (∃ body, s.playerMove user me cmd = some (s.sendMsgToPlayer user .delobj body)) ∨
      ∃ d, s.getPlayerMapData me = some d ∧
        s.map.isGridCanWalk 1 cmd.dstPoint = some true := by
  cases hme : s.getPlayerMapData me with
  | none => exact Or.inl (playerMove_of_stays hs.ready user (Or.inl hme))
  | some d =>
    obtain ⟨walk, hwalk⟩ := hs.ready.exists_isGridCanWalk hp
    cases walk with
    | false =>
      exact Or.inl (playerMove_of_stays hs.ready user (Or.inr ⟨d, hme, hs.mapId me d hme, hwalk⟩))
    | true => exact Or.inr ⟨d, rfl, hwalk⟩

/-- A move that passes the walkability test is defined when it leads to a cell of the map. -/
theorem exists_playerMove_of_walks (hr : g.Regular) (hs : s.Located g)
    (hme : s.getPlayerMapData me = some d) (hwalk : s.map.isGridCanWalk 1 cmd.dstPoint = some true)
    (hp : g.InMap cmd.dstPoint) (user : UserId) :
    ∃ s', s.playerMove user me cmd = some s' ∧ s'.Located g := by
  have hinfo := hs.info
  have hd := hs.inMap me d hme
  subst hinfo
  obtain ⟨a', out, heq, hshape⟩ := TowerAoi.exists_moveWatcher hr hs.indexed hd hp me {}
  rw [playerMove_of_walks hs.ready hme (hs.mapId me d hme) hwalk, heq]
  refine ⟨_, rfl, ?_⟩
  have hs₁ : (s.setTowerAoi a').Located s.map.toweraoi.toTowerInfo := hs.of_frame hshape (.refl _)
  obtain ⟨hmap, hdef, hdata⟩ := moveViews_mapData (s := s.setTowerAoi a') hs₁.defult hme
    user cmd out cmd.dstPoint
  refine ⟨hmap ▸ hs₁.ready, hmap ▸ hs₁.info, hmap ▸ hs₁.indexed, hdef, fun id d' hd' ↦ ?_,
    fun id d' hd' ↦ ?_⟩
  · rw [hdata] at hd'
    split_ifs at hd'
    · obtain rfl := Option.some.inj hd'
      exact hs.mapId me d hme
    · exact hs.mapId id d' hd'
  · rw [hdata] at hd'
    split_ifs at hd'
    · obtain rfl := Option.some.inj hd'
      exact hp
    · exact hs.inMap id d' hd'

/-- A move inside the map is defined, whether it leads anywhere or not. -/
theorem Located.exists_playerMove (hr : g.Regular) (hs : s.Located g) (hp : g.InMap cmd.dstPoint)
    (user : UserId) (me : ObjectId) :
    ∃ s', s.playerMove user me cmd = some s' ∧ s'.Located g := by
  rcases hs.playerMove_cases hp user me with ⟨body, heq⟩ | ⟨d, hme, hwalk⟩
  · exact ⟨_, heq, hs.of_frame (.refl _) (frame_sendMsgToPlayer ..)⟩
  · exact exists_playerMove_of_walks hr hs hme hwalk hp user

/-- Every event but a move is defined wherever the players are, so a server gets stuck in a move or
not at all. -/
theorem Located.exists_step (hr : g.Regular) (hgrid : g.HasGrid) (hs : s.Located g) {event : Event}
    (hmove : ∀ user cmd, event = .move user cmd →
      ∃ s', s.playerMove user (s.getObjectId user) cmd = some s' ∧ s'.Located g) :
    ∃ s', s.step nosql event = some s' ∧ s'.Located g := by
  cases event with
  | createRole user role =>
    exact ⟨_, rfl, (createPlayer_joined hs.defult user role).located hgrid hs⟩
  | enterGame user enter => exact ⟨_, rfl, (enterGame_joined hs.defult user enter).located hgrid hs⟩
  | clientReady user => exact exists_clientReady hr hs user
  | move user cmd => exact hmove user cmd rfl
  | logout user => exact exists_loginOut hr hs user

/-! ### Placed players -/

/-- The towers show a board on which exactly some of the cached players are registered, each as a
watcher at the tower of its stored location. -/
structure Placed (g : TowerInfo) (s : LogicServer σ) (B : Board ObjectId (Int × Int)) : Prop
    extends s.Located g where
  represents : TowerAoi.Represents g s.map.toweraoi B
  placed : ∀ id d, s.getPlayerMapData id = some d →
    TowerAoi.Free B id .watcher (g.towerOf d.location)
  absent : ∀ id, s.getPlayerMapData id = none → B id = none

theorem Placed.allWatch (hs : s.Placed g B) : B.AllWatch := by
  intro id r t hB
  cases hd : s.getPlayerMapData id with
  | none =>
    rw [hs.absent id hd] at hB
    exact absurd hB (by simp)
  | some d =>
    rcases hs.placed id d hd with hfree | hfree
    · rw [hfree] at hB
      exact absurd hB (by simp)
    · rw [hfree] at hB
      exact (Prod.mk.inj (Option.some.inj hB)).1.symm

/-- A registered player is in the cache, and registered at the tower of its location. -/
theorem Placed.of_at (hs : s.Placed g B) {t : Int × Int} (h : B.At id t) :
    ∃ d, s.getPlayerMapData id = some d ∧ t = g.towerOf d.location := by
  cases hd : s.getPlayerMapData id with
  | none => exact absurd h (Board.not_at_of_none (hs.absent id hd))
  | some d => exact ⟨d, rfl, (hs.placed id d hd).at_imp h⟩

/-- A role that joins does not stand on the map yet, so the board stays. -/
theorem Joined.placed (h : Joined s s') (hgrid : g.HasGrid) (hs : s.Placed g B) :
    s'.Placed g B := by
  refine { h.located hgrid hs.toLocated with
    represents := h.map ▸ hs.represents
    placed := fun id d hd ↦ ?_
    absent := fun id hd ↦ ?_ }
  · rcases h.mapData id with heq | ⟨hnone, -⟩
    · exact hs.placed id d (heq ▸ hd)
    · exact Or.inl (hs.absent id hnone)
  · rcases h.mapData id with heq | ⟨hnone, -⟩
    · exact hs.absent id (heq ▸ hd)
    · exact hs.absent id hnone

/-- The board may change under the players as long as each keeps to its own tower. -/
theorem Placed.of_mapData {B' : Board ObjectId (Int × Int)} (hs : s.Placed g B) (me : ObjectId)
    (hloc : s'.Located g) (hrep : TowerAoi.Represents g s'.map.toweraoi B')
    (hdata : ∀ id, id ≠ me → s'.getPlayerMapData id = s.getPlayerMapData id)
    (hboard : ∀ id, id ≠ me → B' id = B id)
    (hplaced : ∀ d, s'.getPlayerMapData me = some d →
      TowerAoi.Free B' me .watcher (g.towerOf d.location))
    (habsent : s'.getPlayerMapData me = none → B' me = none) : s'.Placed g B' := by
  refine { hloc with represents := hrep, placed := fun id d hd ↦ ?_, absent := fun id hd ↦ ?_ }
  · by_cases hid : id = me
    · subst hid
      exact hplaced d hd
    · rw [TowerAoi.Free, hboard id hid]
      exact hs.placed id d (hdata id hid ▸ hd)
  · by_cases hid : id = me
    · subst hid
      exact habsent hd
    · rw [hboard id hid]
      exact hs.absent id (hdata id hid ▸ hd)

/-- **A ready player is registered** at its tower, and told to those who watch it. -/
theorem Placed.addUserToMap (hg : g.Sound) (hs : s.Placed g B)
    (hme : s.getPlayerMapData me = some d) (user : UserId) :
    ∃ toweraoi told, s.addUserToMap 1 user me =
        some ((s.setTowerAoi toweraoi).sendAddViewPlayers user me d told) ∧
      ((s.setTowerAoi toweraoi).sendAddViewPlayers user me d told).Placed g
        (B.put me .watcher (g.towerOf d.location)) ∧
      ∀ i, i ∈ told ↔ B.Watches g.Near i (g.towerOf d.location) := by
  have hp := hs.inMap me d hme
  obtain ⟨a', watcher, objs, heq, hrep, hwatcher, -⟩ :=
    TowerAoi.addWatcher_spec hg hs.represents hp (hs.placed me d hme) ∅ ∅
  have hmem : me ∈ (s.setTowerAoi a').playerDataCache :=
    mem_iff_getPlayerMapData.2 (Option.isSome_iff_exists.2 ⟨d, hme⟩)
  have hshape := hs.represents.sameShape hrep
  have hframe := (sendAddViewPlayers_spec hmem user d watcher.toList).frame
  refine ⟨a', watcher.toList, by rw [addUserToMap_of_some hs.ready hme, heq]; rfl, ?_, fun i ↦ ?_⟩
  · refine hs.of_mapData me (hs.of_frame hshape hframe) (hframe.map ▸ hrep)
      (fun id _ ↦ hframe.getPlayerMapData id) (fun id hid ↦ Board.put_of_ne hid) (fun d' hd' ↦ ?_)
      fun hnone ↦ ?_
    · rw [hframe.getPlayerMapData] at hd'
      obtain rfl := Option.some.inj (hme.symm.trans hd')
      exact Or.inr Board.put_self
    · rw [hframe.getPlayerMapData] at hnone
      exact absurd (hme.symm.trans hnone) (by simp)
  · rw [Std.ExtTreeSet.mem_toList, hwatcher]
    exact or_iff_right Std.ExtTreeSet.not_mem_empty

/-- **A move to a walkable cell** puts the player at its new tower, unless that is the old one, and
reports the differences. -/
theorem Placed.playerMove (hg : g.Sound) (hs : s.Placed g B) (hme : s.getPlayerMapData me = some d)
    (hwalk : s.map.isGridCanWalk 1 cmd.dstPoint = some true) (hp : g.InMap cmd.dstPoint)
    (user : UserId) :
    ∃ toweraoi out, s.playerMove user me cmd = some ((s.setTowerAoi toweraoi).moveViews user me
        { d with location := cmd.dstPoint } cmd out) ∧
      ((s.setTowerAoi toweraoi).moveViews user me
        { d with location := cmd.dstPoint } cmd out).Placed
        g (if g.towerOf d.location = g.towerOf cmd.dstPoint then B
          else B.put me .watcher (g.towerOf cmd.dstPoint)) ∧
      TowerAoi.MoveSets.Reports g B me (g.towerOf d.location) (g.towerOf cmd.dstPoint) {} out := by
  have hd := hs.inMap me d hme
  obtain ⟨a', out, heq, hrep, hout⟩ :=
    TowerAoi.moveWatcher_spec hg hs.represents hd hp (hs.placed me d hme) {}
  have hmove : s.playerMove user me cmd = some ((s.setTowerAoi a').moveViews user me
      { d with location := cmd.dstPoint } cmd out) := by
    rw [playerMove_of_walks hs.ready hme (hs.mapId me d hme) hwalk, heq]
    rfl
  obtain ⟨s', hs', hlocated⟩ :=
    exists_playerMove_of_walks hg.toRegular hs.toLocated hme hwalk hp user
  obtain rfl := Option.some.inj (hmove.symm.trans hs')
  obtain ⟨hmap, -, hdata⟩ := moveViews_mapData (s := s.setTowerAoi a') hs.defult hme user cmd out
    cmd.dstPoint
  refine ⟨a', out, hmove, ?_, hout⟩
  refine hs.of_mapData me hlocated (hmap ▸ hrep) (fun id hid ↦ ?_) (fun id hid ↦ ?_)
    (fun d' hd' ↦ ?_) fun hnone ↦ ?_
  · rw [hdata, if_neg hid]
    rfl
  · split_ifs
    · rfl
    · exact Board.put_of_ne hid
  · rw [hdata, if_pos rfl] at hd'
    obtain rfl := Option.some.inj hd'
    split_ifs with hsame
    · rw [movedData, ← hsame]
      exact hs.placed me d hme
    · exact Or.inr Board.put_self
  · rw [hdata, if_pos rfl] at hnone
    exact absurd hnone (by simp)

/-- **A player that logs out** is off the board and out of the cache, and told to the others who
watched its tower. -/
theorem Placed.delUserFromMap (hg : g.Sound) (hs : s.Placed g B) (nosql : NoSqlDBCache σ)
    (hme : s.getPlayerMapData me = some d) (user : UserId) :
    ∃ toweraoi told, s.delUserFromMap user me =
        some ((s.setTowerAoi toweraoi).sendDelViewPlayers user me told) ∧
      (((s.setTowerAoi toweraoi).sendDelViewPlayers user me told).delPlayerData nosql me).1.Placed g
        (B.remove me) ∧
      ∀ i, i ∈ told ↔ i ≠ me ∧ B.Watches g.Near i (g.towerOf d.location) := by
  have hp := hs.inMap me d hme
  obtain ⟨a', watcher, objs, heq, hrep, hwatcher, -⟩ :=
    TowerAoi.delWatcher_spec hg hs.represents hp (hs.placed me d hme) ∅ ∅
  have hmem : me ∈ (s.setTowerAoi a').playerDataCache :=
    mem_iff_getPlayerMapData.2 (Option.isSome_iff_exists.2 ⟨d, hme⟩)
  have hframe := frame_sendDelViewPlayers (s := s.setTowerAoi a') hs.defult user me watcher.toList
  have hmem' := (hframe.mem_iff me).2 hmem
  have hlocated := (hs.of_frame (hs.represents.sameShape hrep) hframe).delPlayerData nosql hmem'
  obtain ⟨hmap, -, -, hdata⟩ := delPlayerData_spec nosql (hframe.defult.trans hs.defult) hmem'
  refine ⟨a', watcher.toList,
    by rw [delUserFromMap_of_some hs.ready hme (hs.mapId me d hme), heq]; rfl, ?_, fun i ↦ ?_⟩
  · refine hs.of_mapData me hlocated ?_ (fun id hid ↦ ?_)
      (fun id hid ↦ Board.remove_of_ne hid) (fun d' hd' ↦ ?_) fun _ ↦ Board.remove_self
    · rw [hmap, hframe.map]
      exact hrep
    · rw [hdata, if_neg hid]
      exact hframe.getPlayerMapData id
    · rw [hdata, if_pos rfl] at hd'
      exact absurd hd' (by simp)
  · rw [Std.ExtTreeSet.mem_toList, hwatcher]
    exact and_congr_right fun _ ↦ or_iff_right Std.ExtTreeSet.not_mem_empty

/-! ### A server that has just been started

The map is the one `TestTnit` makes, of any size that gets a grid, with any flags in its cells. -/

variable {w h : Int} {cells : List MapGrid} {gCount : UInt64} {db : σ}

/-- What `TestTnit` makes: a map with the number 1 and towers of five by five cells. -/
theorem testTnit_eq_some (hm : GameMap.testTnit w h = some m) : m.mapId = 1 ∧ m.mapWidth = w ∧
    m.mapHeight = h ∧ TowerAoi.new w h 5 5 20 20 1 = some m.toweraoi := by
  simp only [GameMap.testTnit, Option.bind_eq_bind, Option.bind_eq_some_iff] at hm
  obtain ⟨info, -, toweraoi, hnew, hm⟩ := hm
  obtain rfl := Option.some.inj hm
  exact ⟨rfl, rfl, rfl, hnew⟩

/-- A player sees four towers far, which the coordinates have room for on any map. -/
theorem testTnit_regular (hm : GameMap.testTnit w h = some m) : m.toweraoi.Regular := by
  obtain ⟨-, -, -, hnew⟩ := testTnit_eq_some hm
  have hb := TowerAoi.new_eq_some hnew
  have hfour : TowerAoi.towerCount 20 5 = some 4 := by decide
  have hvx : m.toweraoi.towerViewWeight = 4 :=
    Option.some.inj (hb.towerViewWeight.symm.trans hfour)
  have hvy : m.toweraoi.towerViewHight = 4 :=
    Option.some.inj (hb.towerViewHight.symm.trans hfour)
  refine TowerAoi.new_regular hnew (by decide) (by decide) (by omega) (by omega)
    (fun x _ _ ↦ ?_) fun y _ _ ↦ ?_
  · have := Coordinate.toInt_le x
    omega
  · have := Coordinate.toInt_le y
    omega

/-- A map that is more than one cell wide and high has a grid of towers. -/
theorem testTnit_hasGrid (hm : GameMap.testTnit w h = some m) (hw : 1 < w) (hh : 1 < h) :
    m.toweraoi.HasGrid := by
  obtain ⟨-, -, -, hnew⟩ := testTnit_eq_some hm
  have hb := TowerAoi.new_eq_some hnew
  exact ⟨hb.weight ▸ hw, hb.hight ▸ hh⟩

/-- At the start there are no players, so nobody is in a wrong place. -/
theorem start_located (hm : GameMap.testTnit w h = some m) (hcells : (cells.length : Int) = w * h)
    (gCount : UInt64) (db : σ) :
    (start (m.withGrid cells) gCount db).Located m.toweraoi.toTowerInfo := by
  obtain ⟨hid, hwidth, hheight, hnew⟩ := testTnit_eq_some hm
  have hb := TowerAoi.new_eq_some hnew
  have hnone : ∀ id, (start (m.withGrid cells) gCount db).getPlayerMapData id = none := by
    intro id
    simp only [getPlayerMapData, start, Std.ExtTreeMap.getElem?_empty, Option.map_none]
  refine ⟨⟨hid, hwidth.trans hb.weight.symm, hheight.trans hb.hight.symm, cells, rfl, ?_⟩, rfl,
    hb.indexed, rfl, fun id d hd ↦ ?_, fun id d hd ↦ ?_⟩
  · rw [hcells, hb.weight, hb.hight]
  · exact absurd (hd.symm.trans (hnone id)) (by simp)
  · exact absurd (hd.symm.trans (hnone id)) (by simp)

theorem start_placed (hm : GameMap.testTnit w h = some m) (hcells : (cells.length : Int) = w * h)
    (gCount : UInt64) (db : σ) :
    (start (m.withGrid cells) gCount db).Placed m.toweraoi.toTowerInfo Board.empty := by
  obtain ⟨-, -, -, hnew⟩ := testTnit_eq_some hm
  refine { start_located hm hcells gCount db with
    represents := TowerAoi.new_represents hnew
    placed := fun _ _ _ ↦ Or.inl (Board.empty_apply _)
    absent := fun _ _ ↦ Board.empty_apply _ }

theorem start_viewSet : (start m gCount db).viewSet id = ∅ :=
  viewSet_of_notMem Std.ExtTreeMap.not_mem_empty

/-- A map of six by six towers. -/
def sampleMap : GameMap := (GameMap.testTnit 30 30).get (by decide +kernel)

theorem testTnit_sampleMap : GameMap.testTnit 30 30 = some sampleMap := (Option.some_get _).symm

/-- A server on that map, with a store in memory. -/
def sampleServer : LogicServer (List (String × List KeyValue) × List (String × List String)) :=
  start (sampleMap.withGrid (.replicate 900 {})) 0 ([], [])

end LogicServer

end QCLib
