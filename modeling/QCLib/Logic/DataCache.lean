import QCLib.Logic.GameMap
import QCLib.Logic.Messages
import QCLib.Logic.PlayerRecord

/-!
# The data cache

`DataManager` of `data_cache.cpp`: the players in memory, the index from users to their players, and
the store behind them. `LogicServer` is the whole state of the logic thread, with the map and with
the messages it has sent, oldest first.

A store is a parameter (`NoSqlDBCache`), with the operations that this file calls. Maps of the
source are maps ordered by their keys here, also where the source has hash maps: nothing depends on
the order of those but the order of a broadcast.

`none` stands for what has no defined result in the towers. A player's own record, its place and its
view are fields of one object, as in the source, and each has its functions.
-/

namespace QCLib

/-- `PlayerMapData`: where a player is on the map. -/
structure PlayerMapData where
  mapId : MapId := 0
  location : Point := ⟨0, 0⟩
  moveSpeed : UInt16 := 0
  moveCount : Int32 := 0
  deriving DecidableEq, Repr

/-- `PlayerData`; its `PlayerBase` has the members of `PlayerDataMsg`. -/
structure PlayerData where
  viewObjectSet : ObjectSet
  baseData : PlayerDataMsg
  mapData : PlayerMapData
  deriving DecidableEq

/-- The constructor `PlayerData(setdata)`. -/
def PlayerData.new (setdata : PlayerDataMsg) : PlayerData where
  viewObjectSet := ∅
  baseData := setdata
  mapData := { mapId := 1, location := ⟨1, 1⟩, moveSpeed := 100 }

/-- `PlayerData::GetUserId`. -/
def PlayerData.getUserId (p : PlayerData) : UserId := p.baseData.userId

/-- The state of the logic thread: the roles of the users, the cached players, the counter of object
ids, the store, the map, and what has been sent. -/
structure LogicServer (σ : Type) where
  userObjectIdHash : Std.ExtTreeMap UserId ObjectId
  playerDataCache : Std.ExtTreeMap ObjectId PlayerData
  defultObjectSet : ObjectSet
  gCount : UInt64
  db : σ
  map : GameMap
  sent : List Packet

/-- `MAX_COUNT`. -/
def maxCount : UInt64 := 0xffffffffffffff

/-- `MAX_VIEW_COUNT`. -/
def maxViewCount : Nat := 100

namespace LogicServer

variable {σ : Type}

/-- A server that has just been started: nobody in the cache, nothing sent. -/
def start (map : GameMap) (gCount : UInt64) (db : σ) : LogicServer σ :=
  { userObjectIdHash := ∅, playerDataCache := ∅, defultObjectSet := ∅, gCount, db, map, sent := [] }

/-- `SendMsgToPlayer`, as a packet for the user. What becomes of the packet is modelled with the
gate. -/
def sendMsgToPlayer (s : LogicServer σ) (user : UserId) (cmd : WholeCmd) (body : Body) :
    LogicServer σ :=
  { s with sent := s.sent ++ [⟨user, cmd, body⟩] }

/-- `BroadcastMsg`: the same packet for several users, one after another. -/
def broadcastMsg (s : LogicServer σ) (users : List UserId) (cmd : WholeCmd) (body : Body) :
    LogicServer σ :=
  users.foldl (fun s user ↦ s.sendMsgToPlayer user cmd body) s

/-! ### The index and the cache -/

/-- `GetObjectId`, `0` for a user without a player. -/
def getObjectId (s : LogicServer σ) (user : UserId) : ObjectId :=
  (s.userObjectIdHash[user]?).getD 0

/-- `GetUserId`, `0` for a player that is not in the cache. -/
def getUserId (s : LogicServer σ) (id : ObjectId) : UserId :=
  match s.playerDataCache[id]? with
  | some p => p.getUserId
  | none => 0

/-- `HavePlayerData`: the role is in the cache. -/
def havePlayerData (s : LogicServer σ) (id : ObjectId) : Bool := id ∈ s.playerDataCache

/-- `GetPlayerMapData`. -/
def getPlayerMapData (s : LogicServer σ) (id : ObjectId) : Option PlayerMapData :=
  (s.playerDataCache[id]?).map (·.mapData)

/-- `SetPlayerMapData`. -/
def setPlayerMapData (s : LogicServer σ) (id : ObjectId) (mapData : PlayerMapData) :
    LogicServer σ :=
  { s with playerDataCache := s.playerDataCache.modify id fun p ↦ { p with mapData } }

/-- `GetUserIds`: the users of those that are in the cache. -/
def getUserIds (s : LogicServer σ) (ids : ObjectSet) : List UserId :=
  ids.toList.filterMap fun id ↦ (s.playerDataCache[id]?).map (·.getUserId)

/-- `GetViewListPlayerSet`, with its `alive` flag: everybody who is not in the cache shares
`defult_object_set`. -/
def getViewListPlayerSet (s : LogicServer σ) (id : ObjectId) : ObjectSet × Bool :=
  match s.playerDataCache[id]? with
  | some p => (p.viewObjectSet, true)
  | none => (s.defultObjectSet, false)

/-- The set that `GetViewListPlayerSet` refers to. -/
def viewSet (s : LogicServer σ) (id : ObjectId) : ObjectSet := (s.getViewListPlayerSet id).1

/-- Write through the reference that `GetViewListPlayerSet` returned. -/
def modifyViewSet (s : LogicServer σ) (id : ObjectId) (f : ObjectSet → ObjectSet) :
    LogicServer σ :=
  if id ∈ s.playerDataCache then
    { s with playerDataCache := s.playerDataCache.modify id fun p ↦
        { p with viewObjectSet := f p.viewObjectSet } }
  else
    { s with defultObjectSet := f s.defultObjectSet }

/-! ### Players come and go -/

/-- `AddPlayerData`. The index keeps the player a user already has. -/
def addPlayerData (s : LogicServer σ) (playdata : PlayerDataMsg) : LogicServer σ × Bool :=
  if playdata.objectId ∈ s.playerDataCache then (s, false)
  else
    ({ s with
        playerDataCache := s.playerDataCache.insert playdata.objectId (.new playdata)
        userObjectIdHash := s.userObjectIdHash.insertIfNew playdata.userId playdata.objectId },
      true)

variable (nosql : NoSqlDBCache σ)

/-- `SavePlayerDataToDb`: all fields of the record are written. -/
def savePlayerDataToDb (s : LogicServer σ) (savedata : PlayerDataMsg) : LogicServer σ :=
  { s with db := nosql.setDataCache s.db (playerKey savedata.objectId) (savedata.structToMap []) }

/-- `DelPlayerData`: the record is saved, and the role is taken out of the cache and the index. -/
def delPlayerData (s : LogicServer σ) (id : ObjectId) : LogicServer σ × Bool :=
  match s.playerDataCache[id]? with
  | some p =>
    let s := s.savePlayerDataToDb nosql p.baseData
    ({ s with
        userObjectIdHash := s.userObjectIdHash.erase p.getUserId
        playerDataCache := s.playerDataCache.erase id },
      true)
  | none => (s, false)

/-- `LoadPlayerDataFromDb`. Nothing is loaded when the store has no fields under the key. -/
def loadPlayerDataFromDb (s : LogicServer σ) (id : ObjectId) : LogicServer σ × Bool :=
  let keyValue := nosql.getDataCacheAll s.db (playerKey id)
  if keyValue.length > 0 then s.addPlayerData (PlayerDataMsg.mapToStruct {} keyValue)
  else (s, false)

/-- `get_next_obj_id(ObjectType_Player)`. -/
def getNextObjId (s : LogicServer σ) : LogicServer σ × ObjectId :=
  let gCount := if s.gCount < maxCount then s.gCount + 1 else 0
  ({ s with gCount }, ((0 : UInt64) <<< 56 ||| gCount).toInt64)

/-- `NewAndSavePlayerData`, with the id it writes into the new player. -/
def newAndSavePlayerData (s : LogicServer σ) (newData : PlayerDataMsg) :
    LogicServer σ × PlayerDataMsg :=
  let next := s.getNextObjId
  let newData := { newData with objectId := next.2 }
  let added := next.1.addPlayerData newData
  if added.2 then
    let s := added.1.savePlayerDataToDb nosql newData
    ({ s with
        db := nosql.addSetCache s.db (userKey newData.userId) [toString newData.objectId.toInt] },
      newData)
  else
    (added.1, newData)

end LogicServer

end QCLib
