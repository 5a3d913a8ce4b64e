import QCLib.Logic.DataCache

/-!
# The map module

`MapModule` of `map_module.cpp`. A player's view list holds the players it has been told about, and
the lists are meant to be mutual: the three routines that change them work on both sides at once,
following the differences that the area-of-interest manager reports.

The routines hold references into the cache. Two such references are one when they belong to the
same player, so here every access goes through the cache again.

The order of writes within a routine is that of the source, since a test may look at what an earlier
turn has written. Every message that is sent goes to the end of `sent`, with the user it is for;
what a client makes of its messages is the subject of `Logic.Pictures`.
-/

namespace QCLib

/-- `dstPoint`: the cell a move asks for, truncated to 16 bits. -/
def ReqMove.dstPoint (movecmd : ReqMove) : Point := ⟨movecmd.curx.toInt16, movecmd.cury.toInt16⟩

namespace LogicServer

variable {σ : Type}

/-- One turn of the loop of `SendDelViewPlayers`: both clients are told, each if it had the other in
view. -/
def delViewPlayer (s : LogicServer σ) (userId : UserId) (objId tempObjId : ObjectId) :
    LogicServer σ :=
  if tempObjId ∈ s.viewSet objId then
    let s := s.modifyViewSet objId (·.erase tempObjId)
    let s := s.sendMsgToPlayer userId .delobj (.mapDelObject ⟨tempObjId⟩)
    if (s.viewSet tempObjId).size > 0 ∧ objId ∈ s.viewSet tempObjId then
      let s := s.modifyViewSet tempObjId (·.erase objId)
      s.sendMsgToPlayer (s.getUserId tempObjId) .delobj (.mapDelObject ⟨objId⟩)
    else s
  else s

/-- `MapModule::SendDelViewPlayers`, which ends when nobody is left in view. -/
def sendDelViewPlayers (s : LogicServer σ) (userId : UserId) (objId : ObjectId) :
    List ObjectId → LogicServer σ
  | [] => s
  | tempObjId :: rest =>
    if (s.viewSet objId).size > 0 then
      (s.delViewPlayer userId objId tempObjId).sendDelViewPlayers userId objId rest
    else s

/-- Where a player is, as clients are told. -/
def location (mapData : PlayerMapData) : MapLocation :=
  ⟨mapData.mapId.toInt64, mapData.location.x.toInt32, mapData.location.y.toInt32⟩

/-- `MapModule::SendMoveViewPlayers`: whoever is in view is told of the move, and so is the one who
moves. -/
def sendMoveViewPlayers (s : LogicServer σ) (userId : UserId) (objId : ObjectId)
    (mapData : PlayerMapData) (movecmd : ReqMove) : LogicServer σ :=
  let movMeCmd : AckMove :=
    { errorcode := 0, tmpid := objId, pixelx := some movecmd.pixelx, pixely := some movecmd.pixely,
      location := location mapData }
  let sameWatcherUserlist := s.getUserIds (s.viewSet objId)
  let s := s.broadcastMsg sameWatcherUserlist .moveAck (.ackMove movMeCmd)
  s.sendMsgToPlayer userId .moveAck (.ackMove movMeCmd)

/-- The message that a player has come into view. -/
def addObject (id : ObjectId) (mapData : PlayerMapData) : Body :=
  .mapAddObject ⟨mapData.location.x.toInt32, mapData.location.y.toInt32, id⟩

/-- One turn of the loop of `SendAddViewPlayers`. The last test looks into the list of `objId`
again, where the list of the other one was meant. -/
def addViewPlayer (s : LogicServer σ) (userId : UserId) (objId : ObjectId)
    (mapData : PlayerMapData) (tempObjId : ObjectId) : LogicServer σ :=
  if (s.viewSet objId).size < maxViewCount ∧ tempObjId ∉ s.viewSet objId then
    match s.getPlayerMapData tempObjId with
    | some objMapData =>
      if (s.viewSet tempObjId).size < maxViewCount ∧ objId ∉ s.viewSet objId then
        let s := s.modifyViewSet objId (·.insert tempObjId)
        let s := s.sendMsgToPlayer userId .addobj (addObject tempObjId objMapData)
        let s := s.modifyViewSet tempObjId (·.insert objId)
        s.sendMsgToPlayer (s.getUserId tempObjId) .addobj (addObject objId mapData)
      else s
    | none => s
  else s

/-- `MapModule::SendAddViewPlayers`: everybody in the list is tried, and taken into view if there is
room. -/
def sendAddViewPlayers (s : LogicServer σ) (userId : UserId) (objId : ObjectId)
    (mapData : PlayerMapData) (addWatcherlist : List ObjectId) : LogicServer σ :=
  addWatcherlist.foldl (fun s tempObjId ↦ s.addViewPlayer userId objId mapData tempObjId) s

/-- Write through the pointer that `GetMapTowerAoi` returned. -/
def setTowerAoi (s : LogicServer σ) (toweraoi : TowerAoi) : LogicServer σ :=
  { s with map := { s.map with toweraoi } }

/-- The part of `PlayerMove` that follows the towers: tell the neighbours, and store the
location. -/
def moveViews (s : LogicServer σ) (userId : UserId) (objId : ObjectId) (mapData : PlayerMapData)
    (movecmd : ReqMove) (out : MoveSets) : LogicServer σ :=
  if (s.getViewListPlayerSet objId).2 then
    let s := s.sendDelViewPlayers userId objId out.wremove.toList
    let s := s.sendMoveViewPlayers userId objId mapData movecmd
    let mapData := { mapData with moveCount := mapData.moveCount + 1 }
    let s := s.sendAddViewPlayers userId objId mapData out.winsert.toList
    s.setPlayerMapData objId mapData
  else
    s.setPlayerMapData objId mapData

/-- `MapModule::PlayerMove`. Only a cell that can be walked on is moved to; any other request is
answered, under `DELOBJ_CMD`. -/
def playerMove (s : LogicServer σ) (userId : UserId) (objId : ObjectId) (movecmd : ReqMove) :
    Option (LogicServer σ) := do
  let dstPoint := movecmd.dstPoint
  let mapData := (s.getPlayerMapData objId).getD {}
  if ← s.map.isGridCanWalk mapData.mapId dstPoint then
    let mapAoi ← s.map.getMapTowerAoi mapData.mapId
    let (mapAoi, out) ← mapAoi.moveWatcher objId mapData.location dstPoint {}
    let s := s.setTowerAoi mapAoi
    return s.moveViews userId objId { mapData with location := dstPoint } movecmd out
  else
    let movMyObjCmd : AckMove := { errorcode := 0, tmpid := objId, location := location mapData }
    return s.sendMsgToPlayer userId .delobj (.ackMove movMyObjCmd)

/-- `MapModule::AddUserToMap`: the role enters the towers at its location, and the watchers there
come into view. -/
def addUserToMap (s : LogicServer σ) (mapId : MapId) (userId : UserId) (objId : ObjectId) :
    Option (LogicServer σ) :=
  match s.getPlayerMapData objId with
  | some mapData => do
    let mapAoi ← s.map.getMapTowerAoi mapId
    let (mapAoi, addWatcherlist, _) ← mapAoi.addWatcher objId mapData.location ∅ ∅
    let s := s.setTowerAoi mapAoi
    return s.sendAddViewPlayers userId objId mapData addWatcherlist.toList
  | none => return s

/-- `MapModule::DelUserFromMap`: the role leaves the towers, and the watchers there lose it from
view. -/
def delUserFromMap (s : LogicServer σ) (userId : UserId) (objId : ObjectId) :
    Option (LogicServer σ) :=
  match s.getPlayerMapData objId with
  | some mapData => do
    let mapAoi ← s.map.getMapTowerAoi mapData.mapId
    let (mapAoi, delWatcherlist, _) ← mapAoi.delWatcher objId mapData.location ∅ ∅
    let s := s.setTowerAoi mapAoi
    return s.sendDelViewPlayers userId objId delWatcherlist.toList
  | none => return s

end LogicServer

end QCLib
