import QCLib.Logic.MapModule

/-!
# The login module and the runs of the server

`LoginModule` of `login_module.cpp`, and the system that the login and map modules form: the logic
thread takes one message after the other, finds the sender's player, and runs the handler.

A step is one message, handled as a whole, because the logic thread handles one after another. A
logout is a message too: it is what the gate sends when a connection has closed.
-/

namespace QCLib

/-- The messages of a user that the two modules handle. -/
inductive Event where
  | createRole (user : UserId) (cmd : ReqCreateRole)
  | enterGame (user : UserId) (cmd : ReqEnterGame)
  | clientReady (user : UserId)
  | move (user : UserId) (cmd : ReqMove)
  | logout (user : UserId)
  deriving DecidableEq, Repr

namespace LogicServer

variable {σ : Type} (nosql : NoSqlDBCache σ)

/-- `LoginModule::CreatePlayer`: store a new role of the user, and tell the client what it is. -/
def createPlayer (s : LogicServer σ) (userId : UserId) (createRole : ReqCreateRole) :
    LogicServer σ :=
  let newPlayer : PlayerDataMsg :=
    { userId, playerName := createRole.playername, playerJob := createRole.playerjob.toUInt32,
      playerCountry := createRole.playercountry.toUInt32 }
  let (s, newPlayer) := s.newAndSavePlayerData nosql newPlayer
  let playerInfo : PlayerInfo :=
    { playeronlyid := newPlayer.objectId, playername := newPlayer.playerName,
      playerlevel := newPlayer.playerLevel, playerjob := newPlayer.playerJob.toInt32,
      playercountry := newPlayer.playerCountry.toInt32,
      lastlogintime := newPlayer.lastLoginTime.toInt32 }
  s.sendMsgToPlayer userId .createRoleAck
    (.ackCreateRole { errorcode := 0, playercount := 1, playerInfoArray := [playerInfo] })

/-- `LoginModule::EnterGame`. Any role may be named, also another user's. -/
def enterGame (s : LogicServer σ) (userId : UserId) (enterCmd : ReqEnterGame) : LogicServer σ :=
  let objId := enterCmd.playeronlyid
  if objId > 0 ∧ s.havePlayerData objId then
    s.sendMsgToPlayer userId .enterGameAck (.ackEnterGame { errorcode := 0, tmpid := some objId })
  else
    let loaded := s.loadPlayerDataFromDb nosql objId
    if loaded.2 then
      loaded.1.sendMsgToPlayer userId .enterGameAck
        (.ackEnterGame { errorcode := 0, tmpid := some objId })
    else
      loaded.1.sendMsgToPlayer userId .enterGameAck (.ackEnterGame { errorcode := 1 })

/-- `LoginModule::ClientReady`: the user's role enters map 1. -/
def clientReady (s : LogicServer σ) (userId : UserId) : Option (LogicServer σ) :=
  s.addUserToMap 1 userId (s.getObjectId userId)

/-- `LoginModule::LoginOut`: the role leaves the map and the cache, if it is there. -/
def loginOut (s : LogicServer σ) (userId : UserId) : Option (LogicServer σ) :=
  let objId := s.getObjectId userId
  if s.havePlayerData objId then do
    let s ← s.delUserFromMap userId objId
    return (s.delPlayerData nosql objId).1
  else
    return s

/-- Handle one message, where its handler is defined. -/
def step (s : LogicServer σ) : Event → Option (LogicServer σ)
  | .createRole user cmd => some (s.createPlayer nosql user cmd)
  | .enterGame user cmd => some (s.enterGame nosql user cmd)
  | .clientReady user => s.clientReady user
  | .move user cmd => s.playerMove user (s.getObjectId user) cmd
  | .logout user => s.loginOut nosql user

end LogicServer

end QCLib
