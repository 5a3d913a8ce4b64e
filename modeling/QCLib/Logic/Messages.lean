import QCLib.Aoi.Tower
import QCLib.Net.Command

/-!
# Game messages

The protobuf messages that the login and map modules read and send, as records of the fields those
modules set or look at; an `Option` field is one that may be left unset. Encoding and decoding are
the protobuf library's.
-/

namespace QCLib

/-! ### From a client -/

/-- `ReqMove`, the payload of a `MOVE_CMD`. -/
structure ReqMove where
  curx : Int32 := 0
  cury : Int32 := 0
  pixelx : Int32 := 0
  pixely : Int32 := 0
  deriving DecidableEq, Repr

/-- `ReqCreateRole`. -/
structure ReqCreateRole where
  playername : String := ""
  playerjob : Int32 := 0
  playercountry : Int32 := 0
  deriving DecidableEq, Repr

/-- `ReqEnterGame`. -/
structure ReqEnterGame where
  playeronlyid : ObjectId := 0
  deriving DecidableEq, Repr

/-! ### To a client -/

/-- `MapLocation`. -/
structure MapLocation where
  mapid : Int64
  curx : Int32
  cury : Int32
  deriving DecidableEq, Repr

/-- `AckMove`. -/
structure AckMove where
  errorcode : Int32
  pixelx : Option Int32 := none
  pixely : Option Int32 := none
  tmpid : ObjectId
  location : MapLocation
  deriving DecidableEq, Repr

/-- `MapAddObject`. -/
structure MapAddObject where
  curx : Int32
  cury : Int32
  tmpid : ObjectId
  deriving DecidableEq, Repr

/-- `MapDelObject`. -/
structure MapDelObject where
  tmpid : ObjectId
  deriving DecidableEq, Repr

/-- `PlayerInfo`. -/
structure PlayerInfo where
  playername : String
  playerlevel : Int32
  playerjob : Int32
  playercountry : Int32
  playeronlyid : ObjectId
  lastlogintime : Int32
  deriving DecidableEq, Repr

/-- `AckCreateRole`. -/
structure AckCreateRole where
  errorcode : Int32
  playercount : Int32
  playerInfoArray : List PlayerInfo
  deriving DecidableEq, Repr

/-- `AckEnterGame`. -/
structure AckEnterGame where
  errorcode : Int32
  tmpid : Option ObjectId := none
  deriving DecidableEq, Repr

/-- The body of a message to a client. -/
inductive Body where
  | ackMove (body : AckMove)
  | mapAddObject (body : MapAddObject)
  | mapDelObject (body : MapDelObject)
  | ackCreateRole (body : AckCreateRole)
  | ackEnterGame (body : AckEnterGame)
  deriving DecidableEq, Repr

/-- A message on its way to a user. -/
structure Packet where
  user : UserId
  cmd : WholeCmd
  body : Body
  deriving DecidableEq, Repr

end QCLib
