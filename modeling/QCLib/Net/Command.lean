import Mathlib

/-!
# Ids and commands

The number types that the servers exchange (`base_define.h`), and the command numbers of
`server_cmd.h` and `package_cmd.h` that the modelled functions use. A command is 16 bits: the main
command in the low byte, which selects a module, and the sub command in the high byte.

A command is a main command and a sub-command in one 16-bit word, and only those that the modelled
functions look at or send are here.
-/

namespace QCLib

/-- A user of the game; `0` is nobody. -/
abbrev UserId := Int64

/-- A server process. -/
abbrev ServerId := Int32

/-- A connection, numbered by the process that owns it. -/
abbrev SocketKey := Int64

/-- `m_whole_cmd`. -/
abbrev WholeCmd := UInt16

namespace WholeCmd

/-- `MAKE_CMD(cmd, sub)`. -/
def make (cmd sub : UInt16) : WholeCmd := cmd ||| sub <<< 8

/-- `m_cmd_type`, the main command. -/
def cmdType (c : WholeCmd) : UInt8 := c.toUInt8

/-! ### Between servers -/

/-- `SVRBASE_CMD`. -/
def svrbase : UInt8 := 0x0a

/-- `SVRLOGIN_CMD`: a server logs in to another. -/
def svrlogin : WholeCmd := make 0x0a 0x01

/-- `SVRLOGIN_ACK`. -/
def svrloginAck : WholeCmd := make 0x0a 0x02

/-- `TRANSIT_CMD`: a forwarded packet. -/
def transit : WholeCmd := make 0x0a 0x03

/-- `TRANSIT_ACK`: a forwarded answer. -/
def transitAck : WholeCmd := make 0x0a 0x04

/-- `HEART_CMD`. -/
def heart : WholeCmd := make 0xff 0xfe

/-- `USERLOGIN_CMD`: a player has gone offline. -/
def userlogin : WholeCmd := make 0x01 0xff

/-! ### From a player -/

/-- `PRE_LOGIN_CMD`: a player logs in to the gate. -/
def preLogin : WholeCmd := make 0x01 0x01

/-- `CHAT_CMD`, which goes back to players too. -/
def chat : WholeCmd := make 0x03 0x39

/-! ### To a player -/

/-- `PRE_LOGIN_ACK`. -/
def preLoginAck : WholeCmd := make 0x01 0x02

/-- `CREATE_ROLE_ACK`. -/
def createRoleAck : WholeCmd := make 0x01 0x04

/-- `ENTER_GAME_ACK`. -/
def enterGameAck : WholeCmd := make 0x01 0x06

/-- `ADDOBJ_CMD`: an object comes into view. -/
def addobj : WholeCmd := make 0x02 0x02

/-- `DELOBJ_CMD`: an object goes out of view. -/
def delobj : WholeCmd := make 0x02 0x03

/-- `MOVE_ACK`. -/
def moveAck : WholeCmd := make 0x02 0x05

end WholeCmd

end QCLib
