import Mathlib.Tactic
import QCLib.Gate.GateManager
import QCLib.Logic.ChatModule

/-!
# How a logic server logs in to the gate

When the connection to the gate has come up, `LogicManager::OnClientEvent` sends a login. The gate
registers the server and sends the login back, in an envelope of the same kind
(`login_registers`). Both sides make their packets in the same way (`exists_svrlogin`), with
`SetMessage` and `SetOtherSvrMsg` over whatever is in their buffers.

The messages are protobuf messages; that the library reads a login as it was written is relied on.

`Answers` is the reply that the server waits for. What the gate does before it, in which table the
server is entered and under which key, comes from `Gate.ServerThread`; here one login is followed
from its making to its answer, and the condition on the library is that parsing undoes serializing.
-/

namespace QCLib

namespace LogicManager

/-- The login that `OnClientEvent` makes: `THIS_SERVER_ID`, `THIS_SERVER_TYPE` and
`SERVER_CHECK_NUM`. -/
def loginGate : LoginServer where
  checkCode := 0x55884433
  serverId := thisServerId
  serverType := 1

/-- What `OnClientEvent` sends in the case `TCP_EVENT_CONNECTED`. -/
def onConnected (proto : ServerProto) (szMsgCapacity szSvrMsgCapacity : List UInt8) :
    Option Message := do
  let loginGateString := proto.serializeAsString loginGate
  let innerMsg ← setMessage szMsgCapacity WholeCmd.svrlogin (loginGateString ++ [0])
    (BitVec.ofNat 64 loginGateString.length)
  let dataLen ← innerMsg.dataLen
  setOtherSvrMsg szSvrMsgCapacity WholeCmd.svrlogin 1 0 innerMsg (dataLen.setWidth 64)

end LogicManager

namespace GateManager

variable {proto : ServerProto} {buf msgBuf : List UInt8}

/-- **A login, or its answer**, as one server makes it for another, and what arrives of it. -/
theorem exists_svrlogin {data : List UInt8}
    (hfit : packetLen (packetLen data.length + msginserverSize) ≤ maxBuffSize)
    (hbuf : buf.length = maxBuffSize) (hmsgBuf : msgBuf.length = maxBuffSize) (cmd : WholeCmd) :
    ∃ inner dataLen outer,
      setMessage msgBuf cmd (data ++ [0]) (BitVec.ofNat 64 data.length) = some inner ∧
      inner.dataLen = some dataLen ∧
      setOtherSvrMsg buf cmd 1 0 inner (dataLen.setWidth 64) = some outer ∧
      Arrives outer fun m ↦ m.wholeCmd = some cmd ∧ decodeSvrlogin m = some (⟨0, 1⟩, data) := by
  have hshort : data.length < 2 ^ 16 := by
    simp only [packetLen, msginserverSize, maxBuffSize] at hfit
    omega
  have hlen : (BitVec.ofNat 64 data.length).toNat = data.length := by
    rw [BitVec.toNat_ofNat]
    omega
  have hnat : (BitVec.ofNat 32 data.length).toNat = data.length := by
    rw [BitVec.toNat_ofNat]
    omega
  have hdata : (BitVec.ofNat 64 data.length).toNat ≤ (data ++ [0]).length := by
    rw [hlen, List.length_append]
    omega
  obtain ⟨inner, hinner, hdataLen, -, htake, hroom⟩ :=
    exists_setMessage hdata (by rwa [hlen]) hmsgBuf cmd
  rw [hlen] at hdataLen htake hroom
  obtain ⟨outer, houter, harrives⟩ :=
    svr_roundTrip hdataLen (by rwa [hnat]) (by rwa [hnat]) hbuf cmd 1 0
  refine ⟨inner, _, outer, hinner, hdataLen, houter, harrives.imp fun m hm ↦ ⟨hm.1, ?_⟩⟩
  rw [hm.2.1, hnat, htake, List.take_left]

/-- The gate can answer a login on this connection. -/
structure Listens (g : GateManager) (conn : TcpConnectionPtr) (session : UserSession) : Prop where
  context : g.tcpServerListener.context conn = some session
  connection : g.tcpServerListener.connectionMap[session.socketKey]? = some conn
  msgCapacity : g.szMsgCapacity.length = maxBuffSize
  svrMsgCapacity : g.szSvrMsgCapacity.length = maxBuffSize

/-- A login, from a connection with a session, is the case `SVRLOGIN_CMD`. -/
theorem doServerMessage_svrlogin {g : GateManager} {conn : TcpConnectionPtr} {session : UserSession}
    {m : Message} (h : g.tcpServerListener.context conn = some session)
    (hcmd : m.wholeCmd = some WholeCmd.svrlogin) :
    g.doServerMessage proto ⟨m, conn⟩ = g.onSvrlogin proto m conn := by
  rw [doServerMessage, hcmd]
  dsimp only [Option.bind_eq_bind, Option.bind_some]
  rw [if_pos rfl, h]

/-- **A login is answered**: the server is registered, with the connection it has come from, and the
answer is put on this connection. -/
theorem exists_onSvrlogin {g : GateManager} {conn : TcpConnectionPtr} {session : UserSession}
    {m : Message} {login : LoginServer} {srvHdr : MsgInServer}
    (hproto : proto.parseFromArray (proto.serializeAsString login) = login)
    (hfit : packetLen (packetLen (proto.serializeAsString login).length + msginserverSize) ≤
      maxBuffSize)
    (h : g.Listens conn session) (hnew : login.serverId ∉ g.serverIdList)
    (hcmd : m.wholeCmd = some WholeCmd.svrlogin)
    (hdecode : decodeSvrlogin m = some (srvHdr, proto.serializeAsString login)) :
    ∃ g' ack out, g.doServerMessage proto ⟨m, conn⟩ = some g' ∧
      g'.serverIdList = g.serverIdList.insert login.serverId session.socketKey ∧
      g'.tcpServerListener = (g.tcpServerListener.send conn out).modifyContext conn (fun us ↦
        { us with sessionServerId := login.serverId }) ∧
      msg2Buffer ack [] = some out ∧
      Arrives ack fun a ↦ a.wholeCmd = some WholeCmd.svrloginAck ∧
        decodeSvrlogin a = some (⟨0, 1⟩, proto.serializeAsString login) := by
  obtain ⟨inner, dataLen, ack, hinner, hdataLen, hack, harrives⟩ :=
    exists_svrlogin hfit h.svrMsgCapacity h.msgCapacity WholeCmd.svrloginAck
  obtain ⟨out, hout, -⟩ := id harrives
  refine ⟨{ g with
    serverIdList := g.serverIdList.insert login.serverId session.socketKey
    tcpServerListener := (g.tcpServerListener.send conn out).modifyContext conn fun us ↦
      { us with sessionServerId := login.serverId }
    szMsgCapacity := inner
    szSvrMsgCapacity := ack }, ack, out, ?_, rfl, rfl, hout, harrives⟩
  have hsend : g.tcpServerListener.sendMsg session.socketKey ack =
      some (g.tcpServerListener.send conn out) := by
    rw [TcpServer.sendMsg, h.connection]
    dsimp only
    rw [hout]
    rfl
  rw [doServerMessage_svrlogin h.context hcmd, onSvrlogin, hdecode]
  dsimp only [Option.bind_eq_bind, Option.bind_some]
  rw [hproto, if_neg hnew, TcpServer.session_of_connectionMap h.connection, h.context]
  dsimp only [Option.bind_some]
  rw [hinner]
  dsimp only [Option.bind_some]
  rw [hdataLen]
  dsimp only [Option.bind_some]
  rw [hack]
  dsimp only [Option.bind_some]
  rw [hsend]
  rfl

/-- A server that is registered already is not answered. -/
theorem onSvrlogin_of_mem {g : GateManager} {conn : TcpConnectionPtr} {session : UserSession}
    {m : Message} {login : LoginServer} {srvHdr : MsgInServer}
    (hproto : proto.parseFromArray (proto.serializeAsString login) = login)
    (h : g.tcpServerListener.context conn = some session) (hmem : login.serverId ∈ g.serverIdList)
    (hcmd : m.wholeCmd = some WholeCmd.svrlogin)
    (hdecode : decodeSvrlogin m = some (srvHdr, proto.serializeAsString login)) :
    g.doServerMessage proto ⟨m, conn⟩ = some g := by
  rw [doServerMessage_svrlogin h hcmd, onSvrlogin, hdecode]
  dsimp only [Option.bind_eq_bind, Option.bind_some]
  rw [hproto, if_pos hmem]
  rfl

/-- What a gate makes of the login of a server that is new to it: the server is registered, with the
connection, and the same login is put on the connection. -/
structure Answers (proto : ServerProto) (login : LoginServer) (conn : TcpConnectionPtr)
    (session : UserSession) (g g' : GateManager) : Prop where
  registered : g'.serverIdList = g.serverIdList.insert login.serverId session.socketKey
  context : g'.tcpServerListener.context conn =
    some { session with sessionServerId := login.serverId }
  answer : ∃ ack out, msg2Buffer ack [] = some out ∧
    g'.tcpServerListener.sent conn = g.tcpServerListener.sent conn ++ out ∧
    Arrives ack fun a ↦ a.wholeCmd = some WholeCmd.svrloginAck ∧
      decodeSvrlogin a = some (⟨0, 1⟩, proto.serializeAsString login)

theorem answers_of_listens {login : LoginServer} {m : Message} {conn : TcpConnectionPtr}
    {session : UserSession} {g : GateManager} {srvHdr : MsgInServer}
    (hproto : proto.parseFromArray (proto.serializeAsString login) = login)
    (hfit : packetLen (packetLen (proto.serializeAsString login).length + msginserverSize) ≤
      maxBuffSize)
    (h : g.Listens conn session) (hnew : login.serverId ∉ g.serverIdList)
    (hcmd : m.wholeCmd = some WholeCmd.svrlogin)
    (hdecode : decodeSvrlogin m = some (srvHdr, proto.serializeAsString login)) :
    ∃ g', g.doServerMessage proto ⟨m, conn⟩ = some g' ∧
      Answers proto login conn session g g' := by
  obtain ⟨g', ack, out, hdo, hlist, hlistener, hout, harrives⟩ :=
    exists_onSvrlogin hproto hfit h hnew hcmd hdecode
  obtain ⟨c, hc, hsession⟩ := Option.map_eq_some_iff.1 h.context
  refine ⟨g', hdo, hlist, ?_, ack, out, hout, ?_, harrives⟩
  · rw [hlistener]
    simp [TcpServer.context, TcpServer.modifyContext, TcpServer.send, hc, hsession]
  · rw [hlistener]
    simp [TcpServer.sent, TcpServer.modifyContext, TcpServer.send, hc]

/-- **A logic server logs in.** When its connection to the gate has come up, it sends a login that
arrives, however the stream is cut; and the gate registers the server on this connection and answers
with the same login, or leaves everything as it is if the server is registered already. -/
theorem login_registers
    (hproto : proto.parseFromArray (proto.serializeAsString LogicManager.loginGate) =
      LogicManager.loginGate)
    (hfit : packetLen (packetLen (proto.serializeAsString LogicManager.loginGate).length +
      msginserverSize) ≤ maxBuffSize)
    (hbuf : buf.length = maxBuffSize) (hmsgBuf : msgBuf.length = maxBuffSize) :
    ∃ msg, LogicManager.onConnected proto msgBuf buf = some msg ∧
      Arrives msg fun m ↦ ∀ (g : GateManager) conn session, g.Listens conn session →
        ∃ g', g.doServerMessage proto ⟨m, conn⟩ = some g' ∧
          if thisServerId ∈ g.serverIdList then g' = g
          else Answers proto LogicManager.loginGate conn session g g' := by
  obtain ⟨inner, dataLen, msg, hinner, hdataLen, hmsg, harrives⟩ :=
    exists_svrlogin hfit hbuf hmsgBuf WholeCmd.svrlogin
  refine ⟨msg, ?_, harrives.imp fun m hm g conn session h ↦ ?_⟩
  · rw [LogicManager.onConnected, hinner]
    dsimp only [Option.bind_eq_bind, Option.bind_some]
    rw [hdataLen]
    exact hmsg
  · by_cases hmem : thisServerId ∈ g.serverIdList
    · exact ⟨g, onSvrlogin_of_mem hproto h.context hmem hm.1 hm.2, by rw [if_pos hmem]⟩
    · obtain ⟨g', hdo, hanswers⟩ := answers_of_listens hproto hfit h hmem hm.1 hm.2
      exact ⟨g', hdo, by rw [if_neg hmem]; exact hanswers⟩

/-- The library, as it writes and reads the login. -/
def loginProto : ServerProto where
  parseFromArray
    | [0x08, 0xb3, 0x88, 0xa1, 0xac, 0x05, 0x10, 0x01, 0x18, 0x01] => LogicManager.loginGate
    | _ => {}
  serializeAsString _ := [0x08, 0xb3, 0x88, 0xa1, 0xac, 0x05, 0x10, 0x01, 0x18, 0x01]

/-- A login on its way from one side to the other. -/
theorem login_registers_loginProto :
    ∃ msg, LogicManager.onConnected loginProto (.replicate maxBuffSize 0)
        (.replicate maxBuffSize 0) = some msg ∧
      Arrives msg fun m ↦ ∀ (g : GateManager) conn session, g.Listens conn session →
        ∃ g', g.doServerMessage loginProto ⟨m, conn⟩ = some g' ∧
          if thisServerId ∈ g.serverIdList then g' = g
          else Answers loginProto LogicManager.loginGate conn session g g' :=
  login_registers rfl (by decide) List.length_replicate List.length_replicate

end GateManager

end QCLib
