import QCLib.Net.Envelope

/-!
# The gate

What `GateManager` does with the packets of the logic servers (`OnGateServerMessage`): it registers
a server that logs in, answers its heartbeats, and forwards its answers to the players. The messages
of a login are protobuf messages; reading and writing them is a parameter.

With `Envelope` this makes the round trips: what the gate forwards to a logic server is unwrapped
there, and what a logic server sends to a player is unwrapped here and put on the player's
connection.

Two buffers of `MAX_BUFF_SIZE` bytes are used for every packet, and are not cleared as a whole in
between. So each result is for arbitrary contents of the buffers of the right length, and `Arrives`
says what a receiver makes of a packet wherever it stands in the memory. `envelope_roundTrip` takes
a packet all the way, for every packet that fits into the buffer.
-/

open Bytes

namespace QCLib

/-- `ReqLoginServer`, and `AckLoginServer`, which has the same members. -/
structure LoginServer where
  checkCode : Int32 := 0
  serverId : ServerId := 0
  serverType : Int32 := 0
  deriving DecidableEq, Repr

/-- How the library reads a `ReqLoginServer` and writes an `AckLoginServer`. -/
structure ServerProto where
  parseFromArray : List UInt8 → LoginServer
  serializeAsString : LoginServer → List UInt8

/-- `GateManager`, with the buffers of the thread that serves the logic servers. -/
structure GateManager where
  tcpClientListener : TcpServer
  tcpServerListener : TcpServer
  serverIdList : Std.ExtTreeMap ServerId SocketKey
  szMsgCapacity : List UInt8
  szSvrMsgCapacity : List UInt8

namespace GateManager

/-- What the case `SVRLOGIN_CMD` takes out of a packet: the ids, and what it parses. -/
def decodeSvrlogin (msg : Message) : Option (MsgInServer × List UInt8) := do
  let (srvHdr, newMsg) ← msg.unwrap
  let payload ← newMsg.payload
  return (srvHdr, payload)

variable (proto : ServerProto)

/-- The case `SVRLOGIN_CMD`. The session is not looked at unless the server is new. -/
def onSvrlogin (g : GateManager) (msg : Message) (conn : TcpConnectionPtr) :
    Option GateManager := do
  let (_, payload) ← decodeSvrlogin msg
  let addlogic := proto.parseFromArray payload
  if addlogic.serverId ∈ g.serverIdList then return g
  else
    let session ← g.tcpServerListener.session conn
    let dataString := proto.serializeAsString addlogic
    let innerMsg ← setMessage g.szMsgCapacity WholeCmd.svrloginAck (dataString ++ [0])
      (BitVec.ofNat 64 dataString.length)
    let dataLen ← innerMsg.dataLen
    let ack ← setOtherSvrMsg g.szSvrMsgCapacity WholeCmd.svrloginAck 1 0 innerMsg
      (dataLen.setWidth 64)
    let tcpServerListener ← g.tcpServerListener.sendMsg session.socketKey ack
    return { g with
      serverIdList := g.serverIdList.insert addlogic.serverId session.socketKey
      tcpServerListener := tcpServerListener.modifyContext conn fun session ↦
        { session with sessionServerId := addlogic.serverId }
      szMsgCapacity := innerMsg
      szSvrMsgCapacity := ack }

/-- The loop body of `OnGateServerMessage`. -/
def doServerMessage (g : GateManager) (msg : MsgFromClient) : Option GateManager := do
  let wholeCmd ← msg.message.wholeCmd
  if wholeCmd = WholeCmd.svrlogin then
    match g.tcpServerListener.context msg.userSession with
    | some _ => g.onSvrlogin proto msg.message msg.userSession
    | none => return g
  else if wholeCmd = WholeCmd.heart then
    match g.tcpServerListener.context msg.userSession with
    | some _ =>
      let session ← g.tcpServerListener.session msg.userSession
      let tcpServerListener ← g.tcpServerListener.sendMsg session.socketKey msg.message
      return { g with tcpServerListener }
    | none => return g
  else if wholeCmd = WholeCmd.transitAck then
    let (srvHdr, newMsg) ← msg.message.unwrap
    let tcpClientListener ← g.tcpClientListener.sendMsgToUser srvHdr.userOnlyId newMsg
    return { g with tcpClientListener }
  else return g

/-- `OnGateServerMessage`. -/
def onGateServerMessage (g : GateManager) (msgList : List MsgFromClient) : Option GateManager :=
  msgList.foldlM (doServerMessage proto) g

end GateManager

open GateManager

variable {proto : ServerProto} {cmd : WholeCmd} {svrid : ServerId} {userid : UserId}
  {buf msgBuf data : List UInt8} {inner : Message} {len : BitVec 32}

/-! ### The packet inside an envelope -/

/-- A message of a length that fits into an envelope. -/
private theorem len_of_fit (h : packetLen (packetLen len.toNat + msginserverSize) ≤ maxBuffSize) :
    len.toNat < 2 ^ 16 ∧ 10 + len.toNat ≤ packetLen len.toNat ∧ packetLen len.toNat < 2 ^ 16 := by
  simp only [packetLen, msginserverSize, maxBuffSize] at h ⊢
  omega

/-- **The envelope of a message**, from building it to what its receiver can see. -/
theorem exists_envelope (hinner : packetLen len.toNat ≤ inner.length)
    (hfit : packetLen (packetLen len.toNat + msginserverSize) ≤ maxBuffSize)
    (hbuf : buf.length = maxBuffSize) (cmd : WholeCmd) (svrid : ServerId) (userid : UserId) :
    ∃ outer, setSvrMessage buf cmd svrid userid inner (len.setWidth 64) = some outer ∧
      Arrives outer fun m ↦ m.wholeCmd = some cmd ∧ ∃ pad,
        m.unwrap = some (⟨userid, svrid⟩, inner.take (packetLen len.toNat) ++ pad) := by
  obtain ⟨hshort, hroom, hpack⟩ := len_of_fit hfit
  have hwidth : (len.setWidth 64).toNat = len.toNat := by
    rw [BitVec.toNat_setWidth]
    omega
  have hbody : (MsgInServer.bytes ⟨userid, svrid⟩ ++ inner.take (packetLen len.toNat)).length =
      msginserverSize + packetLen len.toNat := by
    rw [List.length_append, MsgInServer.length_bytes, List.length_take_of_le hinner]
  refine ⟨_, setSvrMessage_eq (by rwa [hwidth]) (by rwa [hwidth, hbuf]) (Nat.le_of_eq hbuf), ?_⟩
  rw [hwidth]
  refine arrives_packet ?_ ⟨?_, unwrap_envelope cmd _ _⟩
  · rw [hbody, msginserverSize]
    omega
  · rw [← List.append_nil (packet _ _), packet, wholeCmd_partialPacket]

/-- What arrives with a property arrives with every weaker one. -/
theorem Arrives.imp {outer : Message} {P Q : Message → Prop} (h : Arrives outer P)
    (himp : ∀ m, P m → Q m) : Arrives outer Q := by
  obtain ⟨out, hout, hchunks⟩ := h
  refine ⟨out, hout, fun chunks hc session n hn ↦ ?_⟩
  obtain ⟨m, hm, hruns⟩ := hchunks chunks hc session n hn
  exact ⟨m, himp m hm, hruns⟩

/-- A message on its way from one server to another, under any command. -/
theorem svr_roundTrip (hlen : inner.dataLen = some len)
    (hinner : packetLen len.toNat ≤ inner.length)
    (hfit : packetLen (packetLen len.toNat + msginserverSize) ≤ maxBuffSize)
    (hbuf : buf.length = maxBuffSize) (cmd : WholeCmd) (svrid : ServerId) (userid : UserId) :
    ∃ outer, setOtherSvrMsg buf cmd svrid userid inner (len.setWidth 64) = some outer ∧
      Arrives outer fun m ↦ m.wholeCmd = some cmd ∧
        decodeSvrlogin m = some (⟨userid, svrid⟩, inner.data.take len.toNat) ∧
        ∃ newMsg, newMsg.take (packetLen len.toNat) = inner.take (packetLen len.toNat) ∧
          m.unwrap = some (⟨userid, svrid⟩, newMsg) := by
  obtain ⟨hshort, hroom, hpack⟩ := len_of_fit hfit
  obtain ⟨outer, houter, harrives⟩ := exists_envelope hinner hfit hbuf cmd svrid userid
  refine ⟨outer, houter, harrives.imp fun m hm ↦ ?_⟩
  obtain ⟨hcmd, pad, hunwrap⟩ := hm
  refine ⟨hcmd, ?_, _, List.take_left' (List.length_take_of_le hinner), hunwrap⟩
  simp only [decodeSvrlogin, hunwrap, payload_take_append hlen hroom hinner, Option.bind_eq_bind,
    Option.bind_some]
  rfl

/-- A message that fits into an envelope can be made by `SetMessage`, and has its own length in it.
-/
theorem exists_setMessage {len : BitVec 64} (hdata : len.toNat ≤ data.length)
    (hfit : packetLen (packetLen len.toNat + msginserverSize) ≤ maxBuffSize)
    (hbuf : msgBuf.length = maxBuffSize) (cmd : WholeCmd) :
    ∃ inner : Message, setMessage msgBuf cmd data len = some inner ∧
      inner.dataLen = some (BitVec.ofNat 32 len.toNat) ∧ inner.wholeCmd = some cmd ∧
      inner.data.take len.toNat = data.take len.toNat ∧ packetLen len.toNat ≤ inner.length := by
  have hshort : len.toNat < 2 ^ 16 ∧ packetLen len.toNat ≤ maxBuffSize := by
    simp only [packetLen, msginserverSize, maxBuffSize] at hfit ⊢
    omega
  have htake : (data.take len.toNat).length = len.toNat := List.length_take_of_le hdata
  refine ⟨_, setMessage_eq hdata (by rw [hbuf]; exact hshort.2) (Nat.le_of_eq hbuf), ?_, ?_, ?_, ?_⟩
  · rw [packet, dataLen_partialPacket (by omega), htake]
  · exact wholeCmd_partialPacket
  · rw [packet, data_partialPacket, List.take_left' htake]
  · rw [List.length_append, length_packet, htake]
    exact Nat.le_add_right _ _

end QCLib
