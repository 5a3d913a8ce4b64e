import QCLib.Net.Receive

/-!
# Envelopes

Between gate and logic server a packet travels inside another one, behind the ids of a user and of a
server. The functions of `base_define.h` that build such an envelope write into static buffers of
`MAX_BUFF_SIZE` bytes, one for each thread, and return a pointer to the start of the buffer; here
they take the old contents of the buffer and return the new ones. Data is a pointer like any other,
to the end of an allocation.

What they build is a **packet** with a command and a body, whatever the buffer held before
(`setMessage_eq`, `setSvrMessage_eq`). A packet arrives as it is however the stream is cut
(`arrives_packet`), and an envelope is unwrapped to the ids and the packet that went into it
(`unwrap_envelope`).

A packet under construction is a packet with some room behind it (`partialPacket`), and `push_back`
turns one into another. So a builder is a chain of such steps, whatever stands behind the packet in
the buffer. Reading is about the front of a list, and what was built is found there; the lengths are
32 or 64 bits wide as in the source, and the conditions are those under which they do not wrap.
-/

open Bytes StepRun

namespace QCLib

/-- `MAX_BUFF_SIZE`. -/
def maxBuffSize : Nat := 65535

/-- `MsgInServer`, which the gate puts in front of a player's packet: whose it is, and which server
it belongs to. -/
structure MsgInServer where
  userOnlyId : UserId
  serverId : ServerId
  deriving DecidableEq, Repr

/-- `MSGINSERVER_SIZE`. -/
def msginserverSize : Nat := 12

namespace MsgInServer

/-- The bytes of the structure, which is packed. -/
def bytes (h : MsgInServer) : List UInt8 :=
  bytesLE 8 h.userOnlyId.toUInt64.toNat ++ bytesLE 4 h.serverId.toUInt32.toNat

/-- `memcpy(&srvHdr, data, MSGINSERVER_SIZE)`. -/
def ofBytes (data : List UInt8) : Option MsgInServer := do
  let userOnlyId ← leAt 0 8 data
  let serverId ← leAt 8 4 data
  return ⟨(UInt64.ofNat userOnlyId).toInt64, (UInt32.ofNat serverId).toInt32⟩

end MsgInServer

namespace Message

/-! ### Writing -/

/-- Assignment to `m_header.m_data_len`. -/
def setDataLen (m : Message) (n : BitVec 32) : Option Message := memcpy m 0 (bytesLE 4 n.toNat) 4

/-- Assignment to `m_cmd.m_whole_cmd`. -/
def setWholeCmd (m : Message) (c : WholeCmd) : Option Message := memcpy m 8 (bytesLE 2 c.toNat) 2

/-- `push_back`: the data goes behind what the length in the header counts, and the length is
raised. -/
def pushBack (m : Message) (data : List UInt8) (len : BitVec 64) : Option Message := do
  let dataLen ← m.dataLen
  let m : Message ← memcpy m (cmdHeaderSize + cmdTypeSize + dataLen.toNat) data len.toNat
  let dataLen ← m.dataLen
  m.setDataLen (dataLen + len.setWidth 32)

end Message

/-- `SetMessage`: clear the buffer for a packet, set the command, and append the data. -/
def setMessage (szMsgCapacity : List UInt8) (wholeCmd : WholeCmd) (data : List UInt8)
    (len : BitVec 64) : Option Message := do
  let msg : Message ← memset szMsgCapacity (packetSize len).toNat
  let msg ← msg.setWholeCmd wholeCmd
  msg.pushBack data len

/-- What `SetServerMessageAck` and `SetOtherSvrMsg` have in common. -/
def setSvrMessage (szSvrMsgCapacity : List UInt8) (wholeCmd : WholeCmd) (svrid : ServerId)
    (userid : UserId) (data : List UInt8) (len : BitVec 64) : Option Message := do
  let packageLen := packetSize len
  let msg : Message ←
    memset szSvrMsgCapacity (packetSize (packageLen + BitVec.ofNat 64 msginserverSize)).toNat
  let msg ← msg.setWholeCmd wholeCmd
  let svrheader : MsgInServer := ⟨userid, svrid⟩
  let msg ← msg.pushBack svrheader.bytes (BitVec.ofNat 64 msginserverSize)
  msg.pushBack data packageLen

/-- `SetServerMessage`; it checks for a package of no length. -/
def setServerMessage (szSvrMsgCapacity : List UInt8) (svrid : ServerId) (userid : UserId)
    (data : List UInt8) (len : BitVec 64) : Option Message := do
  let packageLen := packetSize len
  let msg : Message ←
    memset szSvrMsgCapacity (packetSize (packageLen + BitVec.ofNat 64 msginserverSize)).toNat
  let msg ← msg.setWholeCmd WholeCmd.transit
  let svrheader : MsgInServer := ⟨userid, svrid⟩
  let msg ← msg.pushBack svrheader.bytes (BitVec.ofNat 64 msginserverSize)
  if packageLen ≠ 0 then msg.pushBack data packageLen else return msg

/-- `SetServerMessageAck`: the way back to a player. -/
def setServerMessageAck (szSvrMsgCapacity : List UInt8) (svrid : ServerId) (userid : UserId)
    (data : List UInt8) (len : BitVec 64) : Option Message :=
  setSvrMessage szSvrMsgCapacity WholeCmd.transitAck svrid userid data len

/-- `SetOtherSvrMsg`: the way from one server to another, under any command. -/
def setOtherSvrMsg (szSvrMsgCapacity : List UInt8) (wholeCmd : WholeCmd) (svrid : ServerId)
    (userid : UserId) (data : List UInt8) (len : BitVec 64) : Option Message :=
  setSvrMessage szSvrMsgCapacity wholeCmd svrid userid data len

/-! ### Reading -/

/-- What every receiver of an envelope does: copy the ids out of the data, and take a pointer to
what is behind them. -/
def Message.unwrap (msg : Message) : Option (MsgInServer × Message) := do
  let srvHdr ← MsgInServer.ofBytes msg.data
  return (srvHdr, msg.data.drop msginserverSize)

/-- `AnalyzeSvrMsg` of a message that is not null; the ids stay as they were if it is not between
servers. -/
def analyzeSvrMsg (msg : Message) (srvHdr : MsgInServer) :
    Option (WholeCmd × MsgInServer × Message) := do
  let wholeCmd ← msg.wholeCmd
  if wholeCmd.cmdType = WholeCmd.svrbase then
    let (srvHdr, msg) ← msg.unwrap
    return (wholeCmd, srvHdr, msg)
  else
    return (wholeCmd, srvHdr, msg)

/-- `ParseFromArray(m_data, m_data_len)`: the bytes that are parsed. -/
def Message.payload (msg : Message) : Option (List UInt8) := do
  let dataLen ← msg.dataLen
  if dataLen.toNat ≤ msg.data.length then return msg.data.take dataLen.toNat else none

/-! ### Packets -/

/-- The start of a buffer that is being filled: a command, the data so far, and zeros. -/
def partialPacket (cmd : WholeCmd) (body : List UInt8) (room : Nat) : Message :=
  bytesLE 4 body.length ++ (bytesLE 4 0 ++ bytesLE 2 cmd.toNat) ++ body ++ List.replicate room 0

/-- The packet with a command and a body. -/
def packet (cmd : WholeCmd) (body : List UInt8) : Message :=
  partialPacket cmd body (packetLen body.length - (10 + body.length))

/-- The packet that carries the ids and a packet inside. -/
def envelope (cmd : WholeCmd) (h : MsgInServer) (inner : List UInt8) : Message :=
  packet cmd (h.bytes ++ inner)

variable {cmd : WholeCmd} {body data rest buf : List UInt8} {room n : Nat} {svrid : ServerId}
  {userid : UserId}

@[simp] theorem length_partialPacket :
    (partialPacket cmd body room).length = 10 + body.length + room := by
  simp only [partialPacket, List.length_append, length_bytesLE, List.length_replicate]

theorem length_packet : (packet cmd body).length = packetLen body.length := by
  rw [packet, length_partialPacket, packetLen]
  omega

theorem dataLen_bytesLE (h : n < 2 ^ 32) :
    Message.dataLen (bytesLE 4 n ++ rest) = some (BitVec.ofNat 32 n) := by
  rw [Message.dataLen, leAt_bytesLE (by omega)]
  rfl

/-- The length field of a packet under construction is the length of what has been written so far.
-/
theorem dataLen_partialPacket (h : body.length < 2 ^ 32) :
    Message.dataLen (partialPacket cmd body room ++ rest) =
      some (BitVec.ofNat 32 body.length) := by
  simp only [partialPacket, List.append_assoc]
  exact dataLen_bytesLE h

theorem wholeCmd_partialPacket :
    Message.wholeCmd (partialPacket cmd body room ++ rest) = some cmd := by
  have h8 : (bytesLE 4 body.length ++ bytesLE 4 0).length = 8 := by
    rw [List.length_append, length_bytesLE, length_bytesLE]
  have hsplit : partialPacket cmd body room ++ rest =
      (bytesLE 4 body.length ++ bytesLE 4 0) ++
        (bytesLE 2 cmd.toNat ++ (body ++ List.replicate room 0 ++ rest)) := by
    simp only [partialPacket, List.append_assoc]
  rw [Message.wholeCmd, hsplit, ← Nat.add_zero 8, leAt_append_right h8,
    leAt_bytesLE cmd.toNat_lt, Option.map_some, UInt16.ofNat_toNat]

/-- Behind the header stand the body, the room, and what follows the packet. -/
theorem data_partialPacket :
    Message.data (partialPacket cmd body room ++ rest) =
      body ++ (List.replicate room 0 ++ rest) := by
  have h10 : (bytesLE 4 body.length ++ (bytesLE 4 0 ++ bytesLE 2 cmd.toNat)).length =
      cmdHeaderSize + cmdTypeSize := by
    simp only [List.length_append, length_bytesLE, cmdHeaderSize, cmdTypeSize]
  rw [Message.data, partialPacket, List.append_assoc, List.append_assoc, ← h10, List.drop_left]

/-! ### What the buffers hold in the end -/

/-- Assignment to the length changes the length. -/
private theorem setDataLen_eq {v : BitVec 32} :
    Message.setDataLen (bytesLE 4 n ++ rest) v = some (bytesLE 4 v.toNat ++ rest) := by
  have hlen : (bytesLE 4 v.toNat).length = 4 := length_bytesLE 4 _
  have hcopy : memcpy ([] ++ bytesLE 4 n ++ rest) ([] : List UInt8).length (bytesLE 4 v.toNat) 4 =
      some ([] ++ (bytesLE 4 v.toNat).take 4 ++ rest) :=
    memcpy_append (length_bytesLE 4 n) (Nat.le_of_eq hlen.symm)
  rw [List.take_of_length_le (Nat.le_of_eq hlen)] at hcopy
  exact hcopy

/-- **`push_back`** appends to the data, over what is behind it. -/
theorem pushBack_append (body rest data : List UInt8) (len : BitVec 64) {mid : List UInt8}
    (hmid : mid.length = 6)
    (hroom : len.toNat ≤ rest.length) (hdata : len.toNat ≤ data.length)
    (hsize : body.length + len.toNat < 2 ^ 32) :
    Message.pushBack (bytesLE 4 body.length ++ (mid ++ (body ++ rest))) data len =
      some (bytesLE 4 (body ++ data.take len.toNat).length ++
        (mid ++ (body ++ data.take len.toNat ++ rest.drop len.toNat))) := by
  have hlen : body.length < 2 ^ 32 := by omega
  have hread : Message.dataLen (bytesLE 4 body.length ++ (mid ++ (body ++ rest))) =
      some (BitVec.ofNat 32 body.length) := dataLen_bytesLE hlen
  have hsplit : bytesLE 4 body.length ++ (mid ++ (body ++ rest)) =
      (bytesLE 4 body.length ++ mid ++ body) ++ rest.take len.toNat ++ rest.drop len.toNat := by
    simp only [List.append_assoc, List.take_append_drop]
  have hpre : (bytesLE 4 body.length ++ mid ++ body).length =
      cmdHeaderSize + cmdTypeSize + (BitVec.ofNat 32 body.length).toNat := by
    simp only [List.length_append, length_bytesLE, hmid, cmdHeaderSize, cmdTypeSize,
      BitVec.toNat_ofNat]
    omega
  have hcopy : memcpy (bytesLE 4 body.length ++ (mid ++ (body ++ rest)))
      (cmdHeaderSize + cmdTypeSize + (BitVec.ofNat 32 body.length).toNat) data len.toNat =
        some (bytesLE 4 body.length ++
          (mid ++ (body ++ data.take len.toNat ++ rest.drop len.toNat))) := by
    rw [hsplit, ← hpre, memcpy_append (List.length_take_of_le hroom) hdata]
    simp only [List.append_assoc]
  have hsum : (BitVec.ofNat 32 body.length + len.setWidth 32).toNat =
      (body ++ data.take len.toNat).length := by
    rw [BitVec.toNat_add, BitVec.toNat_ofNat, BitVec.toNat_setWidth, List.length_append,
      List.length_take, Nat.min_eq_left hdata]
    omega
  simp only [Message.pushBack, hread, hcopy, dataLen_bytesLE hlen, setDataLen_eq, hsum,
    Option.bind_eq_bind, Option.bind_some]

/-- In a buffer that was cleared, it leaves zeros behind the data. -/
theorem pushBack_partialPacket {len : BitVec 64} (hroom : len.toNat ≤ room)
    (hdata : len.toNat ≤ data.length) (hsize : body.length + len.toNat < 2 ^ 32) :
    Message.pushBack (partialPacket cmd body room ++ rest) data len =
      some (partialPacket cmd (body ++ data.take len.toNat) (room - len.toNat) ++ rest) := by
  have hmid : (bytesLE 4 0 ++ bytesLE 2 cmd.toNat).length = 6 := by
    rw [List.length_append, length_bytesLE, length_bytesLE]
  have hpush := pushBack_append body (List.replicate room 0 ++ rest) data len hmid
    (by rw [List.length_append, List.length_replicate]; omega) hdata hsize
  rw [List.drop_append_of_le_length (by rwa [List.length_replicate]), List.drop_replicate] at hpush
  simpa only [partialPacket, List.append_assoc] using hpush

/-- Clearing a buffer and setting a command. -/
private theorem memset_setWholeCmd (h10 : 10 ≤ n) (hn : n ≤ buf.length) :
    (memset buf n).bind (fun msg ↦ Message.setWholeCmd msg cmd) =
      some (partialPacket cmd [] (n - 10) ++ buf.drop n) := by
  have hclear : memset buf n = some (List.replicate n 0 ++ buf.drop n) := by
    rw [memset, memcpy_of_le (by omega) (Nat.le_of_eq List.length_replicate.symm),
      List.take_of_length_le (Nat.le_of_eq List.length_replicate), Nat.zero_add]
    rfl
  have hsplit : List.replicate n (0 : UInt8) ++ buf.drop n = List.replicate 8 0 ++
      List.replicate 2 0 ++ (List.replicate (n - 10) 0 ++ buf.drop n) := by
    rw [← List.replicate_add, ← List.append_assoc, ← List.replicate_add, Nat.add_sub_cancel' h10]
  have hlen : (bytesLE 2 cmd.toNat).length = 2 := length_bytesLE 2 _
  have hcopy : memcpy (List.replicate 8 0 ++ List.replicate 2 0 ++
      (List.replicate (n - 10) 0 ++ buf.drop n)) (List.replicate 8 (0 : UInt8)).length
        (bytesLE 2 cmd.toNat) 2 = _ :=
    memcpy_append List.length_replicate (Nat.le_of_eq hlen.symm)
  rw [hclear, Option.bind_some, Message.setWholeCmd, hsplit]
  refine hcopy.trans ?_
  rw [List.take_of_length_le (Nat.le_of_eq hlen)]
  rfl

/-- **`SetMessage`** makes a packet of its data. -/
theorem setMessage_eq {len : BitVec 64} (hdata : len.toNat ≤ data.length)
    (hbuf : packetLen len.toNat ≤ buf.length) (hsize : buf.length ≤ maxBuffSize) :
    setMessage buf cmd data len =
      some (packet cmd (data.take len.toNat) ++ buf.drop (packetLen len.toNat)) := by
  have hle : len.toNat < 2 ^ 16 := by
    rw [packetLen] at hbuf
    rw [maxBuffSize] at hsize
    omega
  have h10 : 10 + len.toNat ≤ packetLen len.toNat := by
    rw [packetLen]
    omega
  rw [setMessage, toNat_packetSize_of_le (Or.inr rfl) (by omega)]
  show (memset buf (packetLen len.toNat)).bind (fun msg ↦ (Message.setWholeCmd msg cmd).bind
    fun msg ↦ Message.pushBack msg data len) = _
  rw [← Option.bind_assoc, memset_setWholeCmd (by omega) hbuf, Option.bind_some,
    pushBack_partialPacket (by omega) hdata (by rw [List.length_nil]; omega), List.nil_append,
    packet, List.length_take, Nat.min_eq_left hdata, Nat.sub_sub]

@[simp] theorem MsgInServer.length_bytes (h : MsgInServer) : h.bytes.length = msginserverSize := by
  rw [bytes, List.length_append, length_bytesLE, length_bytesLE, msginserverSize]

private theorem pushBack_bytes (h : MsgInServer) (hroom : msginserverSize ≤ room) :
    Message.pushBack (partialPacket cmd [] room ++ rest) h.bytes
      (BitVec.ofNat 64 msginserverSize) =
        some (partialPacket cmd h.bytes (room - msginserverSize) ++ rest) := by
  have htake : h.bytes.take msginserverSize = h.bytes :=
    List.take_of_length_le (Nat.le_of_eq h.length_bytes)
  have hlen : (BitVec.ofNat 64 msginserverSize).toNat = msginserverSize := rfl
  rw [pushBack_partialPacket (by rwa [hlen]) (by rw [hlen, h.length_bytes]) (by decide), hlen,
    htake,
    List.nil_append]

/-- The size of a packet whose length is that of a message. -/
theorem toNat_packetSize_of_lt {len : BitVec 64} (hlen : len.toNat < 2 ^ 32) :
    (packetSize len).toNat = packetLen len.toNat := by
  rw [toNat_packetSize (Or.inr rfl), packetLen]
  omega

/-- A packet is never empty, because its header is counted. -/
theorem packetSize_ne_zero {len : BitVec 64} (hlen : len.toNat < 2 ^ 32) : packetSize len ≠ 0 := by
  intro hzero
  have hpackage := toNat_packetSize_of_lt hlen
  rw [hzero, packetLen] at hpackage
  simp only [BitVec.toNat_zero, BitVec.ofNat_eq_ofNat] at hpackage
  omega

/-- The size of an envelope, computed in 64 bits and narrowed to 32, is the intended one as long as
that fits. -/
theorem toNat_envelopeSize {len : BitVec 64} (hlen : len.toNat < 2 ^ 32) :
    (packetSize (packetSize len + BitVec.ofNat 64 msginserverSize)).toNat =
      packetLen (packetLen len.toNat + msginserverSize) := by
  rw [toNat_packetSize (Or.inr rfl), BitVec.toNat_add, toNat_packetSize_of_lt hlen,
    BitVec.toNat_ofNat, msginserverSize, packetLen, packetLen]
  omega

/-- **An envelope** is built around the whole packet that starts at the data, whose length the
callers give as that of the data inside it. -/
theorem setSvrMessage_eq {len : BitVec 64} (hdata : packetLen len.toNat ≤ data.length)
    (hbuf : packetLen (packetLen len.toNat + msginserverSize) ≤ buf.length)
    (hsize : buf.length ≤ maxBuffSize) :
    setSvrMessage buf cmd svrid userid data len =
      some (envelope cmd ⟨userid, svrid⟩ (data.take (packetLen len.toNat)) ++
        buf.drop (packetLen (packetLen len.toNat + msginserverSize))) := by
  have hlen : len.toNat < 2 ^ 16 := by
    simp only [packetLen, msginserverSize, maxBuffSize] at hbuf hsize
    omega
  have hpackage : (packetSize len).toNat = packetLen len.toNat :=
    toNat_packetSize_of_lt (by omega)
  have hshort : packetLen len.toNat < 2 ^ 17 := by
    rw [packetLen]
    omega
  have hroom : 10 + (packetLen len.toNat + msginserverSize) ≤
      packetLen (packetLen len.toNat + msginserverSize) := by
    generalize packetLen len.toNat + msginserverSize = p
    rw [packetLen]
    omega
  have h12 : msginserverSize = 12 := rfl
  let svrheader : MsgInServer := ⟨userid, svrid⟩
  have hbytes : svrheader.bytes.length = msginserverSize := svrheader.length_bytes
  have hbody : (svrheader.bytes ++ data.take (packetLen len.toNat)).length =
      packetLen len.toNat + msginserverSize := by
    rw [List.length_append, hbytes, List.length_take, Nat.min_eq_left hdata, Nat.add_comm]
  rw [setSvrMessage, toNat_envelopeSize (by omega)]
  show (memset buf (packetLen (packetLen len.toNat + msginserverSize))).bind (fun msg ↦
    (Message.setWholeCmd msg cmd).bind fun msg ↦
      (Message.pushBack msg svrheader.bytes (BitVec.ofNat 64 msginserverSize)).bind fun msg ↦
        Message.pushBack msg data (packetSize len)) = _
  rw [← Option.bind_assoc, memset_setWholeCmd (by omega) hbuf, Option.bind_some,
    pushBack_bytes svrheader (by omega), Option.bind_some,
    pushBack_partialPacket (by omega) (by omega) (by rw [hbytes]; omega), hpackage, envelope,
    packet, hbody, Nat.sub_sub, Nat.sub_sub, Nat.add_comm msginserverSize]

/-- The check of `SetServerMessage` never fails for a length that a message can have. -/
theorem setServerMessage_eq {len : BitVec 64} (h : packetSize len ≠ 0) :
    setServerMessage buf svrid userid data len =
      setSvrMessage buf WholeCmd.transit svrid userid data len := by
  simp only [setServerMessage, setSvrMessage, if_pos h]

/-! ### Unwrapping -/

theorem MsgInServer.ofBytes_bytes (h : MsgInServer) : ofBytes (h.bytes ++ rest) = some h := by
  have huser : leAt 0 8 (h.bytes ++ rest) = some h.userOnlyId.toUInt64.toNat := by
    rw [bytes, List.append_assoc]
    exact leAt_bytesLE h.userOnlyId.toUInt64.toNat_lt
  have hserver : leAt 8 4 (h.bytes ++ rest) = some h.serverId.toUInt32.toNat := by
    rw [bytes, List.append_assoc, ← Nat.add_zero 8, leAt_append_right (length_bytesLE 8 _)]
    exact leAt_bytesLE h.serverId.toUInt32.toNat_lt
  simp only [ofBytes, huser, hserver, Option.bind_eq_bind, Option.bind_some, UInt64.ofNat_toNat,
    UInt32.ofNat_toNat]
  rfl

/-- **Unwrapping.** The ids come back, and behind them the packet, whatever follows the envelope. -/
theorem unwrap_envelope_append (cmd : WholeCmd) (h : MsgInServer) (inner rest : List UInt8) :
    ∃ pad, Message.unwrap (envelope cmd h inner ++ rest) = some (h, inner ++ pad) := by
  refine ⟨List.replicate
    (packetLen (h.bytes ++ inner).length - (10 + (h.bytes ++ inner).length)) 0 ++ rest, ?_⟩
  simp only [Message.unwrap, envelope, packet, data_partialPacket, List.append_assoc,
    MsgInServer.ofBytes_bytes, Option.bind_eq_bind, Option.bind_some]
  rw [List.drop_left' h.length_bytes]
  rfl

/-- **What `SetServerMessage` returns**, when it stays within its buffer and the data. -/
theorem setServerMessage_eq_some {len : BitVec 64} {outer : Message} (hlen : len.toNat < 2 ^ 32)
    (hsize : buf.length ≤ maxBuffSize)
    (h : setServerMessage buf svrid userid data len = some outer) :
    outer.length = buf.length ∧ packetLen len.toNat ≤ data.length ∧ ∃ pad, Message.unwrap outer =
      some (⟨userid, svrid⟩, data.take (packetLen len.toNat) ++ pad) := by
  have hpackage := toNat_packetSize_of_lt hlen
  rw [setServerMessage_eq (packetSize_ne_zero hlen)] at h
  obtain ⟨cleared, hclear, hrest⟩ := Option.bind_eq_some_iff.1 h
  obtain ⟨msg, -, hrest⟩ := Option.bind_eq_some_iff.1 hrest
  obtain ⟨msg', -, hpush⟩ := Option.bind_eq_some_iff.1 hrest
  obtain ⟨dataLen, -, hcopy⟩ := Option.bind_eq_some_iff.1 hpush
  obtain ⟨copied, hcopy, -⟩ := Option.bind_eq_some_iff.1 hcopy
  have hbuf := (le_of_memcpy hclear).1
  have hdata := (le_of_memcpy hcopy).2
  rw [toNat_envelopeSize hlen, Nat.zero_add] at hbuf
  rw [hpackage] at hdata
  rw [setSvrMessage_eq hdata hbuf hsize] at h
  obtain rfl := Option.some.inj h
  refine ⟨?_, hdata, unwrap_envelope_append _ _ _ _⟩
  rw [List.length_append, envelope, length_packet, List.length_append, MsgInServer.length_bytes,
    List.length_take_of_le hdata, List.length_drop, Nat.add_comm msginserverSize]
  omega

/-- The envelope alone is followed by padding. -/
theorem unwrap_envelope (cmd : WholeCmd) (h : MsgInServer) (inner : List UInt8) :
    ∃ pad, Message.unwrap (envelope cmd h inner) = some (h, inner ++ pad) := by
  obtain ⟨pad, hpad⟩ := unwrap_envelope_append cmd h inner []
  rw [List.append_nil] at hpad
  exact ⟨pad, hpad⟩

/-! ### Transport -/

/-- The message goes out, and arrives as a single one that satisfies `P`, however the stream is
cut. -/
def Arrives (outer : Message) (P : Message → Prop) : Prop :=
  ∃ out, msg2Buffer outer [] = some out ∧
    ∀ chunks : List (List UInt8), chunks.flatten = out → ∀ session n, 1 < n →
      ∃ m, P m ∧ run (TcpServer.deliver session n) ([], []) chunks = some ([⟨m, session⟩], []) ∧
        run (TcpClient.deliver n) ([], []) chunks = some ([m], [])

/-- **A packet arrives as it is**, without what is behind it in the sender's buffer. -/
theorem arrives_packet {P : Message → Prop} (hsize : body.length ≤ 2 ^ 31 - 25)
    (hP : P (packet cmd body)) : Arrives (packet cmd body ++ rest) P := by
  have hlen : (BitVec.ofNat 32 body.length).toNat = body.length := by
    rw [BitVec.toNat_ofNat]
    omega
  have hdata : Message.dataLen (packet cmd body ++ rest) = some (BitVec.ofNat 32 body.length) :=
    dataLen_partialPacket (by omega)
  have hdata' : Message.dataLen (packet cmd body) = some (BitVec.ofNat 32 body.length) := by
    rw [← List.append_nil (packet cmd body)]
    exact dataLen_partialPacket (by omega)
  have hpacket : (packet cmd body).length = packetLen (BitVec.ofNat 32 body.length).toNat := by
    rw [hlen, length_packet]
  have hframed : ∀ m ∈ [packet cmd body], m.Framed := by
    intro m hm
    rw [List.mem_singleton.1 hm]
    refine ⟨_, hdata', by omega, ?_⟩
    rw [toNat_packetSize_of_le (Or.inl rfl) (by omega), hpacket]
  refine ⟨packet cmd body, ?_, fun chunks hchunks session n hn ↦ ⟨packet cmd body, hP, ?_⟩⟩
  · rw [msg2Buffer_eq hdata (by omega) (by rw [List.length_append]; omega), List.nil_append,
      ← hpacket, List.take_left]
  · exact runs_of_framed hframed (by rw [hchunks, List.flatten_singleton]) hn

/-! ### The packet inside -/

variable {inner : Message} {k : Nat}

/-- The length field lies in the first ten bytes, so what is cut off behind them does not change it.
-/
theorem dataLen_take_append (h : 10 ≤ k) (hk : k ≤ inner.length) (pad : List UInt8) :
    Message.dataLen (inner.take k ++ pad) = inner.dataLen := by
  rw [Message.dataLen, Message.dataLen, leAt_take_append (by omega) hk]

/-- The command lies in the first ten bytes as well, and is not changed by a cut behind them. -/
theorem wholeCmd_take_append (h : 10 ≤ k) (hk : k ≤ inner.length) (pad : List UInt8) :
    Message.wholeCmd (inner.take k ++ pad) = inner.wholeCmd := by
  rw [Message.wholeCmd, Message.wholeCmd, leAt_take_append h hk]

/-- The payload is whole as long as the packet is cut behind it. -/
theorem payload_take_append {len : BitVec 32} (hlen : inner.dataLen = some len)
    (h : 10 + len.toNat ≤ k) (hk : k ≤ inner.length) (pad : List UInt8) :
    Message.payload (inner.take k ++ pad) = some (inner.data.take len.toNat) := by
  have hdata : Message.data (inner.take k ++ pad) = (inner.take k).drop 10 ++ pad := by
    rw [Message.data, cmdHeaderSize, cmdTypeSize, List.drop_append_of_le_length]
    rw [List.length_take_of_le hk]
    omega
  have hroom : len.toNat ≤ ((inner.take k).drop 10).length := by
    rw [List.length_drop, List.length_take_of_le hk]
    omega
  simp only [Message.payload, dataLen_take_append (show 10 ≤ k by omega) hk, hlen, hdata,
    Option.bind_eq_bind, Option.bind_some]
  rw [if_pos (by rw [List.length_append]; omega), List.take_append_of_le_length hroom,
    List.drop_take,
    List.take_take, Nat.min_eq_left (by omega)]
  rfl

end QCLib
