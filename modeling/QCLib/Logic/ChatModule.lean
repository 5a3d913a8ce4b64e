import QCLib.Logic.DataCache
import QCLib.Net.BufferBounds

/-!
# The chat module

`ChatModule`: a chat message is sent back as it came, to everybody or to the one it is for. It is
put into a message by `SetMessage`, and that into an envelope for the gate by `SetServerMessageAck`,
both in static buffers. Reading the message is the protobuf library's.

Nothing on its way bounds its length: not the framing at the gate, not `SetServerMessage`, which
wraps it for the logic server, and not this module. All of them stay within their buffers exactly
for messages of at most 65494 bytes (`forwarded_inBuffer_iff`).

What is written on the way to one player is a list of regions (`Net.BufferBounds`), and
`inBuffer_sendWrites_iff` says when all of them lie in their buffers; a message to everybody repeats
it. The bound of 65494 bytes comes from the largest of them, with the headers and the padding of
both the packet and its envelope in it.
-/

open Bytes

namespace QCLib

/-- `ChatMessage`, as far as the module looks at it. -/
structure ChatMessage where
  chattype : Int32 := 0
  fromplayeronlyid : UserId := 0
  toplayeronlyid : UserId := 0
  deriving DecidableEq, Repr

/-- `CHAT_TYPE_PRIVATE`. -/
def chatTypePrivate : Int32 := 1

/-- `CHAT_TYPE_World`. -/
def chatTypeWorld : Int32 := 2

/-- `THIS_SERVER_ID`. -/
def thisServerId : ServerId := 1

/-- The logic server as the module sees it: `DataManager`, the static buffers of its thread, and
what it has sent to the gate. -/
structure ChatServer (σ : Type) where
  dataManager : LogicServer σ
  szMsgCapacity : List UInt8
  szSvrMsgCapacity : List UInt8
  sent : List Message := []

namespace LogicServer

variable {σ : Type}

/-- `GetAllUserId`: the users with a role in the index. -/
def getAllUserId (s : LogicServer σ) : List UserId := s.userObjectIdHash.keys

end LogicServer

namespace ChatServer

variable {σ : Type}

/-- `LogicManager::SendMsgToUser`, of a message that is not null. -/
def sendMsgToUser (s : ChatServer σ) (onlyId : UserId) (msg : Message) : Option (ChatServer σ) := do
  let dataLen ← msg.dataLen
  let packMsg ←
    setServerMessageAck s.szSvrMsgCapacity thisServerId onlyId msg (dataLen.setWidth 64)
  return { s with szSvrMsgCapacity := packMsg, sent := s.sent ++ [packMsg] }

/-- `SendMsgToPlayer`, of the bytes at a pointer. -/
def sendMsgToPlayer (s : ChatServer σ) (onlyId : UserId) (wholeCmd : WholeCmd) (szData : List UInt8)
    (len : BitVec 64) : Option (ChatServer σ) := do
  let msg ← setMessage s.szMsgCapacity wholeCmd szData len
  { s with szMsgCapacity := msg }.sendMsgToUser onlyId msg

/-- `ChatModule::SendResponse`: the message as it came, to each of the users. -/
def sendResponse (s : ChatServer σ) (users : List UserId) (pdata : List UInt8) (nlen : BitVec 32) :
    Option (ChatServer σ) :=
  users.foldlM (fun s user ↦ s.sendMsgToPlayer user .chat pdata (sizeT nlen)) s

/-- `ChatModule::ProcessChatMessage`: to everybody, or to one user who has a role here. Other types
are dropped. -/
def processChatMessage (s : ChatServer σ) (chatmsg : ChatMessage) (pdata : List UInt8)
    (nlen : BitVec 32) : Option (ChatServer σ) :=
  if chatmsg.chattype = chatTypeWorld then
    s.sendResponse s.dataManager.getAllUserId pdata nlen
  else if chatmsg.chattype = chatTypePrivate then
    if s.dataManager.getObjectId chatmsg.toplayeronlyid = 0 then some s
    else s.sendMsgToPlayer chatmsg.toplayeronlyid .chat pdata (sizeT nlen)
  else some s

/-- `ChatModule::DoModuleMessage`; the user of the envelope is not looked at. -/
def doModuleMessage (parseFromArray : List UInt8 → ChatMessage) (s : ChatServer σ) (msg : Message) :
    Option (ChatServer σ) := do
  let cmd ← msg.wholeCmd
  if cmd = .chat then
    let nlen ← msg.dataLen
    let payload ← msg.payload
    let chatmsg := parseFromArray payload
    if s.dataManager.getObjectId chatmsg.fromplayeronlyid = 0 then return s
    else s.processChatMessage chatmsg msg.data nlen
  else return s

/-- The users that a chat message is sent back to. -/
def recipients (s : LogicServer σ) (chatmsg : ChatMessage) : List UserId :=
  if s.getObjectId chatmsg.fromplayeronlyid = 0 then []
  else if chatmsg.chattype = chatTypeWorld then s.getAllUserId
  else if chatmsg.chattype = chatTypePrivate then
    if s.getObjectId chatmsg.toplayeronlyid = 0 then [] else [chatmsg.toplayeronlyid]
  else []

/-- The writes of `SendMsgToPlayer`: of `SetMessage`, and of `SetServerMessageAck` for the length
that this leaves in the message. -/
def sendWrites (len : BitVec 64) : List Region :=
  setMessageWrites len ++ setSvrMessageWrites ((len.setWidth 32).setWidth 64)

variable {s s' : ChatServer σ} {user : UserId} {data payload : List UInt8} {nlen : BitVec 32}
  {msg : Message} {parseFromArray : List UInt8 → ChatMessage}

/-- A chat message goes to each of its recipients, and to nobody else. -/
theorem doModuleMessage_eq (hcmd : msg.wholeCmd = some .chat) (hlen : msg.dataLen = some nlen)
    (hpayload : msg.payload = some payload) :
    doModuleMessage parseFromArray s msg =
      s.sendResponse (recipients s.dataManager (parseFromArray payload)) msg.data nlen := by
  simp only [doModuleMessage, hcmd, hlen, hpayload, Option.bind_eq_bind, Option.bind_some,
    if_true, processChatMessage, recipients]
  split_ifs
  · rfl
  · rfl
  · rfl
  · simp [sendResponse]
  · rfl

/-- **Sending** is within the buffers for 65494 bytes and less: it is the envelope that decides. -/
theorem inBuffer_sendWrites_iff : InBuffer (sendWrites (sizeT nlen)) ↔ nlen.toNat ≤ 65494 := by
  have hlt := nlen.isLt
  have hsize := toNat_sizeT nlen
  have hwidth : (((sizeT nlen).setWidth 32).setWidth 64).toNat = nlen.toNat := by
    rw [BitVec.toNat_setWidth, BitVec.toNat_setWidth, hsize]
    split_ifs <;> omega
  have hmsg : InBuffer (setMessageWrites (sizeT nlen)) ↔ nlen.toNat ≤ 65518 := by
    rw [inBuffer_setMessageWrites_iff, hsize]
    split_ifs <;> omega
  have hack := inBuffer_setSvrMessageWrites_iff (hwidth.trans_lt hlt)
  rw [hwidth] at hack
  rw [InBuffer, sendWrites, List.forall_mem_append, ← InBuffer, ← InBuffer, hmsg, hack]
  omega

/-- The static buffers are of the size they are declared with. -/
structure Sized (s : ChatServer σ) : Prop where
  szMsgCapacity : s.szMsgCapacity.length = maxBuffSize
  szSvrMsgCapacity : s.szSvrMsgCapacity.length = maxBuffSize

/-- A sending that is defined was short enough, and leaves the buffers as they are declared. -/
theorem sendMsgToPlayer_spec (hs : s.Sized)
    (h : s.sendMsgToPlayer user .chat data (sizeT nlen) = some s') :
    nlen.toNat ≤ 65494 ∧ s'.Sized := by
  have hlt := nlen.isLt
  have hsize := toNat_sizeT nlen
  obtain ⟨msg, hmsg, hsend⟩ := Option.bind_eq_some_iff.1 h
  obtain ⟨dataLen, hlen, hsend⟩ := Option.bind_eq_some_iff.1 hsend
  obtain ⟨outer, houter, hsend⟩ := Option.bind_eq_some_iff.1 hsend
  obtain rfl := Option.some.inj hsend
  obtain ⟨hlength, hmsgLen⟩ := of_setMessage hs.szMsgCapacity hmsg
  obtain rfl := Option.some.inj (hmsgLen.symm.trans hlen)
  have hin := ((setMessage_isSome_iff hs.szMsgCapacity).1
    (Option.isSome_iff_exists.2 ⟨msg, hmsg⟩)).1
  rw [inBuffer_setMessageWrites_iff] at hin
  have hnlen : nlen.toNat ≤ 65518 ∧ (sizeT nlen).toNat = nlen.toNat := by
    split_ifs at hsize <;> omega
  have hwidth : ((BitVec.ofNat 32 (sizeT nlen).toNat).setWidth 64).toNat = nlen.toNat := by
    rw [BitVec.toNat_setWidth, BitVec.toNat_ofNat, hnlen.2]
    omega
  have hshort := hwidth.trans_lt hlt
  have hack := ((setSvrMessage_isSome_iff hs.szSvrMsgCapacity hshort).1
    (Option.isSome_iff_exists.2 ⟨outer, houter⟩)).1
  rw [inBuffer_setSvrMessageWrites_iff hshort, hwidth] at hack
  exact ⟨hack, hlength, length_of_setSvrMessage hs.szSvrMsgCapacity hshort houter⟩

/-- A message of at most 65494 bytes that is all there can be sent to a player: its envelope fits
into the buffer. -/
theorem exists_sendMsgToPlayer (hs : s.Sized) (hle : nlen.toNat ≤ 65494)
    (hdata : nlen.toNat ≤ data.length) :
    ∃ s', s.sendMsgToPlayer user .chat data (sizeT nlen) = some s' := by
  have hsize : (sizeT nlen).toNat = nlen.toNat := by
    rw [toNat_sizeT, if_pos (by omega)]
  have hwidth : ((BitVec.ofNat 32 (sizeT nlen).toNat).setWidth 64).toNat = nlen.toNat := by
    rw [BitVec.toNat_setWidth, BitVec.toNat_ofNat, hsize]
    omega
  have hmsg : (setMessage s.szMsgCapacity .chat data (sizeT nlen)).isSome := by
    rw [setMessage_isSome_iff hs.szMsgCapacity, inBuffer_setMessageWrites_iff, hsize]
    exact ⟨by omega, hdata⟩
  obtain ⟨msg, hmsg⟩ := Option.isSome_iff_exists.1 hmsg
  obtain ⟨hlength, hlen⟩ := of_setMessage hs.szMsgCapacity hmsg
  have hshort : ((BitVec.ofNat 32 (sizeT nlen).toNat).setWidth 64).toNat < 2 ^ 32 := by omega
  have hack : (setServerMessageAck s.szSvrMsgCapacity thisServerId user msg
      ((BitVec.ofNat 32 (sizeT nlen).toNat).setWidth 64)).isSome := by
    rw [setServerMessageAck, setSvrMessage_isSome_iff hs.szSvrMsgCapacity hshort,
      inBuffer_setSvrMessageWrites_iff hshort, hwidth, hlength, packetLen, maxBuffSize]
    omega
  obtain ⟨outer, houter⟩ := Option.isSome_iff_exists.1 hack
  refine ⟨_, Option.bind_eq_some_iff.2 ⟨msg, hmsg, Option.bind_eq_some_iff.2 ⟨_, hlen,
    Option.bind_eq_some_iff.2 ⟨outer, houter, rfl⟩⟩⟩⟩

/-- **Sending to all of them** is defined exactly when there is nobody to send to, or the message is
short enough. -/
theorem sendResponse_isSome_iff {users : List UserId} (hs : s.Sized)
    (hdata : nlen.toNat ≤ data.length) :
    (s.sendResponse users data nlen).isSome ↔ users = [] ∨ nlen.toNat ≤ 65494 := by
  constructor
  · intro h
    cases users with
    | nil => exact .inl rfl
    | cons user users =>
      obtain ⟨s', hs'⟩ := Option.isSome_iff_exists.1 h
      obtain ⟨s₁, hfirst, -⟩ := Option.bind_eq_some_iff.1 (List.foldlM_cons.symm.trans hs')
      exact .inr (sendMsgToPlayer_spec hs hfirst).1
  · rintro (rfl | hle)
    · rfl
    · induction users generalizing s with
      | nil => rfl
      | cons user users ih =>
        obtain ⟨s₁, hfirst⟩ : ∃ s₁, s.sendMsgToPlayer user .chat data (sizeT nlen) = some s₁ :=
          exists_sendMsgToPlayer hs hle hdata
        rw [sendResponse, List.foldlM_cons, hfirst]
        exact ih (sendMsgToPlayer_spec hs hfirst).2

/-- **The chat handler** stays within the buffers exactly when the message is for nobody, or is
short enough. -/
theorem doModuleMessage_isSome_iff (hs : s.Sized) (hcmd : msg.wholeCmd = some .chat)
    (hlen : msg.dataLen = some nlen) (hpayload : msg.payload = some payload) :
    (doModuleMessage parseFromArray s msg).isSome ↔
      recipients s.dataManager (parseFromArray payload) = [] ∨ nlen.toNat ≤ 65494 := by
  have hdata : nlen.toNat ≤ msg.data.length := by
    simp only [Message.payload, hlen, Option.bind_eq_bind, Option.bind_some] at hpayload
    split_ifs at hpayload with hroom
    exact hroom
  rw [doModuleMessage_eq hcmd hlen hpayload, sendResponse_isSome_iff hs hdata]

/-- **Forwarding stays within its buffers** exactly for at most 65494 bytes of data: of a packet
that the framing delivers, while the gate wraps it for a logic server; and of a chat message, for as
many as it is sent back to. -/
theorem forwarded_inBuffer_iff {σ : Type} :
    (∀ (buf rest : Buffer) (msg : Message) (len : BitVec 32), enouthData buf = true →
      newMsgFormBuffer buf = some (msg, rest) → msg.dataLen = some len → 0 ≤ len.toInt →
        (InBuffer (setServerMessageWrites (len.setWidth 64)) ↔ len.toNat ≤ 65494)) ∧
    ∀ (s : ChatServer σ) (parseFromArray : List UInt8 → ChatMessage) (msg : Message)
      (nlen : BitVec 32) (payload : List UInt8), msg.wholeCmd = some .chat →
        msg.dataLen = some nlen → msg.payload = some payload →
          ((∀ user ∈ recipients s.dataManager (parseFromArray payload),
            InBuffer (sendWrites (sizeT nlen))) ↔
            recipients s.dataManager (parseFromArray payload) = [] ∨ nlen.toNat ≤ 65494) := by
  refine ⟨fun buf rest msg len _ _ _ _ ↦ ?_, fun s parseFromArray msg nlen payload _ _ _ ↦ ?_⟩
  · have hwidth : (len.setWidth 64).toNat = len.toNat := by
      rw [BitVec.toNat_setWidth]
      omega
    have hshort : (len.setWidth 64).toNat < 2 ^ 32 := hwidth.trans_lt len.isLt
    rw [setServerMessageWrites_eq hshort, inBuffer_setSvrMessageWrites_iff hshort, hwidth]
  · rw [inBuffer_sendWrites_iff]
    constructor
    · intro h
      rcases hto : recipients s.dataManager (parseFromArray payload) with _ | ⟨user, users⟩
      · exact .inl rfl
      · exact .inr (h user (by rw [hto]; exact List.mem_cons_self))
    · rintro (hnone | hle) user huser
      · rw [hnone] at huser
        exact absurd huser List.not_mem_nil
      · exact hle

/-- The map of the examples can be made. -/
theorem isSome_testTnit_thirty : (GameMap.testTnit 30 30).isSome := by decide +kernel

/-- A logic server with one player. -/
def sampleServer : ChatServer Unit where
  dataManager :=
    { LogicServer.start ((GameMap.testTnit 30 30).get isSome_testTnit_thirty) 0 () with
      userObjectIdHash := (∅ : Std.ExtTreeMap UserId ObjectId).insert 7 1 }
  szMsgCapacity := List.replicate maxBuffSize 0
  szSvrMsgCapacity := List.replicate maxBuffSize 0

/-- A packet with two bytes of data, and a chat message of two bytes to everybody. -/
theorem inBuffer_of_two :
    (InBuffer (setServerMessageWrites ((2 : BitVec 32).setWidth 64)) ↔
      (2 : BitVec 32).toNat ≤ 65494) ∧
    ((∀ user ∈ recipients sampleServer.dataManager ⟨chatTypeWorld, 7, 0⟩,
      InBuffer (sendWrites (sizeT 2))) ↔
      recipients sampleServer.dataManager ⟨chatTypeWorld, 7, 0⟩ = [] ∨
        (2 : BitVec 32).toNat ≤ 65494) :=
  ⟨(@forwarded_inBuffer_iff Unit).1 (packet .chat [8, 2]) [] (packet .chat [8, 2]) 2
      (by decide) (by decide) (by decide) (by decide),
    (@forwarded_inBuffer_iff Unit).2 sampleServer (fun _ ↦ ⟨chatTypeWorld, 7, 0⟩)
      (packet .chat [8, 2]) 2 [8, 2] (by decide) (by decide) (by decide)⟩

/-- A player's packet with 65500 bytes of data, all of it there. -/
theorem not_inBuffer_of_65500 : ∃ (buf rest : Buffer) (msg : Message),
    buf = bytesLE 4 65500 ++ List.replicate 65508 0 ∧ enouthData buf = true ∧
      newMsgFormBuffer buf = some (msg, rest) ∧ msg.dataLen = some 65500 ∧
        ¬ InBuffer (setServerMessageWrites ((65500 : BitVec 32).setWidth 64)) := by
  have hfront : frontLen (bytesLE 4 65500 ++ List.replicate 65508 0) = 65500 := by
    rw [frontLen, List.take_left' (length_bytesLE 4 _), natLE_bytesLE (by decide)]
    rfl
  have hsize : frontSize (bytesLE 4 65500 ++ List.replicate 65508 0) = 65512 := by
    rw [frontSize, hfront]
    decide
  have hlen : (bytesLE 4 65500 ++ List.replicate 65508 (0 : UInt8)).length = 65512 := by
    rw [List.length_append, length_bytesLE, List.length_replicate]
  have henouth : enouthData (bytesLE 4 65500 ++ List.replicate 65508 0) = true := by
    rw [enouthData_iff, hlen, hsize]
    decide
  refine ⟨_, _, _, rfl, henouth, (newMsgFormBuffer_eq_some_iff henouth).2 ⟨?_, rfl, rfl⟩, ?_, ?_⟩
  · rw [hfront, allocates_iff]
    decide
  · rw [hsize, List.take_of_length_le (Nat.le_of_eq hlen), dataLen_bytesLE (by decide)]
    rfl
  · rw [setServerMessageWrites_eq (by decide), inBuffer_setSvrMessageWrites_iff (by decide)]
    decide

end ChatServer

end QCLib
