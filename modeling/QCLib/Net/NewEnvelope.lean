import QCLib.Net.BufferBounds

/-!
# An envelope in a new block

`SetServerNewMessage` builds the envelope that `SetServerMessage` builds, in a block from `new`
instead of the static buffer. `NewMessage` clears its block and `SetServerMessage` its buffer, but
nothing clears this one, and `push_back` reads the length that it adds to.

So what the memory held before decides. The block is the envelope exactly if the eight bytes of the
header were zero, and the two that are left over behind the packet inside (`envelopesAgree_iff`).

The memory that `new` returns is a parameter of which nothing is assumed, and `envelopesAgree_iff`
is an equivalence in its contents. On a block of zeros the function does what its sibling does
(`setServerNewMessage_of_zero`), so the only difference between the two is the missing `memset`.
-/

open Bytes

namespace QCLib

/-- What `new char[bufsize]` returns, where the memory has not been written to. -/
def newBlock (memory : Nat → UInt8) (bufsize : Nat) : List UInt8 := (List.range bufsize).map memory

/-- `SetServerNewMessage`, which allocates its envelope. The block is not cleared, so it holds
whatever the memory held. -/
def setServerNewMessage (memory : Nat → UInt8) (svrid : ServerId) (userid : UserId)
    (data : List UInt8) (len : BitVec 64) : Option Message := do
  let packageLen := packetSize len
  let bufsize := packetSize (packageLen + BitVec.ofNat 64 msginserverSize)
  let msg : Message := newBlock memory bufsize.toNat
  let msg ← msg.setWholeCmd WholeCmd.transit
  let svrheader : MsgInServer := ⟨userid, svrid⟩
  let msg ← msg.pushBack svrheader.bytes (BitVec.ofNat 64 msginserverSize)
  if packageLen ≠ 0 then msg.pushBack data packageLen else return msg

/-- `AnalyzeSvrMsg` recovers the ids and the packet, whatever the ids were set to. -/
def Recovers (outer : Message) (svrid : ServerId) (userid : UserId) (inner : List UInt8) : Prop :=
  ∀ srvHdr, ∃ pad,
    analyzeSvrMsg outer srvHdr = some (WholeCmd.transit, ⟨userid, svrid⟩, inner ++ pad)

/-- Both functions stay within their memory, and make the same `PACKET_SIZE(m_data_len)` bytes, from
which the same is recovered. -/
def EnvelopesAgree (memory : Nat → UInt8) (szSvrMsgCapacity : List UInt8) (svrid : ServerId)
    (userid : UserId) (data : List UInt8) (len : BitVec 64) : Prop :=
  ∃ newMsg msg n, setServerNewMessage memory svrid userid data len = some newMsg ∧
    setServerMessage szSvrMsgCapacity svrid userid data len = some msg ∧
    newMsg.dataLen = some n ∧ msg.dataLen = some n ∧
    (packetSize n).toNat ≤ newMsg.length ∧
    newMsg.take (packetSize n).toNat = msg.take (packetSize n).toNat ∧
    Recovers newMsg svrid userid (data.take (packetLen len.toNat)) ∧
    Recovers msg svrid userid (data.take (packetLen len.toNat))

variable {memory : Nat → UInt8} {n k off : Nat} {bs cs data buf : List UInt8} {len : BitVec 64}
  {svrid : ServerId} {userid : UserId} {m m' : Message} {d : BitVec 32} {inner : List UInt8}

/-! ### Blocks -/

@[simp] theorem length_newBlock : (newBlock memory n).length = n := by
  rw [newBlock, List.length_map, List.length_range]

/-- Some bytes of a block are zero if the memory is zero there. -/
theorem drop_take_newBlock_eq_iff (memory : Nat → UInt8) (off k n : Nat) (h : off + k ≤ n) :
    ((newBlock memory n).drop off).take k = List.replicate k 0 ↔
      ∀ i, off ≤ i → i < off + k → memory i = 0 := by
  have hlen : (((newBlock memory n).drop off).take k).length = k := by
    rw [List.length_take, List.length_drop, length_newBlock]
    omega
  rw [List.eq_replicate_iff, and_iff_right hlen, List.forall_mem_iff_getElem]
  constructor
  · intro hzero i hoff hi
    have hget := hzero (i - off) (by omega)
    simpa only [newBlock, List.getElem_take, List.getElem_drop, List.getElem_map,
      List.getElem_range, Nat.add_sub_cancel' hoff] using hget
  · intro hzero i hi
    simp only [newBlock, List.getElem_take, List.getElem_drop, List.getElem_map,
      List.getElem_range]
    exact hzero _ (by omega) (by omega)

/-- Only zeros spell zero. -/
theorem eq_replicate_of_natLE (h : natLE bs = 0) : bs = List.replicate bs.length 0 := by
  induction bs with
  | nil => rfl
  | cons b bs ih =>
    rw [natLE] at h
    have hb : b = 0 := UInt8.toNat_inj.1 (by rw [UInt8.toNat_zero]; omega)
    rw [List.length_cons, List.replicate_succ, hb, ← ih (by omega)]

/-- A number that was read from some bytes fits into them. -/
theorem natLE_lt (bs : List UInt8) : natLE bs < 256 ^ bs.length := by
  induction bs with
  | nil => exact Nat.one_pos
  | cons b bs ih =>
    have hb := b.toNat_lt
    rw [natLE, List.length_cons, Nat.pow_succ]
    omega

/-! ### The length is added to -/

theorem dataLen_memcpy {src : List UInt8} (hoff : 4 ≤ off) (h : memcpy m off src n = some m') :
    m'.dataLen = m.dataLen := by
  obtain ⟨hdst, hsrc⟩ := le_of_memcpy h
  rw [memcpy_of_le hdst hsrc] at h
  obtain rfl := Option.some.inj h
  rw [Message.dataLen, Message.dataLen, List.append_assoc, leAt_take_append hoff (by omega)]

/-- Appending changes no length, because the room was there before. -/
theorem length_pushBack (h : Message.pushBack m data len = some m') : m'.length = m.length := by
  obtain ⟨d, -, hrest⟩ := Option.bind_eq_some_iff.1 h
  obtain ⟨copied, hcopy, hrest⟩ := Option.bind_eq_some_iff.1 hrest
  obtain ⟨d', -, hset⟩ := Option.bind_eq_some_iff.1 hrest
  rw [length_of_memcpy hset, length_of_memcpy hcopy]

/-- **`push_back`** adds to the length that it finds. -/
theorem dataLen_pushBack (h : Message.pushBack m data len = some m') (hd : m.dataLen = some d) :
    m'.dataLen = some (d + len.setWidth 32) := by
  obtain ⟨d', hd', hrest⟩ := Option.bind_eq_some_iff.1 h
  obtain rfl := Option.some.inj (hd'.symm.trans hd)
  obtain ⟨copied, hcopy, hrest⟩ := Option.bind_eq_some_iff.1 hrest
  obtain ⟨d'', hd'', hset⟩ := Option.bind_eq_some_iff.1 hrest
  rw [dataLen_memcpy (by simp only [cmdHeaderSize, cmdTypeSize]; omega) hcopy, hd] at hd''
  obtain rfl := Option.some.inj hd''
  obtain ⟨hdst, hsrc⟩ := le_of_memcpy hset
  rw [Message.setDataLen, memcpy_of_le hdst hsrc] at hset
  obtain rfl := Option.some.inj hset
  rw [List.take_zero, List.nil_append,
    List.take_of_length_le (Nat.le_of_eq (length_bytesLE 4 _)),
    dataLen_bytesLE (BitVec.isLt _), BitVec.ofNat_toNat, BitVec.setWidth_eq]

/-- The builder, step by step, when the length does not wrap. -/
theorem setServerNewMessage_eq (hlen : len.toNat < 2 ^ 32) :
    setServerNewMessage memory svrid userid data len =
      (Message.setWholeCmd (newBlock memory (packetLen (packetLen len.toNat + msginserverSize)))
        WholeCmd.transit).bind fun msg ↦
          (Message.pushBack msg (MsgInServer.bytes ⟨userid, svrid⟩)
            (BitVec.ofNat 64 msginserverSize)).bind fun msg ↦
              Message.pushBack msg data (packetSize len) := by
  simp only [setServerNewMessage, toNat_envelopeSize hlen, if_pos (packetSize_ne_zero hlen)]
  rfl

theorem envelopeLen_le (n : Nat) : 10 + (msginserverSize + packetLen n) ≤
    packetLen (packetLen n + msginserverSize) := by
  generalize packetLen n = p
  rw [packetLen, msginserverSize]
  omega

/-- The length in the message is that of the data if the length in the memory was zero. -/
theorem dataLen_setServerNewMessage (hlen : len.toNat < 2 ^ 32)
    (h : setServerNewMessage memory svrid userid data len = some m) :
    ∃ d, Message.dataLen (newBlock memory (packetLen (packetLen len.toNat + msginserverSize))) =
      some d ∧ m.dataLen = some (d + BitVec.ofNat 32 (packetLen len.toNat + msginserverSize)) := by
  have hroom := envelopeLen_le len.toNat
  let block := newBlock memory (packetLen (packetLen len.toNat + msginserverSize))
  have hread : leAt 0 4 block = some (natLE ((block.drop 0).take 4)) :=
    leAt_of_le (by rw [length_newBlock]; omega)
  rw [setServerNewMessage_eq hlen] at h
  obtain ⟨named, hname, hrest⟩ := Option.bind_eq_some_iff.1 h
  obtain ⟨headed, hhead, hpush⟩ := Option.bind_eq_some_iff.1 hrest
  refine ⟨_, by rw [Message.dataLen, hread, Option.map_some], ?_⟩
  have hnamed := dataLen_memcpy (by omega) hname
  rw [Message.dataLen, Message.dataLen, hread, Option.map_some] at hnamed
  rw [dataLen_pushBack hpush (dataLen_pushBack hhead hnamed), BitVec.add_assoc]
  congr 2
  refine BitVec.eq_of_toNat_eq ?_
  rw [BitVec.toNat_add, BitVec.toNat_setWidth, BitVec.toNat_setWidth, toNat_packetSize_of_lt hlen,
    BitVec.toNat_ofNat, BitVec.toNat_ofNat, msginserverSize]
  omega

/-- Setting the command leaves the eight bytes before it. -/
theorem setWholeCmd_of_zero {cmd : WholeCmd} (h10 : 10 ≤ bs.length)
    (hzero : bs.take 4 = bytesLE 4 0) : Message.setWholeCmd bs cmd =
      some (bytesLE 4 0 ++ ((bs.drop 4).take 4 ++ bytesLE 2 cmd.toNat ++ bs.drop 10)) := by
  have hcmd : (bytesLE 2 cmd.toNat).length = 2 := length_bytesLE 2 _
  have htake : bs.take (4 + 4) = bytesLE 4 0 ++ (bs.drop 4).take 4 := by
    rw [← hzero, List.take_add]
  rw [Message.setWholeCmd, memcpy_of_le (by omega) (Nat.le_of_eq hcmd.symm),
    List.take_of_length_le (Nat.le_of_eq hcmd), htake, List.append_assoc, List.append_assoc,
    List.append_assoc]

/-- **Where the length was zero**, the ids and the packet inside are where they belong, between the
bytes that are not written. -/
theorem setServerNewMessage_of_zero (hlen : len.toNat ≤ 65494)
    (hdata : packetLen len.toNat ≤ data.length)
    (hzero : (newBlock memory (packetLen (packetLen len.toNat + msginserverSize))).take 4 =
      bytesLE 4 0) :
    let block := newBlock memory (packetLen (packetLen len.toNat + msginserverSize))
    let body := MsgInServer.bytes ⟨userid, svrid⟩ ++ data.take (packetLen len.toNat)
    setServerNewMessage memory svrid userid data len =
      some (bytesLE 4 body.length ++ ((block.drop 4).take 4 ++ bytesLE 2 WholeCmd.transit.toNat ++
        (body ++ block.drop (10 + body.length)))) := by
  intro block body
  have hroom := envelopeLen_le len.toNat
  have hpackage : (packetSize len).toNat = packetLen len.toNat := toNat_packetSize_of_lt (by omega)
  have hp : packetLen len.toNat ≤ 65511 := by
    rw [packetLen]
    omega
  let svrheader : MsgInServer := ⟨userid, svrid⟩
  have hbytes : svrheader.bytes.length = msginserverSize := svrheader.length_bytes
  have hsize : msginserverSize = 12 := rfl
  have hblock : block.length = packetLen (packetLen len.toNat + msginserverSize) := length_newBlock
  let mid := (block.drop 4).take 4 ++ bytesLE 2 WholeCmd.transit.toNat
  have hmid : mid.length = 6 := by
    rw [List.length_append, List.length_take, List.length_drop, length_bytesLE, hblock]
    omega
  have hname : Message.setWholeCmd block WholeCmd.transit =
      some (bytesLE 4 ([] : List UInt8).length ++ (mid ++ block.drop 10)) :=
    setWholeCmd_of_zero (by omega) hzero
  have hids : svrheader.bytes.take 12 = svrheader.bytes :=
    List.take_of_length_le (Nat.le_of_eq hbytes)
  have h12 : (BitVec.ofNat 64 msginserverSize).toNat = 12 := rfl
  have hhead := pushBack_append [] (block.drop 10) svrheader.bytes
    (BitVec.ofNat 64 msginserverSize) hmid
    (by rw [List.length_drop, h12]; omega) (by rw [h12, hbytes]; rfl) (by rw [h12]; decide)
  simp only [hids, List.nil_append, List.drop_drop, h12] at hhead
  have hpush := pushBack_append svrheader.bytes (block.drop (10 + 12)) data (packetSize len) hmid
    (by rw [List.length_drop, hpackage]; omega) (by rwa [hpackage])
    (by rw [hbytes, hpackage, msginserverSize]; omega)
  rw [hpackage, List.drop_drop, Nat.add_assoc] at hpush
  have hbody : 12 + packetLen len.toNat = body.length := by
    rw [List.length_append, List.length_take_of_le hdata]
    exact congrArg (· + packetLen len.toNat) hbytes.symm
  rw [hbody] at hpush
  rw [setServerNewMessage_eq (by omega), hname, Option.bind_some, hhead, Option.bind_some, hpush]

/-! ### Agreement -/

/-- An envelope is recovered, whatever stands behind it. -/
theorem recovers_envelope (rest : List UInt8) :
    Recovers (envelope WholeCmd.transit ⟨userid, svrid⟩ inner ++ rest) svrid userid inner := by
  intro srvHdr
  obtain ⟨pad, hunwrap⟩ := unwrap_envelope_append WholeCmd.transit ⟨userid, svrid⟩ inner rest
  have hcmd : Message.wholeCmd (envelope WholeCmd.transit ⟨userid, svrid⟩ inner ++ rest) =
      some WholeCmd.transit := wholeCmd_partialPacket
  have hbase : WholeCmd.transit.cmdType = WholeCmd.svrbase := rfl
  refine ⟨pad, ?_⟩
  simp only [analyzeSvrMsg, hcmd, hbase, hunwrap, if_true, Option.bind_eq_bind, Option.bind_some]
  rfl

/-- What the memory has to hold: zeros where the header is, but for the command, and behind the
packet inside. -/
def Cleared (memory : Nat → UInt8) (len : BitVec 64) : Prop :=
  (∀ i, i < 8 → memory i = 0) ∧
    ∀ i, 10 + (msginserverSize + packetLen len.toNat) ≤ i →
      i < packetLen (packetLen len.toNat + msginserverSize) → memory i = 0

/-- The block can be the envelope only if the length was zero. -/
theorem take_four_of_envelope (hlen : len.toNat ≤ 65494) (hdata : packetLen len.toNat ≤ data.length)
    (h : setServerNewMessage memory svrid userid data len =
      some (envelope WholeCmd.transit ⟨userid, svrid⟩ (data.take (packetLen len.toNat)))) :
    (newBlock memory (packetLen (packetLen len.toNat + msginserverSize))).take 4 =
      bytesLE 4 0 := by
  have hroom := envelopeLen_le len.toNat
  have hp : packetLen len.toNat ≤ 65511 := by
    rw [packetLen]
    omega
  have hbody : (MsgInServer.bytes ⟨userid, svrid⟩ ++ data.take (packetLen len.toNat)).length =
      packetLen len.toNat + msginserverSize := by
    rw [List.length_append, MsgInServer.length_bytes, List.length_take_of_le hdata, Nat.add_comm]
  obtain ⟨d, hd, hnew⟩ := dataLen_setServerNewMessage (by omega) h
  have hpacket : Message.dataLen (partialPacket WholeCmd.transit
      (MsgInServer.bytes ⟨userid, svrid⟩ ++ data.take (packetLen len.toNat))
        (packetLen (packetLen len.toNat + msginserverSize) -
          (10 + (packetLen len.toNat + msginserverSize))) ++ []) = _ :=
    dataLen_partialPacket (by rw [hbody, msginserverSize]; omega)
  rw [List.append_nil, hbody] at hpacket
  rw [envelope, packet, hbody, hpacket] at hnew
  have hzero : d = 0 := by
    have hsum := Option.some.inj hnew
    rwa [eq_comm, BitVec.add_left_eq_self] at hsum
  have hblock : (newBlock memory (packetLen (packetLen len.toNat + msginserverSize))).length =
      packetLen (packetLen len.toNat + msginserverSize) := length_newBlock
  rw [Message.dataLen, leAt_of_le (by omega), List.drop_zero, Option.map_some, hzero] at hd
  have hfour : ((newBlock memory (packetLen (packetLen len.toNat + msginserverSize))).take
      4).length = 4 := by
    rw [List.length_take, hblock]
    omega
  have hlt :=
    natLE_lt ((newBlock memory (packetLen (packetLen len.toNat + msginserverSize))).take 4)
  rw [hfour, show 256 ^ 4 = 2 ^ 32 by rfl] at hlt
  have hnat := congrArg BitVec.toNat (Option.some.inj hd)
  rw [BitVec.toNat_ofNat, Nat.mod_eq_of_lt hlt] at hnat
  rw [eq_replicate_of_natLE hnat, hfour]
  rfl

/-- **The block is the envelope** exactly if the memory was cleared. -/
theorem setServerNewMessage_eq_envelope_iff (svrid : ServerId) (userid : UserId)
    (hlen : len.toNat ≤ 65494) (hdata : packetLen len.toNat ≤ data.length) :
    setServerNewMessage memory svrid userid data len =
        some (envelope WholeCmd.transit ⟨userid, svrid⟩ (data.take (packetLen len.toNat))) ↔
      Cleared memory len := by
  let p := packetLen len.toNat
  let size := packetLen (p + msginserverSize)
  let body := MsgInServer.bytes ⟨userid, svrid⟩ ++ data.take p
  have hp : p = packetLen len.toNat := rfl
  have hsize : size = packetLen (packetLen len.toNat + msginserverSize) := rfl
  have hroom : 10 + (msginserverSize + p) ≤ size := envelopeLen_le _
  have hbody : body.length = msginserverSize + p := by
    rw [List.length_append, MsgInServer.length_bytes, List.length_take_of_le hdata]
  -- three ranges keep what the memory held: the length, to which is added, `m_unzip_len`, the end
  have hfirst := drop_take_newBlock_eq_iff memory 0 4 size (by omega)
  have hunzip := drop_take_newBlock_eq_iff memory 4 4 size (by omega)
  have htail := drop_take_newBlock_eq_iff memory (10 + body.length) (size - (10 + body.length)) size
    (by omega)
  rw [List.drop_zero] at hfirst
  rw [List.take_of_length_le (by rw [List.length_drop, length_newBlock])] at htail
  have henvelope : envelope WholeCmd.transit ⟨userid, svrid⟩ (data.take p) =
      bytesLE 4 body.length ++ (bytesLE 4 0 ++ bytesLE 2 WholeCmd.transit.toNat ++
        (body ++ List.replicate (size - (10 + body.length)) 0)) := by
    rw [show size = packetLen body.length by rw [hbody, Nat.add_comm]]
    simp only [envelope, packet, partialPacket, List.append_assoc, body]
  -- once the length is right, the two envelopes differ in the other two ranges at most
  have heq : (newBlock memory size).take 4 = bytesLE 4 0 →
      (setServerNewMessage memory svrid userid data len =
          some (envelope WholeCmd.transit ⟨userid, svrid⟩ (data.take p)) ↔
        ((newBlock memory size).drop 4).take 4 = List.replicate 4 0 ∧
          (newBlock memory size).drop (10 + body.length) =
            List.replicate (size - (10 + body.length)) 0) := by
    intro hzero
    have hnew : setServerNewMessage memory svrid userid data len =
        some (bytesLE 4 body.length ++ (((newBlock memory size).drop 4).take 4 ++
          bytesLE 2 WholeCmd.transit.toNat ++
            (body ++ (newBlock memory size).drop (10 + body.length)))) :=
      setServerNewMessage_of_zero hlen hdata hzero
    have hfour : (((newBlock memory size).drop 4).take 4).length = (bytesLE 4 0).length := by
      rw [List.length_take, List.length_drop, length_newBlock, length_bytesLE]
      omega
    rw [hnew, henvelope, Option.some_inj, List.append_cancel_left_eq]
    constructor
    · intro h
      obtain ⟨hmid, hrest⟩ := List.append_inj h
        (by rw [List.length_append, List.length_append, hfour])
      exact ⟨List.append_cancel_right hmid, List.append_cancel_left hrest⟩
    · rintro ⟨hmid, hrest⟩
      rw [hmid, hrest]
      rfl
  constructor
  · intro h
    have hzero := take_four_of_envelope hlen hdata h
    obtain ⟨hmid, hrest⟩ := (heq hzero).1 h
    have hlow := hfirst.1 hzero
    have hhigh := hunzip.1 hmid
    refine ⟨fun i hi ↦ ?_, fun i hlo hhi ↦ htail.1 hrest i (by omega) (by omega)⟩
    rcases Nat.lt_or_ge i 4 with hlt | hge
    · exact hlow i (Nat.zero_le i) (by omega)
    · exact hhigh i hge (by omega)
  · rintro ⟨hheader, hpad⟩
    have hzero := hfirst.2 fun i _ hi ↦ hheader i (by omega)
    refine (heq hzero).2 ⟨hunzip.2 fun i _ hi ↦ hheader i (by omega), htail.2 fun i hlo hhi ↦ ?_⟩
    exact hpad i (by omega) (by omega)

/-- The envelope is as long as the block that was allocated for it. -/
theorem length_setServerNewMessage (hlen : len.toNat < 2 ^ 32)
    (h : setServerNewMessage memory svrid userid data len = some m) :
    m.length = packetLen (packetLen len.toNat + msginserverSize) := by
  rw [setServerNewMessage_eq hlen] at h
  obtain ⟨named, hname, hrest⟩ := Option.bind_eq_some_iff.1 h
  obtain ⟨headed, hhead, hpush⟩ := Option.bind_eq_some_iff.1 hrest
  rw [length_pushBack hpush, length_pushBack hhead, length_of_memcpy hname, length_newBlock]

/-- **Heap and static envelopes** agree, for every length that fits, exactly if the memory that
`new` returned was cleared. -/
theorem envelopesAgree_iff (hbuf : buf.length = maxBuffSize) (hlen : len.toNat ≤ 65494)
    (hdata : packetLen len.toNat ≤ data.length) :
    EnvelopesAgree memory buf svrid userid data len ↔ Cleared memory len := by
  let inner := data.take (packetLen len.toNat)
  let made := envelope WholeCmd.transit ⟨userid, svrid⟩ inner
  have hp : packetLen len.toNat ≤ 65511 := by
    rw [packetLen]
    omega
  have hbody : (MsgInServer.bytes ⟨userid, svrid⟩ ++ inner).length =
      packetLen len.toNat + msginserverSize := by
    rw [List.length_append, MsgInServer.length_bytes, List.length_take_of_le hdata, Nat.add_comm]
  have hmade : made.length = packetLen (packetLen len.toNat + msginserverSize) := by
    rw [show made.length = _ from length_packet, hbody]
  have hfit : packetLen (packetLen len.toNat + msginserverSize) ≤ buf.length := by
    rw [hbuf, packetLen, packetLen, msginserverSize, maxBuffSize]
    omega
  have hmsg : setServerMessage buf svrid userid data len =
      some (made ++ buf.drop (packetLen (packetLen len.toNat + msginserverSize))) := by
    rw [setServerMessage_eq (packetSize_ne_zero (by omega)),
      setSvrMessage_eq hdata hfit (Nat.le_of_eq hbuf)]
  have hmadeLen : ∀ rest, Message.dataLen (made ++ rest) =
      some (BitVec.ofNat 32 (packetLen len.toNat + msginserverSize)) := by
    intro rest
    rw [← hbody]
    exact dataLen_partialPacket (by rw [hbody, msginserverSize]; omega)
  have hsize : (packetSize (BitVec.ofNat 32 (packetLen len.toNat + msginserverSize))).toNat =
      made.length := by
    have hnat : (BitVec.ofNat 32 (packetLen len.toNat + msginserverSize)).toNat =
        packetLen len.toNat + msginserverSize := by
      rw [BitVec.toNat_ofNat, msginserverSize]
      omega
    rw [toNat_packetSize_of_le (Or.inl rfl) (by rw [hnat, msginserverSize]; omega), hnat, hmade]
  rw [← setServerNewMessage_eq_envelope_iff svrid userid hlen hdata]
  constructor
  · rintro ⟨newMsg, msg, n, hnew, hold, -, hn, -, hbytes, -, -⟩
    obtain rfl := Option.some.inj (hmsg.symm.trans hold)
    obtain rfl := Option.some.inj (hn.symm.trans (hmadeLen _))
    have hlength := length_setServerNewMessage (by omega) hnew
    rw [hsize, List.take_left, List.take_of_length_le (by rw [hlength, hmade])] at hbytes
    rw [hnew, hbytes]
  · intro hnew
    refine ⟨made, _, _, hnew, hmsg, ?_, hmadeLen _, Nat.le_of_eq hsize, ?_, ?_,
      recovers_envelope _⟩
    · rw [← hmadeLen [], List.append_nil]
    · rw [hsize, List.take_left, List.take_of_length_le (Nat.le_refl _)]
    · rw [← List.append_nil made]
      exact recovers_envelope []

/-- A packet without data, in memory that was cleared. -/
theorem envelopesAgree_cleared : EnvelopesAgree (fun _ ↦ 0) (List.replicate maxBuffSize 7) 1 2
    (List.replicate 16 5) 0 :=
  (envelopesAgree_iff List.length_replicate (by decide)
    (by rw [List.length_replicate]; decide)).2 ⟨fun _ _ ↦ rfl, fun _ _ _ ↦ rfl⟩

/-- In memory that was not, the same packet is written behind the end of the block. -/
theorem not_envelopesAgree_used : ¬ EnvelopesAgree (fun _ ↦ 0xcd) (List.replicate maxBuffSize 7) 1 2
    (List.replicate 16 5) 0 := by
  rintro ⟨newMsg, msg, n, hnew, -⟩
  have hundefined : setServerNewMessage (fun _ ↦ 0xcd) 1 2 (List.replicate 16 5) 0 = none := by
    decide
  rw [hundefined] at hnew
  cases hnew

end QCLib
