import QCLib.Net.Envelope

/-!
# What the static buffers are asked to hold

The functions of `base_define.h` that build a message in a static buffer write where the length that
they are given tells them to, and none of them compares it with `MAX_BUFF_SIZE`. Here the bytes that
they write are listed, region by region, and the lengths for which all of them are in the buffer are
counted out: 65518 is the last for `SetMessage`, and 65494 for an envelope.

The lists are those of the model: where there is data to copy, a function is defined exactly when
the regions that it writes are in its buffer (`setMessage_isSome_iff`, `setSvrMessage_isSome_iff`).

A function writes where its arguments tell it to, so its writes can be listed without running it: a
`Region` is where a write begins and how long it is. The list is read off the source, and is checked
against the model in one respect: the model, whose buffers are lists that cannot be written behind
their end, is defined exactly where the regions lie in the buffer. Everything about a length is then
arithmetic on `packetLen`.
-/

open Bytes

namespace QCLib

/-- Some bytes of a buffer. -/
structure Region where
  start : Nat
  size : Nat
  deriving DecidableEq, Repr

/-- Every index in the region is below the bound. -/
def Region.Below (r : Region) (bound : Nat) : Prop :=
  ∀ i, r.start ≤ i → i < r.start + r.size → i < bound

/-- Every index that is written is below `MAX_BUFF_SIZE`. -/
def InBuffer (writes : List Region) : Prop := ∀ r ∈ writes, r.Below maxBuffSize

/-- The writes of `push_back`, for a message whose length is `dataLen`: the data and the length. -/
def pushBackWrites (dataLen : Nat) (len : BitVec 64) : List Region :=
  [⟨cmdHeaderSize + cmdTypeSize + dataLen, len.toNat⟩, ⟨0, 4⟩]

/-- The writes of `SetMessage`. -/
def setMessageWrites (len : BitVec 64) : List Region :=
  [⟨0, (packetSize len).toNat⟩, ⟨8, 2⟩] ++ pushBackWrites 0 len

/-- The writes of `SetServerMessageAck` and `SetOtherSvrMsg`. -/
def setSvrMessageWrites (len : BitVec 64) : List Region :=
  let packageLen := packetSize len
  [⟨0, (packetSize (packageLen + BitVec.ofNat 64 msginserverSize)).toNat⟩, ⟨8, 2⟩] ++
    pushBackWrites 0 (BitVec.ofNat 64 msginserverSize) ++ pushBackWrites msginserverSize packageLen

/-- The writes of `SetServerMessage`. -/
def setServerMessageWrites (len : BitVec 64) : List Region :=
  let packageLen := packetSize len
  [⟨0, (packetSize (packageLen + BitVec.ofNat 64 msginserverSize)).toNat⟩, ⟨8, 2⟩] ++
    pushBackWrites 0 (BitVec.ofNat 64 msginserverSize) ++
    if packageLen ≠ 0 then pushBackWrites msginserverSize packageLen else []

variable {len : BitVec 64} {buf data : List UInt8} {cmd : WholeCmd} {svrid : ServerId}
  {userid : UserId} {r : Region} {bound : Nat}

/-! ### Counting -/

theorem Region.below_iff : r.Below bound ↔ r.size = 0 ∨ r.start + r.size ≤ bound := by
  constructor
  · intro h
    rcases Nat.eq_zero_or_pos r.size with hzero | hpos
    · exact .inl hzero
    · have hlast := h (r.start + r.size - 1) (by omega) (by omega)
      exact .inr (by omega)
  · intro h i hstart hend
    omega

/-- **`SetMessage`** has room for 65518 bytes. -/
theorem inBuffer_setMessageWrites_iff : InBuffer (setMessageWrites len) ↔ len.toNat ≤ 65518 := by
  have hlt := len.isLt
  simp only [InBuffer, setMessageWrites, pushBackWrites, List.cons_append, List.nil_append,
    List.forall_mem_cons, Region.below_iff, toNat_packetSize (Or.inr rfl), maxBuffSize,
    cmdHeaderSize, cmdTypeSize, List.not_mem_nil, false_imp_iff, implies_true, and_true]
  omega

/-- **An envelope** has room for a packet with 65494 bytes of data. -/
theorem inBuffer_setSvrMessageWrites_iff (hlen : len.toNat < 2 ^ 32) :
    InBuffer (setSvrMessageWrites len) ↔ len.toNat ≤ 65494 := by
  have hids : (BitVec.ofNat 64 msginserverSize).toNat = msginserverSize := rfl
  simp only [InBuffer, setSvrMessageWrites, pushBackWrites, List.cons_append, List.nil_append,
    List.forall_mem_cons, Region.below_iff, toNat_envelopeSize hlen, toNat_packetSize_of_lt hlen,
    hids, List.not_mem_nil, false_imp_iff, implies_true, and_true]
  simp only [packetLen, msginserverSize, maxBuffSize, cmdHeaderSize, cmdTypeSize]
  omega

/-- The check of `SetServerMessage` leaves nothing out, for a length that a message can have. -/
theorem setServerMessageWrites_eq (hlen : len.toNat < 2 ^ 32) :
    setServerMessageWrites len = setSvrMessageWrites len := by
  rw [setServerMessageWrites, setSvrMessageWrites, if_pos (packetSize_ne_zero hlen)]

/-! ### The model writes nothing else -/

/-- **`SetMessage`** is defined exactly when what it writes is in its buffer, and there is what it
copies. -/
theorem setMessage_isSome_iff (hbuf : buf.length = maxBuffSize) :
    (setMessage buf cmd data len).isSome ↔
      InBuffer (setMessageWrites len) ∧ len.toNat ≤ data.length := by
  rw [inBuffer_setMessageWrites_iff]
  constructor
  · intro h
    obtain ⟨msg, hmsg⟩ := Option.isSome_iff_exists.1 h
    obtain ⟨cleared, hclear, hrest⟩ := Option.bind_eq_some_iff.1 hmsg
    obtain ⟨named, hname, hpush⟩ := Option.bind_eq_some_iff.1 hrest
    obtain ⟨dataLen, -, hcopy⟩ := Option.bind_eq_some_iff.1 hpush
    obtain ⟨copied, hcopy, -⟩ := Option.bind_eq_some_iff.1 hcopy
    have hcleared := (le_of_memcpy hclear).1
    have hcopied := (le_of_memcpy hcopy).1
    rw [length_of_memcpy hname, length_of_memcpy hclear, hbuf] at hcopied
    rw [toNat_packetSize (Or.inr rfl), hbuf] at hcleared
    simp only [maxBuffSize, cmdHeaderSize, cmdTypeSize] at hcleared hcopied
    exact ⟨by omega, (le_of_memcpy hcopy).2⟩
  · rintro ⟨hle, hdata⟩
    have hfit : packetLen len.toNat ≤ buf.length := by
      rw [hbuf, packetLen, maxBuffSize]
      omega
    rw [setMessage_eq hdata hfit (Nat.le_of_eq hbuf)]
    rfl

/-- What `SetMessage` leaves in the buffer: a message as long as the buffer, with the length of its
data in the header. -/
theorem of_setMessage {msg : Message} (hbuf : buf.length = maxBuffSize)
    (h : setMessage buf cmd data len = some msg) :
    msg.length = maxBuffSize ∧ msg.dataLen = some (BitVec.ofNat 32 len.toNat) := by
  obtain ⟨hin, hdata⟩ := (setMessage_isSome_iff hbuf).1 (Option.isSome_iff_exists.2 ⟨msg, h⟩)
  rw [inBuffer_setMessageWrites_iff] at hin
  have hfit : packetLen len.toNat ≤ buf.length := by
    rw [hbuf, packetLen, maxBuffSize]
    omega
  have htake : (data.take len.toNat).length = len.toNat := List.length_take_of_le hdata
  rw [setMessage_eq hdata hfit (Nat.le_of_eq hbuf)] at h
  obtain rfl := Option.some.inj h
  refine ⟨?_, by rw [packet, dataLen_partialPacket (by omega), htake]⟩
  rw [List.length_append, length_packet, htake, List.length_drop, ← hbuf]
  omega

/-- **An envelope** is built exactly when what is written is in the buffer, and there is a whole
packet to put into it. -/
theorem setSvrMessage_isSome_iff (hbuf : buf.length = maxBuffSize) (hlen : len.toNat < 2 ^ 32) :
    (setSvrMessage buf cmd svrid userid data len).isSome ↔
      InBuffer (setSvrMessageWrites len) ∧ packetLen len.toNat ≤ data.length := by
  rw [inBuffer_setSvrMessageWrites_iff hlen]
  constructor
  · intro h
    obtain ⟨msg, hmsg⟩ := Option.isSome_iff_exists.1 h
    obtain ⟨cleared, hclear, hrest⟩ := Option.bind_eq_some_iff.1 hmsg
    obtain ⟨named, -, hrest⟩ := Option.bind_eq_some_iff.1 hrest
    obtain ⟨headed, -, hpush⟩ := Option.bind_eq_some_iff.1 hrest
    obtain ⟨dataLen, -, hcopy⟩ := Option.bind_eq_some_iff.1 hpush
    obtain ⟨copied, hcopy, -⟩ := Option.bind_eq_some_iff.1 hcopy
    have hcleared := (le_of_memcpy hclear).1
    have hdata := (le_of_memcpy hcopy).2
    rw [toNat_envelopeSize hlen, hbuf] at hcleared
    rw [toNat_packetSize_of_lt hlen] at hdata
    simp only [packetLen, msginserverSize, maxBuffSize] at hcleared
    exact ⟨by omega, hdata⟩
  · rintro ⟨hle, hdata⟩
    have hfit : packetLen (packetLen len.toNat + msginserverSize) ≤ buf.length := by
      rw [hbuf, packetLen, packetLen, msginserverSize, maxBuffSize]
      omega
    rw [setSvrMessage_eq hdata hfit (Nat.le_of_eq hbuf)]
    rfl

/-- `SetSvrMessage` writes into its buffer and never makes it longer or shorter. -/
theorem length_of_setSvrMessage {outer : Message} (hbuf : buf.length = maxBuffSize)
    (hlen : len.toNat < 2 ^ 32) (h : setSvrMessage buf cmd svrid userid data len = some outer) :
    outer.length = maxBuffSize := by
  obtain ⟨hin, hdata⟩ :=
    (setSvrMessage_isSome_iff hbuf hlen).1 (Option.isSome_iff_exists.2 ⟨outer, h⟩)
  rw [inBuffer_setSvrMessageWrites_iff hlen] at hin
  have hfit : packetLen (packetLen len.toNat + msginserverSize) ≤ buf.length := by
    rw [hbuf, packetLen, packetLen, msginserverSize, maxBuffSize]
    omega
  rw [setSvrMessage_eq hdata hfit (Nat.le_of_eq hbuf)] at h
  obtain rfl := Option.some.inj h
  rw [List.length_append, envelope, length_packet, List.length_append, MsgInServer.length_bytes,
    List.length_take_of_le hdata, List.length_drop, Nat.add_comm msginserverSize, ← hbuf]
  omega

/-- The envelope around a player's packet is written inside the buffer if and only if it fits there,
and the packet can be read if and only if it is all there. -/
theorem setServerMessage_isSome_iff (hbuf : buf.length = maxBuffSize) (hlen : len.toNat < 2 ^ 32) :
    (setServerMessage buf svrid userid data len).isSome ↔
      InBuffer (setServerMessageWrites len) ∧ packetLen len.toNat ≤ data.length := by
  rw [setServerMessage_eq (packetSize_ne_zero hlen), setServerMessageWrites_eq hlen]
  exact setSvrMessage_isSome_iff hbuf hlen

end QCLib
