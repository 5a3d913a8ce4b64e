import QCLib.Net.MuduoBuffer
import QCLib.Net.Receive

/-!
# Framing over the buffer of the network library

`function_for_muduo.h` and the receive loops once more, over the vector that `Muduo.Buffer` really
is. `enouthData` and `newMsgFormBuffer` look at the memory behind `peek()`, which goes on behind the
readable bytes: what they see there does not matter (`enouthData_eq`, `newMsgFormBuffer_map`), and
so the loops do to the vector what they do to a queue (`deliver_map`). Together with the framing of
queues this takes messages from one vector to the other (`muduo_framing`).

`view` forgets the memory and keeps the content. Every function of this module commutes with it
where it is defined, so a run over vectors is a run over queues seen through the view, and what is
known of queues holds of vectors, without a second proof. What has to be added is that the vectors
have room, since a queue has no end.
-/

open Bytes StepRun

namespace QCLib.Muduo

/-! ### Messages in and out of a buffer -/

/-- `msg2Buffer`. -/
def msg2Buffer (msg : Message) (buf : Buffer) : Option Buffer := do
  let dataLen ← msg.dataLen
  let size := (sizeT (packetSize dataLen)).toNat
  if size ≤ msg.length then buf.append (msg.take size) else none

/-- `enouthData`. -/
def enouthData (buf : Buffer) : Bool :=
  let bufsize := buf.readableBytes
  if bufsize > 4 then
    let datasize := BitVec.ofNat 32 (natLE (buf.peek.take 4))
    bufsize ≥ (sizeT (packetSize datasize)).toNat
  else false

/-- `newMsgFormBuffer`. -/
def newMsgFormBuffer (buf : Buffer) : Option (Message × Buffer) := do
  let datasize ← (leAt 0 4 buf.peek).map (BitVec.ofNat 32)
  let ptmp ← newMessage datasize
  let packetsize := (sizeT (packetSize datasize)).toNat
  let ptmp ← memcpy ptmp 0 buf.peek packetsize
  let buf ← buf.retrieve packetsize
  return (ptmp, buf)

namespace TcpServer

/-- The `do … while` loop of `onMessage`. -/
def receiveLoop (session : TcpConnectionPtr) :
    Nat → List MsgFromClient → Buffer → Option (List MsgFromClient × Buffer)
  | 0, _, _ => none
  | fuel + 1, msgList, buf => do
    let (message, buf) ← newMsgFormBuffer buf
    let msgList := msgList ++ [⟨message, session⟩]
    if enouthData buf then receiveLoop session fuel msgList buf else return (msgList, buf)

/-- `TcpServer::onMessage`. -/
def onMessage (session : TcpConnectionPtr) (fuel : Nat) (msgList : List MsgFromClient)
    (buf : Buffer) : Option (List MsgFromClient × Buffer) :=
  if enouthData buf then receiveLoop session fuel msgList buf else return (msgList, buf)

/-- `handleRead`, when bytes have arrived. -/
def deliver (session : TcpConnectionPtr) (fuel : Nat) (s : List MsgFromClient × Buffer)
    (incoming : List UInt8) : Option (List MsgFromClient × Buffer) := do
  onMessage session fuel s.1 (← s.2.readFd incoming)

end TcpServer

namespace TcpClient

/-- `TcpClient::onMessage`. -/
def onMessage : Nat → List Message → Buffer → Option (List Message × Buffer)
  | 0, _, _ => none
  | fuel + 1, inMsgList, buf =>
    if !enouthData buf then return (inMsgList, buf)
    else do
      let (message, buf) ← newMsgFormBuffer buf
      onMessage fuel (inMsgList ++ [message]) buf

/-- `handleRead`, when bytes have arrived. -/
def deliver (fuel : Nat) (s : List Message × Buffer) (incoming : List UInt8) :
    Option (List Message × Buffer) := do
  onMessage fuel s.1 (← s.2.readFd incoming)

end TcpClient

/-- What has been taken, and what is left of the queue that a buffer stands for. -/
def view {α : Type} (s : α × Buffer) : α × QCLib.Buffer := (s.1, s.2.content)

variable {buf : Buffer} {m : Message} {ms : List Message} {incoming : List UInt8} {n : Nat}
  {session : TcpConnectionPtr} {chunks : List (List UInt8)}

/-! ### The memory behind the content does not matter -/

/-- The readable bytes, and what the memory holds behind them. -/
private theorem peek_eq (buf : Buffer) :
    ∃ behind, buf.peek = buf.content ++ behind :=
  ⟨buf.peek.drop buf.readableBytes, (List.take_append_drop _ _).symm⟩

theorem enouthData_eq (buf : Buffer) : enouthData buf = QCLib.enouthData buf.content := by
  obtain ⟨behind, hpeek⟩ := peek_eq buf
  have hlen := buf.length_content
  simp only [enouthData, QCLib.enouthData, hlen]
  split_ifs with h
  · rw [hpeek, List.take_append_of_le_length (by omega)]
  · rfl

/-- **A packet** that has arrived is taken off the vector as it is off a queue, or cannot be
allocated for either. -/
theorem newMsgFormBuffer_map (h : enouthData buf = true) :
    QCLib.newMsgFormBuffer buf.content = (newMsgFormBuffer buf).map view := by
  obtain ⟨behind, hpeek⟩ := peek_eq buf
  have hlen := buf.length_content
  rw [enouthData_eq] at h
  obtain ⟨hfour, hsize⟩ := enouthData_iff.1 h
  -- Both read the same length, and copy within the content.
  have hread : leAt 0 4 buf.peek = leAt 0 4 buf.content := by
    rw [hpeek, leAt_append (by omega)]
  have hcopy : ∀ ptmp : Message,
      memcpy ptmp 0 buf.peek (frontSize buf.content) =
        memcpy ptmp 0 buf.content (frontSize buf.content) := by
    intro ptmp
    rw [memcpy, memcpy, hpeek, List.length_append, List.take_append_of_le_length hsize]
    simp only [hsize, Nat.le_add_right_of_le hsize]
  have hlength : (leAt 0 4 buf.content).map (BitVec.ofNat 32) = some (frontLen buf.content) := by
    rw [leAt_of_le (by omega)]
    rfl
  obtain ⟨b', hretrieve, hmakes⟩ := Buffer.exists_retrieve (b := buf) (hlen ▸ hsize)
  have hfront : (sizeT (packetSize (frontLen buf.content))).toNat = frontSize buf.content := rfl
  simp only [QCLib.newMsgFormBuffer, newMsgFormBuffer, hread, hlength, hfront,
    Option.bind_eq_bind, Option.bind_some, hcopy, hretrieve]
  cases newMessage (frontLen buf.content) with
  | none => rfl
  | some ptmp =>
    rw [Option.bind_some, Option.bind_some]
    cases memcpy ptmp 0 buf.content (frontSize buf.content) with
    | none => rfl
    | some msg =>
      show some (msg, _) = some (view (msg, b'))
      rw [view, hmakes.content_eq]

/-! ### The loops -/

theorem TcpClient.onMessage_map (n : Nat) (inMsgList : List Message) (buf : Buffer) :
    QCLib.TcpClient.onMessage n inMsgList buf.content =
      (onMessage n inMsgList buf).map view := by
  induction n generalizing inMsgList buf with
  | zero => rfl
  | succ n ih =>
    rw [QCLib.TcpClient.onMessage, onMessage, ← enouthData_eq]
    cases hready : enouthData buf with
    | false => rfl
    | true =>
      show (QCLib.newMsgFormBuffer buf.content).bind _ = ((newMsgFormBuffer buf).bind _).map view
      rw [newMsgFormBuffer_map hready]
      cases newMsgFormBuffer buf with
      | none => rfl
      | some r => exact ih (inMsgList ++ [r.1]) r.2

theorem TcpServer.receiveLoop_map (n : Nat) (msgList : List MsgFromClient) (buf : Buffer)
    (hready : enouthData buf = true) :
    QCLib.TcpServer.receiveLoop session n msgList buf.content =
      (receiveLoop session n msgList buf).map view := by
  induction n generalizing msgList buf with
  | zero => rfl
  | succ n ih =>
    rw [QCLib.TcpServer.receiveLoop, receiveLoop, newMsgFormBuffer_map hready]
    cases newMsgFormBuffer buf with
    | none => rfl
    | some r =>
      show (if QCLib.enouthData r.2.content then
          QCLib.TcpServer.receiveLoop session n (msgList ++ [⟨r.1, session⟩]) r.2.content
        else some (msgList ++ [⟨r.1, session⟩], r.2.content)) =
          (if enouthData r.2 then receiveLoop session n (msgList ++ [⟨r.1, session⟩]) r.2
            else some (msgList ++ [⟨r.1, session⟩], r.2)).map view
      rw [← enouthData_eq]
      cases hnext : enouthData r.2 with
      | false => rfl
      | true => exact ih _ r.2 hnext

theorem TcpServer.onMessage_map (n : Nat) (msgList : List MsgFromClient) (buf : Buffer) :
    QCLib.TcpServer.onMessage session n msgList buf.content =
      (onMessage session n msgList buf).map view := by
  rw [QCLib.TcpServer.onMessage, onMessage, ← enouthData_eq]
  cases hready : enouthData buf with
  | false => rfl
  | true => exact receiveLoop_map n msgList buf hready

/-- What one call of `readv` may bring: no more than was asked for, and what memory can hold. -/
def Readable {α : Type} (s : α × Buffer) (incoming : List UInt8) : Prop :=
  (Buffer.Op.readFd incoming).Allowed s.2

instance {α : Type} (s : α × Buffer) (incoming : List UInt8) : Decidable (Readable s incoming) :=
  inferInstanceAs (Decidable (Buffer.Op.Allowed _ _))

/-- A chunk that was read from the socket reaches the client's callback as a chunk of the queue
model. -/
theorem TcpClient.deliver_map (s : List Message × Buffer) (h : Readable s incoming) :
    QCLib.TcpClient.deliver n (view s) incoming = (deliver n s incoming).map view := by
  obtain ⟨b', hread, hmakes⟩ := Buffer.exists_readFd h.1 h.2
  rw [deliver, hread]
  show QCLib.TcpClient.onMessage n s.1 (s.2.content ++ incoming) = _
  rw [← hmakes.content_eq]
  exact onMessage_map n s.1 b'

/-- A chunk that was read from the socket reaches the server's callback as a chunk of the queue
model. -/
theorem TcpServer.deliver_map (s : List MsgFromClient × Buffer) (h : Readable s incoming) :
    QCLib.TcpServer.deliver session n (view s) incoming =
      (deliver session n s incoming).map view := by
  obtain ⟨b', hread, hmakes⟩ := Buffer.exists_readFd h.1 h.2
  rw [deliver, hread]
  show QCLib.TcpServer.onMessage session n s.1 (s.2.content ++ incoming) = _
  rw [← hmakes.content_eq]
  exact onMessage_map n s.1 b'

/-! ### From one vector to the other -/

/-- `msg2Buffer` appends the packet to the vector. -/
theorem exists_msg2Buffer (hm : m.Framed)
    (hmax : kCheapPrepend + 2 * (buf.content.length + m.length) ≤ maxSize) :
    ∃ buf', msg2Buffer m buf = some buf' ∧ buf'.content = buf.content ++ m := by
  obtain ⟨len, hlen, hle, hsize⟩ := hm
  rw [toNat_packetSize_of_le (Or.inl rfl) (by omega)] at hsize
  obtain ⟨buf', happend, hmakes⟩ := Buffer.exists_append hmax
  refine ⟨buf', ?_, hmakes.content_eq⟩
  simp only [msg2Buffer, hlen, toNat_sizeT_of_le (show len.toNat ≤ 2 ^ 31 - 18 by omega),
    Option.bind_eq_bind, Option.bind_some, ← hsize, Nat.le_refl, if_true, List.take_length]
  exact happend

/-- Framed packets can be written into a buffer that has memory for them, and stand there one after
another. -/
theorem exists_run_msg2Buffer (hms : ∀ m ∈ ms, m.Framed)
    (hmax : kCheapPrepend + 2 * (buf.content.length + ms.flatten.length) ≤ maxSize) :
    ∃ out, run (fun buf m ↦ msg2Buffer m buf) buf ms = some out ∧
      out.content = buf.content ++ ms.flatten := by
  induction ms generalizing buf with
  | nil => exact ⟨buf, rfl, by rw [List.flatten_nil, List.append_nil]⟩
  | cons m ms ih =>
    rw [List.flatten_cons, List.length_append] at hmax
    have hmax₁ : kCheapPrepend + 2 * (buf.content.length + m.length) ≤ maxSize := by omega
    obtain ⟨buf₁, hmsg, hcontent⟩ := exists_msg2Buffer (hms m List.mem_cons_self) hmax₁
    obtain ⟨out, hrun, hout⟩ := ih (fun m' hm' ↦ hms m' (List.mem_cons_of_mem m hm'))
      (by rw [hcontent, List.length_append]; omega)
    refine ⟨out, ?_, ?_⟩
    · rw [run_cons, hmsg]
      exact hrun
    · rw [hout, hcontent, List.append_assoc, List.flatten_cons]

/-- A run over a queue is the run over the vector that stands for it. -/
private theorem exists_of_map_view {α : Type} {o : Option (α × Buffer)} {l : α}
    (h : o.map view = some (l, [])) : ∃ inb, o = some (l, inb) ∧ inb.content = [] := by
  obtain ⟨⟨l', inb⟩, ho, hview⟩ := Option.map_eq_some_iff.1 h
  obtain ⟨rfl, hcontent⟩ := Prod.mk.inj hview
  exact ⟨inb, ho, hcontent⟩

/-- **Framing, vector to vector.** The messages that a sender has put into its buffer are taken off
the buffer of the receiver, on whichever side that is, whatever `readv` brings at a time and however
the two vectors have grown and moved, and nothing is left behind. -/
theorem muduo_framing (session : TcpConnectionPtr) {outb inb : Buffer} (hms : ∀ m ∈ ms, m.Framed)
    (hmax : kCheapPrepend + 2 * ms.flatten.length ≤ maxSize) (houtb : outb.content = [])
    (hinb : inb.content = []) (hn : ms.length < n) :
    ∃ outb', run (fun buf m ↦ msg2Buffer m buf) outb ms = some outb' ∧
      ∀ chunks : List (List UInt8), chunks.flatten = outb'.content →
        (Guarded (TcpServer.deliver session n) Readable ([], inb) chunks →
          ∃ inb', run (TcpServer.deliver session n) ([], inb) chunks =
            some (fromClient session ms, inb') ∧ inb'.content = []) ∧
        (Guarded (TcpClient.deliver n) Readable ([], inb) chunks →
          ∃ inb', run (TcpClient.deliver n) ([], inb) chunks = some (ms, inb') ∧
            inb'.content = []) := by
  have hroom : kCheapPrepend + 2 * (outb.content.length + ms.flatten.length) ≤ maxSize := by
    rw [houtb, List.length_nil, Nat.zero_add]
    exact hmax
  obtain ⟨outb', hrun, hcontent⟩ := exists_run_msg2Buffer hms hroom
  rw [houtb, List.nil_append] at hcontent
  refine ⟨outb', hrun, fun chunks hchunks ↦ ?_⟩
  have hflatten : chunks.flatten = ms.flatten := hchunks.trans hcontent
  obtain ⟨hserver, hclient⟩ := @runs_of_framed ms chunks session n hms hflatten hn
  constructor
  · intro hok
    have hmap := run_map_of_guarded (fun s _ h ↦ TcpServer.deliver_map s h) hok
    rw [view, hinb, hserver] at hmap
    exact exists_of_map_view hmap.symm
  · intro hok
    have hmap := run_map_of_guarded (fun s _ h ↦ TcpClient.deliver_map s h) hok
    rw [view, hinb, hclient] at hmap
    exact exists_of_map_view hmap.symm

/-- Three calls of `readv` for two messages, into vectors that are too small for them. -/
theorem muduo_framing_sampleMessages :
    let b := Buffer.initial 4 (by decide)
    ∃ outb', run (fun buf m ↦ msg2Buffer m buf) b sampleMessages = some outb' ∧
      ∃ inb', run (TcpClient.deliver 3) ([], b)
        [sampleMessages.flatten.take 3, (sampleMessages.flatten.drop 3).take 20,
          sampleMessages.flatten.drop 23] = some (sampleMessages, inb') ∧
        inb'.content = [] := by
  intro b
  have hms : ∀ m ∈ sampleMessages, m.Framed := by
    intro m hm
    rcases List.mem_cons.1 hm with rfl | hm
    · exact ⟨3, by decide, by decide, by decide⟩
    · rw [List.mem_singleton.1 hm]
      exact ⟨0, by decide, by decide, by decide⟩
  have hb : b.content = [] := Buffer.content_initial _
  obtain ⟨outb', hrun, hdeliver⟩ := muduo_framing (n := 3) 2 hms (by decide) hb hb (by decide)
  have hmax : kCheapPrepend + 2 * (b.content.length + sampleMessages.flatten.length) ≤ maxSize := by
    decide
  obtain ⟨out, hout, hcontent⟩ := exists_run_msg2Buffer hms hmax
  obtain rfl := Option.some.inj (hrun.symm.trans hout)
  refine ⟨outb', hrun, (hdeliver _ ?_).2 (by decide)⟩
  rw [hcontent]
  decide

end QCLib.Muduo
