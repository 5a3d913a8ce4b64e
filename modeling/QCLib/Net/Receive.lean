import QCLib.Foundations.StepRun
import QCLib.Net.TcpServer

/-!
# Receive loops

`TcpServer::onMessage` and `TcpClient::onMessage`: while a whole packet has arrived, cut it off the
buffer and append it to a list. The loops take a bound on their turns and are `none` beyond it, so
that a loop ends is that some bound is enough.

Both are loops over the reader `packets`, and what is known of them comes from there: on packets
that senders make, they do not depend on how the stream was cut (`framing`); on arbitrary bytes,
they end unless they meet a length that makes a packet empty (`onMessage_ends_iff`), and hand out
well-formed messages unless they meet a length just below zero (`receives_wellFormed_iff`).

The three results are about the same two functions. The first assumes a sender that makes its
packets with the functions of this repository and gives every message back, in its order and under
its session; the other two assume nothing about the bytes, and are equivalences between what the
loop does and what stands in the stream. The number of turns that a loop is given appears as a bound
and nowhere else: "the loop ends" is that some number is enough.
-/

open Bytes Framing StepRun

namespace QCLib

/-- `MsgFromClient`; the session it points to is that of a connection, which stands for it here. -/
structure MsgFromClient where
  message : Message
  userSession : TcpConnectionPtr
  deriving DecidableEq, Repr

namespace TcpServer

/-- The `do … while` loop of `onMessage`. -/
def receiveLoop (session : TcpConnectionPtr) :
    Nat → List MsgFromClient → Buffer → Option (List MsgFromClient × Buffer)
  | 0, _, _ => none
  | fuel + 1, msgList, buf => do
    let (message, buf) ← newMsgFormBuffer buf
    let msgList := msgList ++ [⟨message, session⟩]
    if enouthData buf then receiveLoop session fuel msgList buf else return (msgList, buf)

/-- `TcpServer::onMessage`. -/
def onMessage (session : TcpConnectionPtr) (fuel : Nat) (msgList : List MsgFromClient)
    (buf : Buffer) : Option (List MsgFromClient × Buffer) :=
  if enouthData buf then receiveLoop session fuel msgList buf else return (msgList, buf)

/-- A chunk arrives. -/
def deliver (session : TcpConnectionPtr) (fuel : Nat) (s : List MsgFromClient × Buffer)
    (chunk : List UInt8) : Option (List MsgFromClient × Buffer) :=
  onMessage session fuel s.1 (s.2 ++ chunk)

end TcpServer

namespace TcpClient

/-- `TcpClient::onMessage`. -/
def onMessage : Nat → List Message → Buffer → Option (List Message × Buffer)
  | 0, _, _ => none
  | fuel + 1, inMsgList, buf =>
    if !enouthData buf then return (inMsgList, buf)
    else do
      let (message, buf) ← newMsgFormBuffer buf
      onMessage fuel (inMsgList ++ [message]) buf

/-- A chunk arrives. -/
def deliver (fuel : Nat) (s : List Message × Buffer) (chunk : List UInt8) :
    Option (List Message × Buffer) :=
  onMessage fuel s.1 (s.2 ++ chunk)

end TcpClient

variable {buf rest : Buffer} {m : Message} {ms : List Message} {chunks : List (List UInt8)}
  {session : TcpConnectionPtr} {n : Nat}

/-! ### The two loops -/

/-- What a server makes of some messages: each carries a pointer to the session it came from. -/
def fromClient (session : TcpConnectionPtr) (ms : List Message) : List MsgFromClient :=
  ms.map fun message ↦ ⟨message, session⟩

/-- A client with its messages in the list of a server, behind what that list held. -/
def asServer (msgList : List MsgFromClient) (session : TcpConnectionPtr)
    (s : List Message × Buffer) : List MsgFromClient × Buffer :=
  (msgList ++ fromClient session s.1, s.2)

private theorem push_fromClient (msgList : List MsgFromClient) :
    msgList ++ fromClient session ms ++ [⟨m, session⟩] =
      msgList ++ fromClient session (ms ++ [m]) := by
  rw [fromClient, fromClient, List.map_append, List.append_assoc]
  rfl

/-- The server's loop, after its first test, is the client's with one turn more: it tests at the end
of a turn, where the client tests at the start. -/
private theorem receiveLoop_eq (msgList : List MsgFromClient) (hready : enouthData buf = true) :
    TcpServer.receiveLoop session n (msgList ++ fromClient session ms) buf =
      (TcpClient.onMessage (n + 1) ms buf).map (asServer msgList session) := by
  induction n generalizing ms buf with
  | zero =>
    rw [TcpServer.receiveLoop, TcpClient.onMessage, hready]
    show none = ((newMsgFormBuffer buf).bind fun _ ↦ none).map _
    rw [Option.bind_fun_none, Option.map_none]
  | succ n ih =>
    rw [TcpServer.receiveLoop, TcpClient.onMessage, hready]
    cases newMsgFormBuffer buf with
    | none => rfl
    | some r =>
      obtain ⟨m, b⟩ := r
      show (if enouthData b then
          TcpServer.receiveLoop session n (msgList ++ fromClient session ms ++ [⟨m, session⟩]) b
        else some (msgList ++ fromClient session ms ++ [⟨m, session⟩], b)) =
          (TcpClient.onMessage (n + 1) (ms ++ [m]) b).map (asServer msgList session)
      rw [push_fromClient]
      cases hb : enouthData b with
      | false =>
        rw [TcpClient.onMessage, hb]
        rfl
      | true => exact ih hb

private theorem onMessage_fromClient (msgList : List MsgFromClient) :
    TcpServer.onMessage session n (msgList ++ fromClient session ms) buf =
      (TcpClient.onMessage (n + 1) ms buf).map (asServer msgList session) := by
  rw [TcpServer.onMessage]
  cases hready : enouthData buf with
  | false =>
    rw [TcpClient.onMessage, hready]
    rfl
  | true => exact receiveLoop_eq msgList hready

private theorem asServer_nil (msgList : List MsgFromClient) :
    asServer msgList session ([], buf) = (msgList, buf) := by
  rw [asServer, fromClient, List.map_nil, List.append_nil]

/-- The `do … while` behind an `if` is the `while`. -/
theorem TcpServer.onMessage_eq (session : TcpConnectionPtr) (n : Nat) (msgList : List MsgFromClient)
    (buf : Buffer) : onMessage session n msgList buf =
      (TcpClient.onMessage (n + 1) [] buf).map (asServer msgList session) := by
  rw [← onMessage_fromClient, fromClient, List.map_nil, List.append_nil]

/-- **The two receive loops do the same**, whatever chunks arrive. What follows is shown for the
client and comes back to the server through this lemma. -/
theorem TcpServer.run_deliver_eq (session : TcpConnectionPtr) (n : Nat)
    (msgList : List MsgFromClient) (buf : Buffer) (chunks : List (List UInt8)) :
    run (deliver session n) (msgList, buf) chunks =
      (run (TcpClient.deliver (n + 1)) ([], buf) chunks).map (asServer msgList session) := by
  rw [← asServer_nil msgList]
  exact run_map (fun _ _ ↦ onMessage_fromClient msgList) ([], buf) chunks

/-! ### The loops are loops over the reader -/

/-- The callback returns if and only if the buffer can be drained in fewer packets than the loop has
turns. -/
theorem TcpClient.onMessage_eq_some_iff {inMsgList l : List Message} :
    onMessage n inMsgList buf = some (l, rest) ↔
      ∃ ms, packets.Drains buf ms rest ∧ ms.length < n ∧ l = inMsgList ++ ms := by
  induction n generalizing inMsgList buf with
  | zero => exact iff_of_false (by simp [onMessage]) (by simp)
  | succ n ih =>
    rw [onMessage]
    cases hready : enouthData buf with
    | false =>
      simp only [Reader.drains_iff_of_not_ready (R := packets) hready]
      show some (inMsgList, buf) = some (l, rest) ↔ _
      constructor
      · intro h
        obtain ⟨rfl, rfl⟩ := Prod.mk.inj (Option.some.inj h)
        exact ⟨[], ⟨rfl, rfl⟩, Nat.succ_pos n, (List.append_nil _).symm⟩
      · intro ⟨ms, ⟨hms, hrest⟩, _, hl⟩
        rw [hl, hms, hrest, List.append_nil]
    | true =>
      simp only [Reader.drains_iff_of_ready (R := packets) hready]
      constructor
      · intro h
        obtain ⟨⟨m, b⟩, htake, hloop⟩ := Option.bind_eq_some_iff.1 h
        obtain ⟨ms, hdrains, hn, rfl⟩ := ih.1 hloop
        exact ⟨m :: ms, ⟨m, b, ms, htake, rfl, hdrains⟩, Nat.succ_lt_succ hn,
          List.append_assoc _ _ _⟩
      · intro ⟨_, ⟨m, b, ms, htake, hms, hdrains⟩, hn, hl⟩
        subst hms hl
        refine Option.bind_eq_some_iff.2 ⟨(m, b), htake, ih.2 ⟨ms, hdrains, ?_, ?_⟩⟩
        · exact Nat.lt_of_succ_lt_succ hn
        · exact (List.append_assoc inMsgList [m] ms).symm

/-- Chunks that deliver some packets put them at the end of the list. -/
theorem TcpClient.run_deliver (h : packets.Delivers buf chunks ms rest) (hn : ms.length < n)
    (inMsgList : List Message) :
    run (deliver n) (inMsgList, buf) chunks = some (inMsgList ++ ms, rest) := by
  induction h generalizing inMsgList with
  | nil b => rw [run_nil, List.append_nil]
  | @cons b c ms r chunks ms' r' hdrains _ ih =>
    rw [List.length_append] at hn
    have hstep : deliver n (inMsgList, b) c = some (inMsgList ++ ms, r) :=
      onMessage_eq_some_iff.2 ⟨ms, hdrains, by omega, rfl⟩
    rw [run_cons, hstep, ← List.append_assoc]
    exact ih (by omega) (inMsgList ++ ms)

/-- Whatever a run has put into the list was delivered by its chunks. -/
theorem TcpClient.delivers_of_run {inMsgList l : List Message}
    (h : run (deliver n) (inMsgList, buf) chunks = some (l, rest)) :
    ∃ ms, packets.Delivers buf chunks ms rest ∧ l = inMsgList ++ ms := by
  induction chunks generalizing inMsgList buf with
  | nil =>
    obtain ⟨rfl, rfl⟩ := Prod.mk.inj (Option.some.inj h)
    exact ⟨[], .nil _, (List.append_nil _).symm⟩
  | cons c chunks ih =>
    rw [run_cons] at h
    obtain ⟨⟨l', r⟩, hstep, hrest⟩ := Option.bind_eq_some_iff.1 h
    obtain ⟨ms, hdrains, -, rfl⟩ := onMessage_eq_some_iff.1 hstep
    obtain ⟨ms', hdelivers, rfl⟩ := ih hrest
    exact ⟨ms ++ ms', .cons hdrains hdelivers, List.append_assoc _ _ _⟩

/-! ### Well-behaved senders -/

/-- A message with room for its data, up to the next multiple of eight. -/
def Message.Framed (m : Message) : Prop :=
  ∃ n, m.dataLen = some n ∧ n.toNat ≤ 2 ^ 31 - 25 ∧ m.length = (packetSize n).toNat

/-- Where a message is put on a connection, its length is at the front. -/
theorem frontLen_of_dataLen {len : BitVec 32} (h : m.dataLen = some len) (c : Buffer) :
    4 ≤ m.length ∧ frontLen (m ++ c) = len := by
  obtain ⟨v, hv, rfl⟩ := Option.map_eq_some_iff.1 h
  rw [leAt] at hv
  split_ifs at hv with hlen
  obtain rfl := Option.some.inj hv
  rw [Nat.zero_add] at hlen
  exact ⟨hlen, by rw [frontLen, List.take_append_of_le_length hlen]; rfl⟩

/-- **A sender's buffer.** The packet that goes out is the message. -/
theorem msg2Buffer_of_framed (hm : m.Framed) (buf : Buffer) :
    msg2Buffer m buf = some (buf ++ m) := by
  obtain ⟨len, hlen, hle, hsize⟩ := hm
  rw [toNat_packetSize_of_le (Or.inl rfl) (by omega)] at hsize
  rw [msg2Buffer_eq hlen (by omega) (by omega), ← hsize, List.take_length]

private theorem Message.Framed.front (hm : m.Framed) (c : Buffer) :
    4 < m.length ∧ frontSize (m ++ c) = m.length ∧ Allocates (frontLen (m ++ c)) := by
  obtain ⟨len, hlen, hle, hsize⟩ := hm
  rw [toNat_packetSize_of_le (Or.inl rfl) (by omega)] at hsize
  rw [frontSize, (frontLen_of_dataLen hlen c).2, toNat_sizeT_of_le (by omega), allocates_iff, hsize]
  refine ⟨?_, rfl, by omega⟩
  rw [packetLen]
  omega

/-- **A receiver's buffer.** The packet that is taken is the message. -/
theorem newMsgFormBuffer_of_framed (hm : m.Framed) (c : Buffer) :
    enouthData (m ++ c) = true ∧ newMsgFormBuffer (m ++ c) = some (m, c) := by
  obtain ⟨hfour, hsize, halloc⟩ := hm.front c
  have hready : enouthData (m ++ c) = true :=
    enouthData_iff.2 (by rw [hsize, List.length_append]; omega)
  refine ⟨hready, (newMsgFormBuffer_eq_some_iff hready).2 ⟨halloc, ?_, ?_⟩⟩
  · rw [hsize, List.take_left]
  · rw [hsize, List.drop_left]

/-- The sender's buffer is the packets one after another. -/
theorem run_msg2Buffer (hms : ∀ m ∈ ms, m.Framed) (buf : Buffer) :
    run (fun buf m ↦ msg2Buffer m buf) buf ms = some (buf ++ ms.flatten) := by
  induction ms generalizing buf with
  | nil => rw [run_nil, List.flatten_nil, List.append_nil]
  | cons m ms ih =>
    rw [run_cons, msg2Buffer_of_framed (hms m List.mem_cons_self), List.flatten_cons,
      ← List.append_assoc]
    exact ih (fun m' hm' ↦ hms m' (List.mem_cons_of_mem m hm')) (buf ++ m)

theorem drains_flatten (hms : ∀ m ∈ ms, m.Framed) : packets.Drains ms.flatten ms [] := by
  rw [← List.flatMap_id]
  exact Reader.drains_flatMap (R := packets) rfl fun m hm ↦ newMsgFormBuffer_of_framed (hms m hm)

/-- Framed packets come out of both loops as they went in, however the bytes are cut. -/
theorem runs_of_framed (hms : ∀ m ∈ ms, m.Framed) (hchunks : chunks.flatten = ms.flatten)
    (hn : ms.length < n) :
    run (TcpServer.deliver session n) ([], []) chunks = some (fromClient session ms, []) ∧
      run (TcpClient.deliver n) ([], []) chunks = some (ms, []) := by
  have hdelivers : packets.Delivers [] chunks ms [] := by
    rw [Reader.delivers_iff (R := packets) rfl, List.nil_append, hchunks]
    exact drains_flatten hms
  have hclient : ∀ k, ms.length < k → run (TcpClient.deliver k) ([], []) chunks = some (ms, []) :=
    fun k hk ↦ TcpClient.run_deliver hdelivers hk []
  refine ⟨?_, hclient n hn⟩
  rw [TcpServer.run_deliver_eq, hclient (n + 1) (by omega)]
  rfl

/-- **Framing.** Whatever messages go out, however the stream is cut, and on whichever side it
arrives: the loops hand out the messages and leave nothing behind. -/
theorem framing (hms : ∀ m ∈ ms, m.Framed) :
    ∃ out, run (fun buf m ↦ msg2Buffer m buf) [] ms = some out ∧
      ∀ chunks : List (List UInt8), chunks.flatten = out → ∀ n, ms.length < n →
        run (TcpServer.deliver session n) ([], []) chunks = some (fromClient session ms, []) ∧
        run (TcpClient.deliver n) ([], []) chunks = some (ms, []) :=
  ⟨ms.flatten, run_msg2Buffer hms [], fun _ hchunks _ hn ↦ runs_of_framed hms hchunks hn⟩

/-- A message with three bytes of data and one with none. -/
def sampleMessages : List Message :=
  [[3, 0, 0, 0, 0, 0, 0, 0, 1, 2, 10, 11, 12, 0, 0, 0],
    [0, 0, 0, 0, 0, 0, 0, 0, 1, 3, 0, 0, 0, 0, 0, 0]]

/-- Two packets, sent and received. -/
theorem framing_sampleMessages :
    ∃ out, run (fun buf m ↦ msg2Buffer m buf) [] sampleMessages = some out ∧
      ∀ chunks : List (List UInt8), chunks.flatten = out → ∀ n, sampleMessages.length < n →
        run (TcpServer.deliver 2 n) ([], []) chunks = some (fromClient 2 sampleMessages, []) ∧
        run (TcpClient.deliver n) ([], []) chunks = some (sampleMessages, []) := by
  refine framing fun m hm ↦ ?_
  rcases List.mem_cons.1 hm with rfl | hm
  · exact ⟨3, by decide, by decide, by decide⟩
  · rw [List.mem_singleton.1 hm]
    exact ⟨0, by decide, by decide, by decide⟩

/-! ### Any bytes at all -/

/-- A buffer can be drained unless some packet boundary in it stalls. -/
theorem exists_drains_iff :
    (∃ ms rest, packets.Drains buf ms rest) ↔ ∀ k, Boundary buf k → ¬ Stalls (buf.drop k) := by
  have hle : ∀ r m r', enouthData r = true → newMsgFormBuffer r = some (m, r') →
      r' = r ∨ r'.length < r.length := by
    intro r m r' hready htake
    obtain ⟨-, -, rfl⟩ := (newMsgFormBuffer_eq_some_iff hready).1 htake
    obtain ⟨hlen, -⟩ := enouthData_iff.1 hready
    rcases Nat.eq_zero_or_pos (frontSize r) with h | h
    · exact Or.inl (by rw [h, List.drop_zero])
    · exact Or.inr (by rw [List.length_drop]; omega)
  rw [Reader.exists_drains_iff (R := packets) hle]
  constructor
  · intro h k hk hstalls
    obtain ⟨ms, hreads⟩ := exists_reads_iff.2 ⟨k, hk, rfl⟩
    have hready := enouthData_iff.2 ⟨hstalls.1, hstalls.2.1⟩
    exact (exists_shorter_iff hready).1 (h ms _ hreads hready) hstalls
  · intro h ms r hreads hready
    obtain ⟨k, hk, rfl⟩ := exists_reads_iff.1 ⟨ms, hreads⟩
    exact (exists_shorter_iff hready).2 (h k hk)

/-- **Termination.** Taking a packet makes the buffer shorter unless it stalls, and both loops end
unless the buffer stalls at one of its boundaries. -/
theorem onMessage_ends_iff (session : TcpConnectionPtr) (msgList : List MsgFromClient)
    (inMsgList : List Message) (buf : Buffer) :
    ((enouthData buf = true →
      ∃ msg rest, newMsgFormBuffer buf = some (msg, rest) ∧ rest.length < buf.length) ↔
        ¬ Stalls buf) ∧
    ((∃ n s, TcpServer.onMessage session n msgList buf = some s) ↔
      ∀ k, Boundary buf k → ¬ Stalls (buf.drop k)) ∧
    ((∃ n s, TcpClient.onMessage n inMsgList buf = some s) ↔
      ∀ k, Boundary buf k → ¬ Stalls (buf.drop k)) := by
  have hclient : ∀ l, (∃ n s, TcpClient.onMessage n l buf = some s) ↔
      ∀ k, Boundary buf k → ¬ Stalls (buf.drop k) := by
    intro l
    rw [← exists_drains_iff]
    constructor
    · intro ⟨n, ⟨l', rest⟩, h⟩
      obtain ⟨ms, hdrains, -, -⟩ := TcpClient.onMessage_eq_some_iff.1 h
      exact ⟨ms, rest, hdrains⟩
    · intro ⟨ms, rest, hdrains⟩
      exact ⟨ms.length + 1, _, TcpClient.onMessage_eq_some_iff.2 ⟨ms, hdrains, by omega, rfl⟩⟩
  refine ⟨?_, ?_, hclient inMsgList⟩
  · cases hready : enouthData buf with
    | false =>
      refine iff_of_true (fun h ↦ absurd h (by decide)) fun hstalls ↦ ?_
      rw [enouthData_iff.2 ⟨hstalls.1, hstalls.2.1⟩] at hready
      exact absurd hready (by decide)
    | true => exact ⟨fun h ↦ (exists_shorter_iff hready).1 (h rfl),
        fun h _ ↦ (exists_shorter_iff hready).2 h⟩
  · rw [← hclient []]
    constructor
    · intro ⟨n, s, h⟩
      rw [TcpServer.onMessage_eq, Option.map_eq_some_iff] at h
      obtain ⟨s', h', -⟩ := h
      exact ⟨n + 1, s', h'⟩
    · intro ⟨n, s, h⟩
      cases n with
      | zero => simp [TcpClient.onMessage] at h
      | succ n => exact ⟨n, _, by rw [TcpServer.onMessage_eq, h]; rfl⟩

/-- A stated length of -10: the packet is empty, and both loops take it for ever. -/
theorem onMessage_stalls :
    let buf : Buffer := [246, 255, 255, 255, 0]
    enouthData buf = true ∧ newMsgFormBuffer buf = some ([], buf) ∧
      ∀ n, TcpServer.onMessage 2 n [] buf = none ∧ TcpClient.onMessage n [] buf = none := by
  intro buf
  have hready : enouthData buf = true := by decide
  have htake : newMsgFormBuffer buf = some ([], buf) := by decide
  have hclient : ∀ n, TcpClient.onMessage n [] buf = none := by
    intro n
    refine Option.eq_none_iff_forall_ne_some.2 fun s h ↦ ?_
    obtain ⟨ms, hdrains, -, -⟩ := TcpClient.onMessage_eq_some_iff.1 h
    exact Reader.not_drains_of_stuck (R := packets) (b := buf) hready htake hdrains
  refine ⟨hready, htake, fun n ↦ ⟨?_, hclient n⟩⟩
  rw [TcpServer.onMessage_eq, hclient, Option.map_none]

/-! ### Well-formed messages -/

/-- The command and all of the data lie inside the allocation. -/
def Message.WellFormed (m : Message) : Prop :=
  ∃ n, m.dataLen = some n ∧ cmdHeaderSize + cmdTypeSize + n.toNat ≤ m.length

/-- A whole packet is at the front of the buffer, and states a length from -17 to -1. -/
def Overruns (buf : Buffer) : Prop :=
  4 < buf.length ∧ frontSize buf ≤ buf.length ∧ 2 ^ 32 - 17 ≤ (frontLen buf).toNat

instance (buf : Buffer) : Decidable (Overruns buf) :=
  inferInstanceAs (Decidable (4 < buf.length ∧ frontSize buf ≤ buf.length ∧
    2 ^ 32 - 17 ≤ (frontLen buf).toNat))

/-- The header of a packet that was cut off, if it has one. -/
private theorem dataLen_take (h : enouthData buf = true) :
    Message.dataLen (buf.take (frontSize buf)) =
      if 4 ≤ frontSize buf then some (frontLen buf) else none := by
  obtain ⟨hlen, hsize⟩ := enouthData_iff.1 h
  rw [Message.dataLen, leAt, List.length_take, Nat.min_eq_left hsize, Nat.zero_add]
  split_ifs with h4
  · rw [List.drop_zero, List.take_take, Nat.min_eq_left h4]
    rfl
  · rfl

/-- A packet that has been cut off is well formed if and only if its lengths do not overrun. -/
theorem wellFormed_take_iff (h : enouthData buf = true) (halloc : Allocates (frontLen buf)) :
    Message.WellFormed (buf.take (frontSize buf)) ↔ ¬ Overruns buf := by
  obtain ⟨hlen, hsize⟩ := enouthData_iff.1 h
  have hlt := (frontLen buf).isLt
  have hnat := toNat_sizeT_packetSize (frontLen buf)
  rw [← frontSize] at hnat
  rw [Message.WellFormed, dataLen_take h, List.length_take, Nat.min_eq_left hsize, cmdHeaderSize,
    cmdTypeSize]
  rcases allocates_iff.1 halloc with hle | hge
  · rw [if_pos (by omega)] at hnat
    refine iff_of_true ⟨frontLen buf, if_pos (by omega), by omega⟩ fun hover ↦ ?_
    exact absurd hover.2.2 (by omega)
  · refine iff_of_false ?_ fun hover ↦ hover ⟨hlen, hsize, hge⟩
    rintro ⟨n, hn, hroom⟩
    split_ifs at hn
    obtain rfl := Option.some.inj hn
    rw [if_pos (by omega)] at hnat
    omega

/-- **Well-formed messages.** However the stream is cut, and at any point of its history: all
messages that have been handed out are well formed, unless the stream states a length from -17 to -1
at one of its boundaries. -/
theorem receives_wellFormed_iff (chunks : List (List UInt8)) :
    (∀ ms rest, packets.Receives [] chunks ms rest → ∀ m ∈ ms, m.WellFormed) ↔
      ∀ k, Boundary chunks.flatten k → ¬ Overruns (chunks.flatten.drop k) := by
  have hreads : ∀ ms, (∃ rest, packets.Receives [] chunks ms rest) ↔
      ∃ rest, packets.Reads chunks.flatten ms rest :=
    fun ms ↦ Reader.receives_iff (R := packets) rfl
  constructor
  · intro h k hk hover
    obtain ⟨ms, hms⟩ := exists_reads_iff.2 ⟨k, hk, rfl⟩
    have hready := enouthData_iff.2 ⟨hover.1, hover.2.1⟩
    have halloc := allocates_iff.2 (Or.inr hover.2.2)
    have htake := (newMsgFormBuffer_eq_some_iff hready).2 ⟨halloc, rfl, rfl⟩
    obtain ⟨rest, hreceives⟩ := (hreads _).2 ⟨_, hms.trans (.single hready htake)⟩
    exact (wellFormed_take_iff hready halloc).1
      (h _ rest hreceives _ (List.mem_append_right ms List.mem_cons_self)) hover
  · intro h ms rest hreceives m hm
    obtain ⟨_, hms⟩ := (hreads ms).1 ⟨rest, hreceives⟩
    obtain ⟨ms₀, b, b', hms₀, hready, htake⟩ := hms.exists_taken hm
    obtain ⟨k, hk, rfl⟩ := exists_reads_iff.1 ⟨ms₀, hms₀⟩
    obtain ⟨halloc, rfl, -⟩ := (newMsgFormBuffer_eq_some_iff hready).1 htake
    exact (wellFormed_take_iff hready halloc).2 (h k hk)

/-- What a server has handed out at the end of some callbacks, it has received. -/
theorem TcpServer.receives_of_run {l : List MsgFromClient}
    (h : run (deliver session n) ([], []) chunks = some (l, rest)) :
    ∃ ms, packets.Receives [] chunks ms rest ∧ l = fromClient session ms := by
  rw [run_deliver_eq] at h
  obtain ⟨⟨ms, r⟩, hrun, hl⟩ := Option.map_eq_some_iff.1 h
  obtain ⟨rfl, rfl⟩ := Prod.mk.inj hl
  obtain ⟨_, hdelivers, rfl⟩ := TcpClient.delivers_of_run hrun
  exact ⟨_, hdelivers.receives, rfl⟩

/-- A stated length of -9: the allocation ends behind the header, where consumers look for a command
and four gigabytes of data. -/
theorem receives_overrun :
    let chunks : List (List UInt8) := [[247, 255, 255, 255, 0, 0, 0, 0]]
    ∃ m rest, packets.Receives [] chunks [m] rest ∧ ¬ m.WellFormed ∧
      TcpServer.onMessage 2 1 [] chunks.flatten = some ([⟨m, 2⟩], rest) ∧
      TcpClient.onMessage 2 [] chunks.flatten = some ([m], rest) := by
  intro chunks
  refine ⟨[247, 255, 255, 255, 0, 0, 0, 0], [], ?_, ?_, by decide, by decide⟩
  · exact .loop (.single (by decide) (by decide))
  · intro ⟨n, hn, hroom⟩
    obtain rfl := Option.some.inj hn
    exact absurd hroom (by decide)

end QCLib
