import QCLib.Net.MuduoFraming
import QCLib.Net.MuduoLifecycle

/-!
# Messages from one end of a connection to the other

Two connections of the network library, one at each end, with the bytes of either stream that are
under way between them, and the receive loops of the servers here as their message callbacks. What
the far end has handed out is at any time an initial part of the messages that the near end has
taken on, in both directions; it is all of them once nothing is under way, be it because everything
was written or because a shutdown has ended the stream (`Wire.run_delivers`). No assertion fails on
the way, while no thread writes the state of a connection that is closed, as in
`TcpConnection.run_lifecycle`.

`Carries` is what the proof keeps of the stream in either direction: the bytes that were read and
those under way are the ones that were written, and what the receive loop has made of the first is
what draining them makes. A step at one end changes what is written there and read there, so one
lemma about the near end (`exists_nearStep`) serves both.

A `Wire` is symmetric, and `swap` exchanges its ends, so everything is shown for the near end. The
receive loops enter as `MessageCallback`, a function together with the assumption that it drains the
buffer, and both loops of the servers are instances of it, by `Net.MuduoFraming`. With it the run is
a simulation: what is written at one end, carried over and drained at the other is what the framing
of queues says.
-/

open Bytes Framing StepRun

namespace QCLib.Muduo

namespace TcpConnection

variable {β : Type} {c c' : TcpConnection β} {s : Sending} {n : Nat} {result : WriteResult}
  {messageCallback : β → Buffer → Option (β × Buffer)} {e : Event} {ms : List Message}

/-! ### What a step leaves alone -/

/-- The messages that an event asks to be sent. -/
def Event.messages : Event → List Message
  | .runInLoop (.send message) _ | .call _ (.send message) => [message]
  | _ => []

/-- The bytes that an event brings. -/
def Event.incoming : Event → Option (List UInt8)
  | .handleRead (.data incoming) => some incoming
  | _ => none

/-- What has been received is untouched, more may have been written, and some messages may have been
asked to be sent. -/
structure Extends (ms : List Message) (c c' : TcpConnection β) : Prop where
  user_eq : c'.user = c.user
  inputBuffer_eq : c'.inputBuffer = c.inputBuffer
  written : c.written <+: c'.written
  sends : ∀ s ∈ c'.sends, s ∈ c.sends ∨ s.message ∈ ms

namespace Extends

/-- A step that neither receives, writes nor asks for anything. -/
theorem refl (ms : List Message) (c : TcpConnection β) : Extends ms c c :=
  ⟨rfl, rfl, List.prefix_refl _, fun _ ↦ .inl⟩

theorem sendInLoop (hc' : c.sendInLoop s result = some c') : Extends ms c c' := by
  rcases of_sendInLoop hc' with ⟨rfl, -⟩ | ⟨n, hrest, -⟩
  · exact { refl ms c with }
  · obtain ⟨-, b, -, rfl⟩ := of_appendRest hrest
    exact { refl ms c with written := List.prefix_append _ _ }

theorem shutdownInLoop (ms : List Message) (c : TcpConnection β) :
    Extends ms c c.shutdownInLoop := by
  rw [TcpConnection.shutdownInLoop]
  split_ifs
  · exact { refl ms c with }
  · exact refl ms c

/-- Closing writes nothing, and keeps what has been received. -/
theorem handleClose (hc' : c.handleClose = some c') : Extends ms c c' := by
  rw [TcpConnection.handleClose] at hc'
  split_ifs at hc'
  obtain rfl := Option.some.inj hc'
  exact { refl ms c with }

theorem handleWrite (hc' : c.handleWrite result = some c') : Extends ms c c' := by
  rcases of_handleWrite hc' with rfl | ⟨n, b, hwriting, -, hn, hretrieve, hwrote⟩
  · exact refl ms c'
  · rw [handleWrite_wrote hwriting hn hretrieve] at hwrote
    obtain rfl := Option.some.inj hwrote
    exact { refl ms c with written := List.prefix_append _ _ }

/-- The last functor of a connection takes it off the poller. -/
theorem connectDestroyed (hc' : c.connectDestroyed = some c') : Extends ms c c' := by
  rw [TcpConnection.connectDestroyed] at hc'
  split_ifs at hc'
  · obtain rfl := Option.some.inj hc'
    exact { refl ms c with }
  · obtain rfl := Option.some.inj hc'
    exact refl ms c

/-- A functor may write what another thread has asked to be sent. -/
theorem callFunctor {functor : Functor} (hc' : c.callFunctor result functor = some c') :
    Extends ms c c' := by
  cases functor with
  | sendInLoop s => exact sendInLoop hc'
  | shutdownInLoop =>
    obtain rfl := Option.some.inj hc'
    exact shutdownInLoop ms c
  | forceCloseInLoop =>
    change c.forceCloseInLoop = some c' at hc'
    rw [forceCloseInLoop] at hc'
    split_ifs at hc'
    · exact handleClose hc'
    · obtain rfl := Option.some.inj hc'
      exact refl ms c
  | connectDestroyed => exact connectDestroyed hc'

theorem doPendingFunctor (hc' : c.doPendingFunctor result = some c') : Extends ms c c' := by
  rw [TcpConnection.doPendingFunctor] at hc'
  split at hc'
  · obtain rfl := Option.some.inj hc'
    exact refl ms c
  · have h : Extends ms _ c' := callFunctor hc'
    exact { h with }

/-- A call adds its own message to the account, and no other. -/
theorem mem_note {message : Message} {t : Option Nat}
    (hs : s ∈ (c.note t (.send message)).sends) : s ∈ c.sends ∨ s.message ∈ [message] := by
  rcases List.mem_append.1 hs with hs | hs
  · exact .inl hs
  · rw [List.mem_singleton.1 hs]
    exact .inr List.mem_cons_self

/-- A call of the thread of the loop asks for one message to be sent, at most. -/
theorem runInLoop {request : Request} (hc' : c.runInLoop result request = some c') :
    Extends (Event.runInLoop request result).messages c c' := by
  unfold TcpConnection.runInLoop at hc'
  split_ifs at hc' with haccepts
  · cases request with
    | send message =>
      have h : Extends [message] (c.note none (.send message)) c' := sendInLoop hc'
      exact { h with sends := fun s hs ↦ (h.sends s hs).elim mem_note .inr }
    | shutdown =>
      obtain rfl := Option.some.inj hc'
      exact { shutdownInLoop [] { c with state := .kDisconnecting } with }
    | forceClose =>
      obtain rfl := Option.some.inj hc'
      exact { refl [] c with }
  · obtain rfl := Option.some.inj hc'
    exact refl _ c

/-- A call of another thread does so too, before it has queued anything. -/
theorem call {t : Nat} {request : Request} (hc' : c.call t request = some c') :
    Extends (Event.call t request).messages c c' := by
  rw [TcpConnection.call] at hc'
  split_ifs at hc' with hcall haccepts
  · obtain rfl := Option.some.inj hc'
    cases request with
    | send message =>
      exact { refl [message] c with sends := fun _ ↦ mem_note }
    | shutdown | forceClose => exact { refl [] c with }
  · obtain rfl := Option.some.inj hc'
    exact refl _ c

theorem advance (ms : List Message) (c : TcpConnection β) (t : Nat) :
    Extends ms c (c.advance t) := by
  rw [TcpConnection.advance]
  split
  case h_1 => exact refl ms c
  all_goals exact { refl ms c with }

/-- **One step** of a connection that brings no bytes extends its stream by what it writes, and
leaves what it has received. -/
theorem of_step (hdata : e.incoming = none) (hc' : c.step messageCallback e = some c') :
    Extends e.messages c c' := by
  cases e with
  | connectEstablished =>
    change c.connectEstablished = some c' at hc'
    rw [connectEstablished] at hc'
    split_ifs at hc'
    obtain rfl := Option.some.inj hc'
    exact { refl [] c with }
  | handleRead result =>
    cases result with
    | data incoming => cases hdata
    | eof => exact handleClose hc'
    | error =>
      obtain rfl := Option.some.inj hc'
      exact refl [] c
  | handleWrite result => exact handleWrite hc'
  | hangup => exact handleClose hc'
  | runInLoop request result => exact runInLoop hc'
  | call t request => exact call hc'
  | advance t =>
    obtain rfl := Option.some.inj hc'
    exact advance [] c t
  | doPendingFunctor result => exact doPendingFunctor hc'
  | removeConnection =>
    obtain rfl := Option.some.inj hc'
    split_ifs
    · exact { refl [] c with }
    · exact refl [] c

end Extends

/-- A message that was taken on was asked to be sent by somebody. -/
theorem Consistent.mem_sends (h : Consistent [] c) {m : Message} (hm : m ∈ c.accepted) :
    ∃ s ∈ c.sends, s.message = m := by
  obtain ⟨⟨s, o⟩, hmem, ho⟩ := List.mem_filterMap.1 hm
  split_ifs at ho
  refine ⟨s, ?_, Option.some.inj ho⟩
  have hthread : s ∈ byThread s.thread (c.outcomes.map Prod.fst) :=
    List.mem_filter.2 ⟨List.mem_map.2 ⟨_, hmem, rfl⟩, by simp⟩
  have hsends : s ∈ byThread s.thread c.sends := by
    rw [← h.order]
    exact List.mem_append_left _ (List.mem_append_left _ hthread)
  exact (List.mem_filter.1 hsends).1

end TcpConnection

/-! ### The receive loops as callbacks -/

instance (m : Message) : Decidable m.Framed :=
  match h : m.dataLen with
  | some len => decidable_of_iff (len.toNat ≤ 2 ^ 31 - 25 ∧ m.length = (packetSize len).toNat)
      ⟨fun h' ↦ ⟨len, h, h'⟩, fun ⟨_, hlen, h'⟩ ↦ Option.some.inj (h.symm.trans hlen) ▸ h'⟩
  | none => isFalse fun ⟨_, hlen, _⟩ ↦ by rw [h] at hlen; cases hlen

/-- A message callback that takes packets off the buffer as long as there are any, and keeps their
messages somewhere. -/
structure MessageCallback (β : Type) where
  call : β → Buffer → Option (β × Buffer)
  messages : β → List Message
  drains : ∀ {u b ms r}, packets.Drains b.content ms r →
    ∃ u' b', call u b = some (u', b') ∧ messages u' = messages u ++ ms ∧ b'.content = r

/-- A loop that has a turn for every byte of its buffer, and one more, has enough of them for the
packets in it. -/
theorem length_lt_of_drains {buf : Buffer} {ms : List Message} {r : List UInt8}
    (h : packets.Drains buf.content ms r) : ms.length < buf.readableBytes + 1 := by
  have hle : ms.length ≤ buf.content.length := by
    refine Reader.Drains.length_le (R := packets) (fun b m b' hready htake ↦ ?_) h
    obtain ⟨-, -, rfl⟩ := (newMsgFormBuffer_eq_some_iff hready).1 htake
    obtain ⟨hlen, -⟩ := enouthData_iff.1 hready
    rcases Nat.eq_zero_or_pos (frontSize b) with hzero | hpos
    · exact .inl (by rw [hzero, List.drop_zero])
    · exact .inr (by rw [List.length_drop]; omega)
  rw [Buffer.length_content] at hle
  omega

/-- `TcpClient::onMessage`, with as many turns as it may take. -/
def TcpClient.messageCallback : MessageCallback (List Message) where
  call inMsgList buf := onMessage (buf.readableBytes + 1) inMsgList buf
  messages := id
  drains {u b ms r} h := by
    have hmap := onMessage_map (b.readableBytes + 1) u b
    rw [QCLib.TcpClient.onMessage_eq_some_iff.2 ⟨ms, h, length_lt_of_drains h, rfl⟩] at hmap
    obtain ⟨⟨u', b'⟩, hcall, hview⟩ := Option.map_eq_some_iff.1 hmap.symm
    obtain ⟨rfl, hcontent⟩ := Prod.mk.inj hview
    exact ⟨_, b', hcall, rfl, hcontent⟩

/-- `TcpServer::onMessage`. -/
def TcpServer.messageCallback (session : TcpConnectionPtr) :
    MessageCallback (List MsgFromClient) where
  call msgList buf := onMessage session (buf.readableBytes + 1) msgList buf
  messages := List.map MsgFromClient.message
  drains {u b ms r} h := by
    have hmap : QCLib.TcpServer.onMessage session _ u b.content = _ :=
      onMessage_map (b.readableBytes + 1) u b
    have hloop : QCLib.TcpClient.onMessage (b.readableBytes + 1 + 1) [] b.content =
        some ([] ++ ms, r) :=
      QCLib.TcpClient.onMessage_eq_some_iff.2
        ⟨ms, h, Nat.lt_succ_of_lt (length_lt_of_drains h), rfl⟩
    rw [QCLib.TcpServer.onMessage_eq, hloop] at hmap
    obtain ⟨⟨u', b'⟩, hcall, hview⟩ := Option.map_eq_some_iff.1 hmap.symm
    obtain ⟨rfl, hcontent⟩ := Prod.mk.inj hview
    refine ⟨_, b', hcall, ?_, hcontent⟩
    rw [List.nil_append, List.map_append, fromClient, List.map_map]
    exact congrArg _ (List.map_id ms)

/-! ### Two ends -/

/-- A connection at each end, and the bytes that are under way to them. -/
structure Wire (α β : Type) where
  near : TcpConnection α
  far : TcpConnection β
  toNear : List UInt8 := []
  toFar : List UInt8 := []

namespace Wire

variable {α β : Type} (R : MessageCallback α) (S : MessageCallback β)

/-- Seen from the other end. -/
def swap (w : Wire α β) : Wire β α := ⟨w.far, w.near, w.toFar, w.toNear⟩

/-- An event at the near end: what `readv` brings is under way to it, and what is written is under
way from it. -/
def nearStep (w : Wire α β) (e : TcpConnection.Event) : Option (Wire α β) := do
  let near ← w.near.step R.call e
  match e.incoming with
  | some incoming =>
    if incoming <+: w.toNear then
      return { w with near, toNear := w.toNear.drop incoming.length }
    else none
  | none => return { w with near, toFar := w.toFar ++ near.written.drop w.near.written.length }

/-- An event at either end. -/
def step (w : Wire α β) : TcpConnection.Event ⊕ TcpConnection.Event → Option (Wire α β)
  | .inl e => w.nearStep R e
  | .inr e => (w.swap.nearStep S e).map swap

/-- What can happen at the near end: what arrives was under way. That the receive loop copes with it
is not asked for. -/
def Arrives (w : Wire α β) (e : TcpConnection.Event) : Option (List UInt8) → Prop
  | some incoming => w.near.reading ∧ incoming <+: w.toNear ∧
      (Buffer.Op.readFd incoming).Allowed w.near.inputBuffer
  | none => w.near.Legal R.call e

instance decidableArrives (w : Wire α β) (e : TcpConnection.Event) :
    ∀ o, Decidable (w.Arrives R e o)
  | some _ => inferInstanceAs (Decidable (_ ∧ _ ∧ _))
  | none => inferInstanceAs (Decidable (w.near.Legal R.call e))

/-- What can happen at the near end: messages to be sent are framed, the kernel is honest, and what
arrives was under way. -/
def NearLegal (w : Wire α β) (e : TcpConnection.Event) : Prop :=
  (∀ m ∈ e.messages, m.Framed) ∧ w.near.Possible e ∧ w.Arrives R e e.incoming

instance (w : Wire α β) (e : TcpConnection.Event) : Decidable (w.NearLegal R e) :=
  inferInstanceAs (Decidable (_ ∧ _ ∧ _))

def Legal (w : Wire α β) : TcpConnection.Event ⊕ TcpConnection.Event → Prop
  | .inl e => w.NearLegal R e
  | .inr e => w.swap.NearLegal S e

instance decidableLegal (w : Wire α β) : ∀ e, Decidable (w.Legal R S e)
  | .inl e => inferInstanceAs (Decidable (w.NearLegal R e))
  | .inr e => inferInstanceAs (Decidable (w.swap.NearLegal S e))

/-- What holds of the stream from the near end to the far one. -/
structure Carries (w : Wire α β) : Prop where
  consistent : w.near.Consistent []
  orderly : w.near.Orderly
  framed : ∀ s ∈ w.near.sends, Message.Framed s.message
  /-- What has been read, and what the loop has made of it. -/
  read : ∃ read, read ++ w.toFar = w.near.written ∧
    packets.Drains read (S.messages w.far.user) w.far.inputBuffer.content

variable {R S} {w w' : Wire α β} {e : TcpConnection.Event}

namespace Carries

/-- What was taken on has been sent by somebody, and is framed. -/
theorem framed_accepted (h : w.Carries S) : ∀ m ∈ w.near.accepted, Message.Framed m := by
  intro m hm
  obtain ⟨s, hs, rfl⟩ := h.consistent.mem_sends hm
  exact h.framed s hs

/-- Everything drains to the messages that were taken on. -/
theorem drains_stream (h : w.Carries S) :
    packets.Drains (w.near.written ++ w.near.outputBuffer.content) w.near.accepted [] :=
  h.consistent.stream ▸ drains_flatten h.framed_accepted

/-- **More arrives**, and the receive loop comes to its end. -/
theorem exists_arrive (h : w.Carries S) {incoming : List UInt8} (hincoming : incoming <+: w.toFar)
    {b : Buffer} (hb : b.content = w.far.inputBuffer.content ++ incoming) :
    ∃ user b', S.call w.far.user b = some (user, b') ∧
      { w with
        far := { w.far with user, inputBuffer := b' }
        toFar := w.toFar.drop incoming.length }.Carries S := by
  obtain ⟨read, hread, hdrains⟩ := h.read
  obtain ⟨rest, hrest⟩ := hincoming
  have hstream := h.drains_stream
  rw [← hread, ← hrest, ← List.append_assoc, List.append_assoc] at hstream
  obtain ⟨ms, -, r, -, hsofar, -⟩ := Reader.Drains.split (R := packets) hstream
  obtain ⟨ms₁, ms₂, r₁, rfl, hbefore, hmore⟩ := Reader.Drains.split (R := packets) hsofar
  obtain ⟨rfl, rfl⟩ := Reader.Drains.unique (R := packets) hbefore hdrains
  rw [← hb] at hmore
  obtain ⟨user, b', hcall, hmessages, hcontent⟩ := S.drains (u := w.far.user) hmore
  refine ⟨user, b', hcall, { h with read := ⟨read ++ incoming, ?_, ?_⟩ }⟩
  · show read ++ incoming ++ w.toFar.drop incoming.length = w.near.written
    rw [← hread, ← hrest, List.drop_left, List.append_assoc]
  · show packets.Drains _ (S.messages user) b'.content
    rw [hmessages, hcontent]
    exact hsofar

end Carries

/-- **A step at the near end** is defined, and keeps what holds of both streams. -/
theorem exists_nearStep (h : w.Carries S) (hback : w.swap.Carries R) (hlegal : w.NearLegal R e) :
    ∃ w', w.nearStep R e = some w' ∧ w'.Carries S ∧ w'.swap.Carries R := by
  obtain ⟨hmessages, hpossible, hlegal⟩ := hlegal
  cases hdata : e.incoming with
  | some incoming =>
    rw [hdata] at hlegal
    obtain ⟨-, hincoming, hbound, hmax⟩ := hlegal
    have he : e = .handleRead (.data incoming) := by
      unfold TcpConnection.Event.incoming at hdata
      split at hdata
      · rw [Option.some.inj hdata]
      · cases hdata
    subst he
    obtain ⟨b, hread, hmakes⟩ := Buffer.exists_readFd hbound hmax
    obtain ⟨user, b', hcall, hback'⟩ := hback.exists_arrive hincoming hmakes.content_eq
    have hstep : w.near.step R.call (.handleRead (.data incoming)) =
        some { w.near with user, inputBuffer := b' } := by
      show (w.near.inputBuffer.readFd incoming).bind _ = _
      rw [hread, Option.bind_some]
      show (R.call w.swap.far.user b).bind _ = _
      rw [hcall]
      rfl
    refine ⟨{ w with
      near := { w.near with user, inputBuffer := b' }
      toNear := w.toNear.drop incoming.length }, ?_, { h with
        consistent := h.consistent.of_step hpossible hstep
        orderly := { h.orderly with } }, hback'⟩
    rw [nearStep, hstep]
    exact if_pos hincoming
  | none =>
    rw [hdata] at hlegal
    obtain ⟨near, hstep, horderly⟩ := h.orderly.exists_step hlegal
    obtain ⟨huser, hinput, ⟨more, hmore⟩, hsends⟩ := TcpConnection.Extends.of_step hdata hstep
    refine ⟨{ w with near, toFar := w.toFar ++ near.written.drop w.near.written.length }, ?_,
      ⟨h.consistent.of_step hpossible hstep, horderly, ?_, ?_⟩, { hback with read := ?_ }⟩
    · rw [nearStep, hstep, hdata]
      rfl
    · intro s hs
      exact (hsends s hs).elim (h.framed s) (hmessages _)
    · obtain ⟨read, hread, hdrains⟩ := h.read
      refine ⟨read, ?_, hdrains⟩
      show read ++ (w.toFar ++ near.written.drop w.near.written.length) = near.written
      rw [← hmore, List.drop_left, ← List.append_assoc, hread]
    · obtain ⟨read, hread, hdrains⟩ := hback.read
      refine ⟨read, hread, ?_⟩
      show packets.Drains read (R.messages near.user) near.inputBuffer.content
      rw [huser, hinput]
      exact hdrains

/-- **A step at either end** is defined and keeps both directions in order. Each end is treated
once, since the swapped wire has the other one in front. -/
theorem exists_step {e : TcpConnection.Event ⊕ TcpConnection.Event}
    (h : w.Carries S ∧ w.swap.Carries R)
    (hlegal : w.Legal R S e) :
    ∃ w', w.step R S e = some w' ∧ w'.Carries S ∧ w'.swap.Carries R := by
  cases e with
  | inl e => exact exists_nearStep h.1 h.2 hlegal
  | inr e =>
    obtain ⟨w', hstep, hback, hforth⟩ := exists_nearStep (w := w.swap) h.2 h.1 hlegal
    refine ⟨w'.swap, ?_, hforth, hback⟩
    rw [step, hstep]
    rfl

/-- What the far end has handed out, of the messages that the near end has taken on. -/
structure Conveys (S : MessageCallback β) (w : Wire α β) : Prop where
  isPrefix : S.messages w.far.user <+: w.near.accepted
  all : w.toFar = [] →
    w.near.outputBuffer.content = [] ∨ w.near.reading ∧ w.near.finSent →
    S.messages w.far.user = w.near.accepted ∧ w.far.inputBuffer.content = []

/-- What was read so far drains to an initial part of the messages that were taken on, and to all of
them when nothing is left. -/
theorem Carries.conveys (h : w.Carries S) : Conveys S w := by
  obtain ⟨read, hread, hdrains⟩ := h.read
  have hstream := h.drains_stream
  rw [← hread, List.append_assoc] at hstream
  obtain ⟨ms₁, ms₂, r₁, haccepted, hsofar, -⟩ := Reader.Drains.split (R := packets) hstream
  obtain ⟨rfl, rfl⟩ := Reader.Drains.unique (R := packets) hsofar hdrains
  refine ⟨haccepted ▸ List.prefix_append _ _, fun hflight hend ↦ ?_⟩
  have hcontent : w.near.outputBuffer.content = [] :=
    hend.elim id fun ⟨hreading, hsent⟩ ↦ h.consistent.fin hreading hsent
  rw [hflight, hcontent, List.append_nil, List.append_nil] at hstream
  exact Reader.Drains.unique (R := packets) hdrains hstream

/-- Two connections that have just been made. -/
structure New (R : MessageCallback α) (S : MessageCallback β) (w : Wire α β) : Prop where
  near : w.near.New
  far : w.far.New
  toNear : w.toNear = []
  toFar : w.toFar = []
  nearInput : w.near.inputBuffer.content = []
  farInput : w.far.inputBuffer.content = []
  nearMessages : R.messages w.near.user = []
  farMessages : S.messages w.far.user = []

/-- Seen from the far end, both connections are new as well. -/
theorem New.swap (h : New R S w) : New S R w.swap :=
  ⟨h.far, h.near, h.toFar, h.toNear, h.farInput, h.nearInput, h.farMessages, h.nearMessages⟩

/-- To begin with nothing was written and nothing has been read. -/
theorem New.carries (h : New R S w) : w.Carries S where
  consistent := h.near.consistent
  orderly := h.near.orderly
  framed := by simp [h.near.sends_eq]
  read := by
    refine ⟨[], by rw [h.toFar, h.near.written_eq]; rfl, ?_⟩
    rw [h.farMessages, h.farInput]
    exact ⟨.nil [], rfl⟩

/-- **From one end to the other.** However the threads, the pollers and the queues at both ends are
interleaved, and whatever `write` and `readv` take at a time: if no thread writes the state of a
connection that is closed, and while there is memory, no assertion fails and no receive loop fails
to end; what either end has handed out is an initial part of what the other has taken on, and all of
it once nothing is under way and everything was written, or was ended by a shutdown. -/
theorem run_delivers {es : List (TcpConnection.Event ⊕ TcpConnection.Event)} (hnew : New R S w)
    (hok : Guarded (step R S) (Legal R S) w es) :
    ∃ w', run (step R S) w es = some w' ∧ Conveys S w' ∧ Conveys R w'.swap := by
  obtain ⟨w', hrun, hforth, hback⟩ :=
    exists_run (fun _ _ h hlegal ↦ exists_step h hlegal) ⟨hnew.carries, hnew.swap.carries⟩ hok
  exact ⟨w', hrun, hforth.conveys, hback.conveys⟩

private theorem initial_four_le : kCheapPrepend + 4 ≤ maxSize := by decide

/-- A server and a client, with buffers that start small. -/
def serverAndClient : Wire (List MsgFromClient) (List Message) where
  near :=
    { inputBuffer := .initial 4 initial_four_le
      outputBuffer := .initial 4 initial_four_le
      user := [] }
  far :=
    { inputBuffer := .initial 4 initial_four_le
      outputBuffer := .initial 4 initial_four_le
      user := [] }

/-- The client receives one message while the server, which reads another, is shutting down. -/
theorem run_delivers_serverAndClient :
    let R := TcpServer.messageCallback 1
    let S := TcpClient.messageCallback
    let m : Message := [3, 0, 0, 0, 0, 0, 0, 0, 1, 2, 10, 11, 12, 0, 0, 0]
    ∃ w', run (step R S) serverAndClient [.inl .connectEstablished, .inr .connectEstablished,
        .inl (.runInLoop (.send m) (.wrote 5)), .inr (.runInLoop (.send m) (.wrote 16)),
        .inr (.handleRead (.data (m.take 5))), .inl (.runInLoop .shutdown .wouldBlock),
        .inl (.handleRead (.data m)), .inl (.handleWrite (.wrote 11)),
        .inr (.handleRead (.data (m.drop 5)))] = some w' ∧
      Conveys S w' ∧ Conveys R w'.swap := by
  have hnew : New (TcpServer.messageCallback 1) TcpClient.messageCallback serverAndClient :=
    ⟨⟨rfl, rfl, rfl, rfl, rfl, fun _ ↦ rfl, rfl, rfl, rfl, rfl, rfl, rfl⟩,
      ⟨rfl, rfl, rfl, rfl, rfl, fun _ ↦ rfl, rfl, rfl, rfl, rfl, rfl, rfl⟩,
      rfl, rfl, rfl, rfl, rfl, rfl⟩
  exact run_delivers hnew (by decide)

end Wire

end QCLib.Muduo
