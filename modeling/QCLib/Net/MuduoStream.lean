import Mathlib.Tactic
import QCLib.Foundations.StepRun
import QCLib.Net.MuduoConnection

/-!
# What a connection of the network library sends

`Consistent` is what holds of a connection whenever its loop is between two callbacks, or has
functors in hand that it is about to call; each function keeps it, and so does every run. Read off
it: the stream is the messages that the connection has taken on, each whole, and every thread's
messages are dealt with in the order of its calls (`run_stream`); a shutdown ends the stream behind
all of them (`run_shutdown`), and as long as bytes wait, the poller that writes them is on
(`run_finishing`, `exists_run_handleWrite`).

The kernel is only trusted not to write behind the end of a stream (`Honest`). That is needed: the
messages that other threads have queued before a shutdown may be called after it, and the state does
not keep `sendInLoop` from writing them.

The bookkeeping fields say what was asked and what became of it. `sends` has every call of `send` in
the order in which it was made, and `outcomes` has those that the loop has dealt with. `Consistent`
relates the two, thread by thread: what a thread has asked for is what was dealt with, what the loop
has in hand, what waits in the queue, and what the thread is about to queue, in this order. Between
threads there is no order.

The results are independent of the receive side, which only has to be a function of the buffer.
-/

open StepRun

namespace QCLib.Muduo

namespace TcpConnection

variable {β : Type} {functor : Functor}

/-! ### What holds throughout -/

/-- The messages of a thread. -/
def byThread (t : Option Nat) (l : List Sending) : List Sending := l.filter fun s ↦ s.thread = t

theorem byThread_append (t : Option Nat) (l l' : List Sending) :
    byThread t (l ++ l') = byThread t l ++ byThread t l' := List.filter_append l l'

/-- The messages of some functors. -/
def sendings (functors : List Functor) : List Sending := functors.filterMap Functor.sending

theorem sendings_append (l l' : List Functor) :
    sendings (l ++ l') = sendings l ++ sendings l' := List.filterMap_append

theorem sendings_singleton (h : functor.sending = none) : sendings [functor] = [] :=
  List.filterMap_cons_none h

/-- The message of a call that has not queued it yet. -/
def sendingOf (t : Nat) : Option Call → List Sending
  | some (.send message) => [⟨some t, message⟩]
  | _ => []

/-- The message of a thread that it has not queued yet. -/
def underWay (c : TcpConnection β) : Option Nat → List Sending
  | none => []
  | some t => sendingOf t (c.calls t)

/-- The messages that the connection has taken on. -/
def accepted (c : TcpConnection β) : List (List UInt8) :=
  c.outcomes.filterMap fun o ↦ if o.2 then some o.1.message else none

/-- A shutdown has ended the stream, or something is left that will: the bytes that wait, or one of
some functors, or the call of a thread. -/
def Finishing (c : TcpConnection β) (functors : List Functor) : Prop :=
  c.finSent ∨ c.writing ∨ .shutdownInLoop ∈ functors ∨ .forceCloseInLoop ∈ functors ∨
    ∃ t, c.calls t = some .shutdownSet ∨ c.calls t = some .forceCloseSet

/-- What holds of a connection whose loop has some functors in hand. -/
structure Consistent (hand : List Functor) (c : TcpConnection β) : Prop where
  /-- Nothing is in the stream but the messages that were taken on, one after the other. -/
  stream : c.written ++ c.outputBuffer.content = c.accepted.flatten
  /-- Each thread's messages are in order. -/
  order : ∀ t, byThread t (c.outcomes.map Prod.fst) ++
    byThread t (sendings (hand ++ c.pendingFunctors)) ++ c.underWay t = byThread t c.sends
  loop : byThread none (sendings c.pendingFunctors) = []
  nonempty : c.writing → c.outputBuffer.content ≠ []
  polled : c.reading → c.outputBuffer.content ≠ [] → c.writing
  fin : c.reading → c.finSent → c.outputBuffer.content = []
  finishing : c.reading → c.state = .kDisconnecting →
    c.Finishing (hand ++ c.pendingFunctors)
  fresh : c.state = .kConnecting → c.outputBuffer.content = [] ∧ c.pendingFunctors = [] ∧
    (∀ t, c.calls t = none) ∧ c.closing = false

variable {hand rest : List Functor} {c c' : TcpConnection β} {s : Sending}
  {result : WriteResult} {n t : Nat}

/-- With more functors to come, what will end the stream is still to come. -/
theorem Finishing.mono {l l' : List Functor} (h : c.Finishing l) (hl : l ⊆ l') :
    c.Finishing l' :=
  h.imp_right (Or.imp_right (Or.imp (@hl _) (Or.imp_left (@hl _))))

/-- What `write(2)` can say: nothing is written after the end of the stream. -/
def Honest (c : TcpConnection β) (result : WriteResult) : Prop :=
  c.finSent → result = .broken

instance : Decidable (c.Honest result) := inferInstanceAs (Decidable (_ → _))

/-! ### The loop keeps it -/

/-- What is taken on: some bytes are written, and the others are behind those that wait. -/
theorem of_appendRest (h : c.appendRest s n = some c') : n ≤ s.message.length ∧
    ∃ b, b.content = c.outputBuffer.content ++ s.message.drop n ∧
      c' = { c with
        written := c.written ++ s.message.take n
        outcomes := c.outcomes ++ [(s, true)]
        outputBuffer := b
        writing := c.writing || decide (n < s.message.length) } := by
  rw [appendRest] at h
  split_ifs at h with hle hrest
  · obtain ⟨b, happend, hc'⟩ := Option.bind_eq_some_iff.1 h
    refine ⟨hle, b, Buffer.content_of_append happend, ?_⟩
    rw [← Option.some.inj hc', decide_eq_true (by omega : n < s.message.length), Bool.or_true]
  · refine ⟨hle, c.outputBuffer, ?_, ?_⟩
    · rw [List.drop_of_length_le (by omega), List.append_nil]
    · rw [← Option.some.inj h, decide_eq_false (by omega : ¬ n < s.message.length), Bool.or_false]

/-- What `sendInLoop` does: it drops the message, or takes it on; and it writes only when nothing
waits. -/
theorem of_sendInLoop (h : c.sendInLoop s result = some c') :
    (c' = { c with outcomes := c.outcomes ++ [(s, false)] } ∧
      (c.state = .kDisconnected ∨ result = .broken)) ∨
    ∃ n, c.appendRest s n = some c' ∧
      (c.outputBuffer.content = [] ∧ c.writing = false ∧ result ≠ .broken ∨
        n = 0 ∧ (c.outputBuffer.content ≠ [] ∨ c.writing)) := by
  unfold sendInLoop at h
  split_ifs at h with hstate hdirect
  · exact .inl ⟨(Option.some.inj h).symm, .inl hstate⟩
  · obtain ⟨hwriting, hempty⟩ := hdirect
    have hcontent : c.outputBuffer.content = [] := by
      rw [← List.length_eq_zero_iff, Buffer.length_content, hempty]
    rw [Bool.not_eq_true'] at hwriting
    cases result with
    | wrote n => exact .inr ⟨n, h, .inl ⟨hcontent, hwriting, by simp⟩⟩
    | wouldBlock => exact .inr ⟨0, h, .inl ⟨hcontent, hwriting, by simp⟩⟩
    | broken => exact .inl ⟨(Option.some.inj h).symm, .inr rfl⟩
    | otherError => exact .inr ⟨0, h, .inl ⟨hcontent, hwriting, by simp⟩⟩
  · refine .inr ⟨0, h, .inr ⟨rfl, ?_⟩⟩
    rw [not_and_or, Bool.not_eq_true', Bool.not_eq_false, ← Buffer.length_content,
      List.length_eq_zero_iff] at hdirect
    exact hdirect.symm

namespace Consistent

/-- A message that has got its outcome is no longer in hand. -/
private theorem order_outcome (h : Consistent [.sendInLoop s] c) (o : Bool) (t : Option Nat) :
    byThread t ((c.outcomes ++ [(s, o)]).map Prod.fst) ++
      byThread t (sendings ([] ++ c.pendingFunctors)) ++ c.underWay t = byThread t c.sends := by
  have hhand : sendings ([.sendInLoop s] ++ c.pendingFunctors) =
      [s] ++ sendings ([] ++ c.pendingFunctors) := rfl
  rw [← h.order t, hhand, List.map_append, byThread_append, byThread_append t [s],
    ← List.append_assoc]
  rfl

/-- A message that has got its outcome is not what a shutdown waits for. -/
private theorem finishing_outcome (h : Consistent [.sendInLoop s] c) (hreading : c.reading)
    (hdis : c.state = .kDisconnecting) : c.Finishing ([] ++ c.pendingFunctors) := by
  simpa [Finishing] using h.finishing hreading hdis

/-- **A message that is dropped** leaves the stream as it is, and gets its outcome. -/
theorem drop (h : Consistent [.sendInLoop s] c) (hstate : c.state ≠ .kConnecting) :
    Consistent [] { c with outcomes := c.outcomes ++ [(s, false)] } where
  stream := by
    rw [accepted, List.filterMap_append]
    exact h.stream.trans (congrArg List.flatten (List.append_nil _).symm)
  order := h.order_outcome false
  loop := h.loop
  nonempty := h.nonempty
  polled := h.polled
  fin := h.fin
  finishing := h.finishing_outcome
  fresh hfresh := absurd hfresh hstate

/-- **A message that is taken on** goes to the end of the stream: what `write(2)` took of it was
written, and the rest waits. -/
theorem appendRest (h : Consistent [.sendInLoop s] c) (hstate : c.state ≠ .kConnecting)
    (hfin : c.finSent → c.reading → c.writing) (hn : n ≠ 0 → c.outputBuffer.content = [])
    (hc' : c.appendRest s n = some c') : Consistent [] c' := by
  obtain ⟨hle, b, hb, rfl⟩ := of_appendRest hc'
  have hb_nil : b.content = [] → c.outputBuffer.content = [] ∧ s.message.length ≤ n := by
    intro hnil
    rw [hnil, eq_comm, List.append_eq_nil_iff, List.drop_eq_nil_iff] at hb
    exact hb
  refine
    { stream := ?_, order := h.order_outcome true, loop := h.loop,
      nonempty := fun hwriting hnil ↦ ?_, polled := fun hreading hne ↦ ?_,
      fin := fun hreading hsent ↦ ?_, finishing := fun hreading hdis ↦ ?_,
      fresh := fun hfresh ↦ absurd hfresh hstate }
  · show c.written ++ s.message.take n ++ b.content = _
    have haccepted : (c.outcomes ++ [(s, true)]).filterMap
        (fun o ↦ if o.2 then some o.1.message else none) = c.accepted ++ [s.message] := by
      rw [List.filterMap_append]
      rfl
    rw [accepted, haccepted, List.flatten_append, ← h.stream, hb]
    rcases Nat.eq_zero_or_pos n with rfl | hpos
    · simp
    · rw [hn (Nat.ne_of_gt hpos)]
      simp
  · obtain ⟨hcontent, hle⟩ := hb_nil hnil
    rw [Bool.or_eq_true, decide_eq_true_eq] at hwriting
    rcases hwriting with hwriting | hlt
    · exact h.nonempty hwriting hcontent
    · omega
  · show (c.writing || decide (n < s.message.length)) = true
    rw [Bool.or_eq_true, decide_eq_true_eq]
    by_contra hnot
    rw [not_or] at hnot
    refine hnot.1 (h.polled hreading fun hnil ↦ hne ?_)
    show b.content = []
    rw [hb, hnil, List.drop_of_length_le (Nat.not_lt.1 hnot.2), List.append_nil]
  · exact absurd (h.fin hreading hsent) (h.nonempty (hfin hsent hreading))
  · rcases h.finishing_outcome hreading hdis with hsent | hwriting | hpending
    · exact .inl hsent
    · exact .inr (.inl (by rw [hwriting, Bool.true_or]))
    · exact .inr (.inr hpending)

/-- **`sendInLoop`** gives the message in hand its outcome: it is written, or queued behind what
waits, or refused by a connection that is closed. The stream stays the messages taken on, in their
order. -/
theorem sendInLoop (h : Consistent [.sendInLoop s] c) (hstate : c.state ≠ .kConnecting)
    (hhonest : c.Honest result) (hc' : c.sendInLoop s result = some c') : Consistent [] c' := by
  rcases of_sendInLoop hc' with ⟨rfl, -⟩ | ⟨n, hrest, ⟨hnil, hwriting, hresult⟩ | ⟨rfl, hwait⟩⟩
  · exact h.drop hstate
  · exact h.appendRest hstate (fun hsent _ ↦ absurd (hhonest hsent) hresult) (fun _ ↦ hnil) hrest
  · refine h.appendRest hstate (fun hsent hreading ↦ ?_) (fun h0 ↦ absurd rfl h0) hrest
    rcases hwait with hne | hwriting
    · exact absurd (h.fin hreading hsent) hne
    · exact hwriting

/-- **`shutdownInLoop`.** It ends the stream when nothing waits, and otherwise `handleWrite` will.
-/
theorem shutdownInLoop (h : Consistent [.shutdownInLoop] c) :
    Consistent [] c.shutdownInLoop := by
  rw [TcpConnection.shutdownInLoop]
  split_ifs with hwriting
  · rw [Bool.not_eq_true'] at hwriting
    refine { h with fin := fun hreading _ ↦ ?_, finishing := fun _ _ ↦ .inl rfl }
    by_contra hne
    have := h.polled hreading hne
    rw [hwriting] at this
    cases this
  · rw [Bool.not_eq_true', Bool.not_eq_false] at hwriting
    exact { h with finishing := fun _ _ ↦ .inr (.inl hwriting) }

/-- A functor that sends no message may be taken off the queue without running, unless it was the
one that would end the stream. -/
theorem skip (h : Consistent [functor] c) (hsending : functor.sending = none)
    (hfinishing : c.reading → c.state = .kDisconnecting →
      c.Finishing ([] ++ c.pendingFunctors)) : Consistent [] c :=
  { h with
    order := fun t ↦ by
      have := h.order t
      rwa [sendings_append, sendings_singleton hsending] at this
    finishing := hfinishing }

/-- **`handleClose`** writes nothing, and no later message is taken on. -/
theorem handleClose (h : Consistent hand c) (hsending : sendings hand = [])
    (hc' : c.handleClose = some c') : Consistent [] c' := by
  unfold TcpConnection.handleClose at hc'
  split_ifs at hc'
  obtain rfl := Option.some.inj hc'
  exact
    { stream := h.stream
      order := fun t ↦ by
        have := h.order t
        rwa [sendings_append, hsending] at this
      loop := h.loop
      nonempty := fun hwriting ↦ by cases hwriting
      polled := fun hreading ↦ by cases hreading
      fin := fun hreading ↦ by cases hreading
      finishing := fun hreading ↦ by cases hreading
      fresh := fun hstate ↦ by cases hstate }

/-- **`forceCloseInLoop`** closes a connection that is still open, and is nothing for one that is
not. -/
theorem forceCloseInLoop (h : Consistent [.forceCloseInLoop] c)
    (hc' : c.forceCloseInLoop = some c') : Consistent [] c' := by
  rw [TcpConnection.forceCloseInLoop] at hc'
  split_ifs at hc' with hstate
  · exact h.handleClose rfl hc'
  · obtain rfl := Option.some.inj hc'
    exact h.skip rfl fun _ hdis ↦ absurd (.inr hdis) hstate

/-- **`connectEstablished`** opens a connection that has sent nothing. -/
theorem connectEstablished (h : Consistent [] c) (hc' : c.connectEstablished = some c') :
    Consistent [] c' := by
  rw [TcpConnection.connectEstablished] at hc'
  split_ifs at hc' with hstate
  obtain ⟨hnil, -, -, -⟩ := h.fresh hstate
  obtain rfl := Option.some.inj hc'
  exact
    { h with
      polled := fun _ hne ↦ absurd hnil hne
      fin := fun _ _ ↦ hnil
      finishing := fun _ hdis ↦ by cases hdis
      fresh := fun hfresh ↦ by cases hfresh }

/-- **`connectDestroyed`** closes what is still open. The messages whose functors are left behind it
are refused by the state. -/
theorem connectDestroyed (h : Consistent [.connectDestroyed] c)
    (hc' : c.connectDestroyed = some c') : Consistent [] c' := by
  have h₀ : Consistent [] c := h.skip rfl fun hreading hdis ↦ by
    simpa [Finishing] using h.finishing hreading hdis
  rw [TcpConnection.connectDestroyed] at hc'
  split_ifs at hc' with hstate
  · obtain rfl := Option.some.inj hc'
    exact
      { h₀ with
        nonempty := fun hwriting ↦ by cases hwriting
        polled := fun hreading ↦ by cases hreading
        fin := fun hreading ↦ by cases hreading
        finishing := fun hreading ↦ by cases hreading
        fresh := fun hfresh ↦ by cases hfresh }
  · obtain rfl := Option.some.inj hc'
    exact h₀

end Consistent

/-- `handleWrite`, when some of what waits is written: after the last of it, it ends the stream of a
connection that is being shut down. -/
theorem handleWrite_wrote (hwriting : c.writing) (hn : 0 < n) {b : Buffer}
    (hretrieve : c.outputBuffer.retrieve n = some b) : c.handleWrite (.wrote n) =
      some { c with
        written := c.written ++ c.outputBuffer.content.take n
        outputBuffer := b
        writing := decide (b.content ≠ [])
        finSent := c.finSent || decide (b.content = [] ∧ c.state = .kDisconnecting) } := by
  have hnil : b.readableBytes = 0 ↔ b.content = [] := by
    rw [← Buffer.length_content, List.length_eq_zero_iff]
  unfold TcpConnection.handleWrite
  simp only [if_pos hwriting, if_pos hn, hretrieve]
  by_cases hb : b.content = []
  · have hread : b.readableBytes = 0 := hnil.2 hb
    by_cases hstate : c.state = .kDisconnecting <;>
      simp [hstate, hb, hread, TcpConnection.shutdownInLoop]
  · have hread : ¬ b.readableBytes = 0 := fun hread ↦ hb (hnil.1 hread)
    simp [hb, hread, hwriting]

/-- `handleWrite` does nothing, unless the connection is polled for writing and `write(2)` takes
some of what waits. -/
theorem of_handleWrite (h : c.handleWrite result = some c') :
    c' = c ∨ ∃ n b, c.writing ∧ result = .wrote n ∧ 0 < n ∧ c.outputBuffer.retrieve n = some b ∧
      c.handleWrite (.wrote n) = some c' := by
  cases hwriting : c.writing with
  | false =>
    unfold TcpConnection.handleWrite at h
    rw [hwriting] at h
    exact .inl (Option.some.inj h).symm
  | true =>
    cases result with
    | wouldBlock | broken | otherError =>
      unfold TcpConnection.handleWrite at h
      rw [hwriting] at h
      exact .inl (Option.some.inj h).symm
    | wrote n =>
      rcases Nat.eq_zero_or_pos n with rfl | hn
      · unfold TcpConnection.handleWrite at h
        rw [hwriting] at h
        exact .inl (Option.some.inj h).symm
      · cases hretrieve : c.outputBuffer.retrieve n with
        | none =>
          unfold TcpConnection.handleWrite at h
          simp [hwriting, hn, hretrieve] at h
        | some b => exact .inr ⟨n, b, rfl, rfl, hn, hretrieve, h⟩

namespace Consistent

/-- **`handleWrite`** writes from the front of the output buffer, where the oldest bytes are. When
the buffer runs empty and the connection is to be ended, it ends the stream. -/
theorem handleWrite (h : Consistent [] c) (hhonest : c.Honest result)
    (hc' : c.handleWrite result = some c') : Consistent [] c' := by
  rcases of_handleWrite hc' with rfl | ⟨n, b, hwriting, rfl, hn, hretrieve, -⟩
  · exact h
  have hb := (Buffer.content_of_retrieve hretrieve).2
  rw [handleWrite_wrote hwriting hn hretrieve] at hc'
  obtain rfl := Option.some.inj hc'
  have hsent : c.finSent = false := by
    by_contra hsent
    cases hhonest (Bool.of_not_eq_false hsent)
  refine
    { stream := ?_, order := h.order, loop := h.loop, nonempty := fun hne ↦ of_decide_eq_true hne,
      polled := fun _ hne ↦ decide_eq_true hne, fin := fun _ hsent' ↦ ?_,
      finishing := fun hreading hdis ↦ ?_,
      fresh := fun hfresh ↦ absurd (h.fresh hfresh).1 (h.nonempty hwriting) }
  · show c.written ++ c.outputBuffer.content.take n ++ b.content = _
    rw [hb, List.append_assoc, List.take_append_drop]
    exact h.stream
  · rw [hsent, Bool.false_or, decide_eq_true_eq] at hsent'
    exact hsent'.1
  · show _ ∨ _
    by_cases hnil : b.content = []
    · refine .inl ?_
      rw [hsent, Bool.false_or]
      exact decide_eq_true ⟨hnil, hdis⟩
    · exact .inr (.inl (decide_eq_true hnil))

/-- A functor that sends no message may be queued at any time. -/
theorem queueInLoop (h : Consistent hand c) (hsending : functor.sending = none)
    (hstate : c.state ≠ .kConnecting) : Consistent hand (c.queueInLoop functor) where
  stream := h.stream
  order t := by
    have hsendings : sendings (hand ++ (c.pendingFunctors ++ [functor])) =
        sendings (hand ++ c.pendingFunctors) := by
      rw [← List.append_assoc, sendings_append, sendings_singleton hsending, List.append_nil]
    show byThread t _ ++ byThread t (sendings (hand ++ (c.pendingFunctors ++ [functor]))) ++ _ = _
    rw [hsendings]
    exact h.order t
  loop := by
    show byThread none (sendings (c.pendingFunctors ++ [functor])) = []
    rw [sendings_append, sendings_singleton hsending, List.append_nil]
    exact h.loop
  nonempty := h.nonempty
  polled := h.polled
  fin := h.fin
  finishing hreading hdis := by
    refine (h.finishing hreading hdis).mono ?_
    show hand ++ c.pendingFunctors ⊆ hand ++ (c.pendingFunctors ++ [functor])
    rw [← List.append_assoc]
    exact List.subset_append_left _ _
  fresh hfresh := absurd hfresh hstate

end Consistent

/-! ### And so do the other threads -/

/-- What a thread has under way is what its call has come to. -/
theorem underWay_setCall (c : TcpConnection β) (t : Nat) (call : Option Call) :
    (c.setCall t call).underWay (some t) = sendingOf t call :=
  congrArg (sendingOf t) (Function.update_self _ _ _)

theorem underWay_setCall_of_ne {t' : Option Nat} (h : t' ≠ some t) (call : Option Call) :
    (c.setCall t call).underWay t' = c.underWay t' := by
  cases t' with
  | none => rfl
  | some t' =>
    exact congrArg (sendingOf t') (Function.update_of_ne (fun heq ↦ h (congrArg some heq)) _ _)

/-- A call that has no message, before and after its step, leaves the messages that are under way.
-/
theorem underWay_setCall_of_nil {call : Option Call} (hcall : c.underWay (some t) = [])
    (hnext : sendingOf t call = []) (t' : Option Nat) :
    (c.setCall t call).underWay t' = c.underWay t' := by
  by_cases ht : t' = some t
  · rw [ht, hcall, underWay_setCall, hnext]
  · exact underWay_setCall_of_ne ht call

namespace Consistent

/-- The state is set, and a call of a thread has come further, which sends nothing. -/
theorem setState (h : Consistent hand c) {call : Call} (hcall : c.underWay (some t) = [])
    (hset : call = .shutdownSet ∨ call = .forceCloseSet) :
    Consistent hand { c.setCall t (some call) with state := .kDisconnecting } where
  stream := h.stream
  order t' := by
    have hnext : sendingOf t (some call) = [] := by
      rcases hset with rfl | rfl <;> rfl
    show byThread t' _ ++ byThread t' _ ++ (c.setCall t (some call)).underWay t' = _
    rw [underWay_setCall_of_nil hcall hnext]
    exact h.order t'
  loop := h.loop
  nonempty := h.nonempty
  polled := h.polled
  fin := h.fin
  finishing _ _ := by
    refine .inr (.inr (.inr (.inr ⟨t, ?_⟩)))
    show Function.update c.calls t (some call) t = _ ∨ Function.update c.calls t (some call) t = _
    rw [Function.update_self]
    exact hset.imp (congrArg some) (congrArg some)
  fresh hfresh := by cases hfresh

/-- A call of a thread has come to its end, which sends nothing, and queues a functor. -/
theorem endCall (h : Consistent [] c) (hcall : c.underWay (some t) = [])
    (hstate : c.state ≠ .kConnecting)
    (hfunctor : c.calls t = some .shutdownSet ∧ functor = .shutdownInLoop ∨
      c.calls t = some .forceCloseSet ∧ functor = .forceCloseInLoop) :
    Consistent [] ((c.setCall t none).queueInLoop functor) := by
  have hsending : functor.sending = none := by
    rcases hfunctor with ⟨-, rfl⟩ | ⟨-, rfl⟩ <;> rfl
  have hsendings : sendings (c.pendingFunctors ++ [functor]) = sendings c.pendingFunctors := by
    rw [sendings_append, sendings_singleton hsending, List.append_nil]
  refine
    { stream := h.stream, order := fun t' ↦ ?_, loop := ?_, nonempty := h.nonempty,
      polled := h.polled, fin := h.fin, finishing := fun hreading hdis ↦ ?_,
      fresh := fun hfresh ↦ absurd hfresh hstate }
  · show byThread t' _ ++ byThread t' (sendings (c.pendingFunctors ++ [functor])) ++
      (c.setCall t none).underWay t' = _
    rw [hsendings, underWay_setCall_of_nil hcall rfl]
    exact h.order t'
  · show byThread none (sendings (c.pendingFunctors ++ [functor])) = []
    rw [hsendings]
    exact h.loop
  · -- The functor takes the place of the call.
    show TcpConnection.Finishing _ (c.pendingFunctors ++ [functor])
    refine .inr (.inr ?_)
    rcases hfunctor with ⟨-, rfl⟩ | ⟨-, rfl⟩
    · exact .inl (List.mem_append_right _ List.mem_cons_self)
    · exact .inr (.inl (List.mem_append_right _ List.mem_cons_self))

/-- A call of `send` that has read the state queues its message. The message was under way in the
call, and is under way in the queue. -/
theorem endSend (h : Consistent [] c) {message : List UInt8}
    (hcall : c.calls t = some (.send message)) (hstate : c.state ≠ .kConnecting) :
    Consistent [] ((c.setCall t none).queueInLoop (.sendInLoop ⟨some t, message⟩)) := by
  have hsendings : sendings (c.pendingFunctors ++ [.sendInLoop ⟨some t, message⟩]) =
      sendings c.pendingFunctors ++ [⟨some t, message⟩] := sendings_append _ _
  refine
    { stream := h.stream, order := fun t' ↦ ?_, loop := ?_, nonempty := h.nonempty,
      polled := h.polled, fin := h.fin, finishing := fun hreading hdis ↦ ?_,
      fresh := fun hfresh ↦ absurd hfresh hstate }
  · show byThread t' (c.outcomes.map Prod.fst) ++
      byThread t' (sendings (c.pendingFunctors ++ [_])) ++ (c.setCall t none).underWay t' =
        byThread t' c.sends
    rw [← h.order t', hsendings, byThread_append]
    by_cases ht : t' = some t
    · have hbefore : c.underWay (some t) = [⟨some t, message⟩] := congrArg (sendingOf t) hcall
      rw [ht, hbefore, underWay_setCall]
      simp [byThread, sendingOf]
    · have hnone : byThread t' [⟨some t, message⟩] = [] := by
        simp [byThread, Ne.symm ht]
      rw [hnone, List.append_nil, underWay_setCall_of_ne ht]
      rfl
  · show byThread none (sendings (c.pendingFunctors ++ [_])) = []
    rw [hsendings, byThread_append, h.loop]
    rfl
  · have hfinishing : c.Finishing (c.pendingFunctors ++ [.sendInLoop ⟨some t, message⟩]) :=
      (h.finishing hreading hdis).mono (List.subset_append_left _ _)
    refine hfinishing.imp_right (Or.imp_right (Or.imp_right (Or.imp_right ?_)))
    intro ⟨t', ht'⟩
    refine ⟨t', ?_⟩
    have hne : t' ≠ t := by
      rintro rfl
      rw [hcall] at ht'
      simp at ht'
    show Function.update c.calls t none t' = _ ∨ Function.update c.calls t none t' = _
    rw [Function.update_of_ne hne]
    exact ht'

/-- **`advance`** takes a call of another thread one step further, and a message that it carries
stays under way, or is refused when the state it reads is not `kConnected`. -/
theorem advance (h : Consistent [] c) (t : Nat) : Consistent [] (c.advance t) := by
  have hstate : c.calls t ≠ none → c.state ≠ .kConnecting :=
    fun hne hfresh ↦ hne ((h.fresh hfresh).2.2.1 t)
  have hunder : ∀ call, c.calls t = some call → sendingOf t (some call) = [] →
      c.underWay (some t) = [] := fun call hcall hnil ↦ (congrArg (sendingOf t) hcall).trans hnil
  rw [TcpConnection.advance]
  split
  case h_1 => exact h
  case h_2 message hcall => exact h.endSend hcall (hstate (by simp [hcall]))
  case h_3 hcall => exact h.setState (hunder _ hcall rfl) (.inl rfl)
  case h_4 hcall =>
    exact h.endCall (hunder _ hcall rfl) (hstate (by simp [hcall])) (.inl ⟨hcall, rfl⟩)
  case h_5 hcall => exact h.setState (hunder _ hcall rfl) (.inr rfl)
  case h_6 hcall =>
    exact h.endCall (hunder _ hcall rfl) (hstate (by simp [hcall])) (.inr ⟨hcall, rfl⟩)

/-- A call that begins has read the state, and its message is under way from here on. -/
theorem beginCall (h : Consistent [] c) {request : Request} (hcall : c.calls t = none)
    (hstate : c.state ≠ .kConnecting) :
    Consistent [] ((c.note (some t) request).setCall t (some request.checked)) := by
  have hfinishing : c.reading → c.state = .kDisconnecting →
      ((c.note (some t) request).setCall t (some request.checked)).Finishing
        c.pendingFunctors := by
    intro hreading hdis
    have hkeep : c.Finishing c.pendingFunctors := h.finishing hreading hdis
    cases request <;>
    · refine hkeep.imp_right (Or.imp_right (Or.imp_right (Or.imp_right ?_)))
      intro ⟨t', ht'⟩
      have hne : t' ≠ t := by
        rintro rfl
        rw [hcall] at ht'
        simp at ht'
      refine ⟨t', ?_⟩
      show Function.update c.calls t _ t' = _ ∨ Function.update c.calls t _ t' = _
      rw [Function.update_of_ne hne]
      exact ht'
  have hnil : c.underWay (some t) = [] := congrArg (sendingOf t) hcall
  cases request with
  | send message =>
    refine
      { stream := h.stream, order := fun t' ↦ ?_, loop := h.loop, nonempty := h.nonempty,
        polled := h.polled, fin := h.fin, finishing := hfinishing,
        fresh := fun hfresh ↦ absurd hfresh hstate }
    show byThread t' (c.outcomes.map Prod.fst) ++ byThread t' (sendings c.pendingFunctors) ++
      (c.setCall t (some (.send message))).underWay t' =
        byThread t' (c.sends ++ [⟨some t, message⟩])
    rw [byThread_append, ← h.order t']
    by_cases ht : t' = some t
    · rw [ht, hnil, underWay_setCall]
      simp [byThread, sendingOf]
    · rw [underWay_setCall_of_ne ht]
      simp [byThread, Ne.symm ht]
  | shutdown | forceClose =>
    refine
      { stream := h.stream, order := fun t' ↦ ?_, loop := h.loop, nonempty := h.nonempty,
        polled := h.polled, fin := h.fin, finishing := hfinishing,
        fresh := fun hfresh ↦ absurd hfresh hstate }
    show byThread t' _ ++ byThread t' (sendings c.pendingFunctors) ++
      (c.setCall t _).underWay t' = byThread t' c.sends
    rw [underWay_setCall_of_nil hnil rfl]
    exact h.order t'

/-- **`call`** begins a call of another thread, unless the call ends at the state that it reads. -/
theorem call (h : Consistent [] c) {request : Request} (hc' : c.call t request = some c') :
    Consistent [] c' := by
  rw [TcpConnection.call] at hc'
  split_ifs at hc' with hcall haccepts
  · obtain rfl := Option.some.inj hc'
    refine h.beginCall hcall fun hfresh ↦ ?_
    cases request <;> simp [accepts, hfresh] at haccepts
  · obtain rfl := Option.some.inj hc'
    exact h

/-- The thread of the loop sends at once: its message overtakes those of the others. -/
theorem noteLoop (h : Consistent [] c) (message : List UInt8) (hstate : c.state ≠ .kConnecting) :
    Consistent [.sendInLoop ⟨none, message⟩] (c.note none (.send message)) := by
  refine
    { stream := h.stream, order := fun t' ↦ ?_, loop := h.loop, nonempty := h.nonempty,
      polled := h.polled, fin := h.fin, finishing := fun hreading hdis ↦ ?_,
      fresh := fun hfresh ↦ absurd hfresh hstate }
  · show byThread t' (c.outcomes.map Prod.fst) ++
      byThread t' ([⟨none, message⟩] ++ sendings c.pendingFunctors) ++ c.underWay t' =
        byThread t' (c.sends ++ [⟨none, message⟩])
    rw [byThread_append, byThread_append, ← h.order t']
    cases t' with
    | none =>
      show _ ++ (_ ++ byThread none (sendings c.pendingFunctors)) ++ [] =
        _ ++ byThread none (sendings c.pendingFunctors) ++ [] ++ _
      rw [h.loop]
      simp
    | some t' => simp [byThread]
  · exact (h.finishing hreading hdis).mono (List.subset_append_right _ _)

/-- **`runInLoop`** does in the loop at once what other threads have to queue. -/
theorem runInLoop (h : Consistent [] c) {request : Request} (hhonest : c.Honest result)
    (hc' : c.runInLoop result request = some c') : Consistent [] c' := by
  unfold TcpConnection.runInLoop at hc'
  split_ifs at hc' with haccepts
  swap
  · obtain rfl := Option.some.inj hc'
    exact h
  have hstate : c.state ≠ .kConnecting := by
    intro hfresh
    cases request <;> simp [accepts, hfresh] at haccepts
  cases request with
  | send message => exact (h.noteLoop message hstate).sendInLoop hstate hhonest hc'
  | shutdown =>
    obtain rfl := Option.some.inj hc'
    refine Consistent.shutdownInLoop
      { h with
        finishing := fun _ _ ↦ .inr (.inr (.inl List.mem_cons_self))
        fresh := fun hfresh ↦ by cases hfresh }
  | forceClose =>
    obtain rfl := Option.some.inj hc'
    have hset : Consistent [.forceCloseInLoop] { c with state := .kDisconnecting } :=
      { h with
        finishing := fun _ _ ↦ .inr (.inr (.inr (.inl List.mem_cons_self)))
        fresh := fun hfresh ↦ by cases hfresh }
    have hqueued : Consistent _ (TcpConnection.queueInLoop _ .forceCloseInLoop) :=
      hset.queueInLoop rfl fun hfresh ↦ by cases hfresh
    refine hqueued.skip rfl fun _ _ ↦ .inr (.inr (.inr (.inl ?_)))
    exact List.mem_append_right c.pendingFunctors List.mem_cons_self

/-- **`doPendingFunctor`** takes the oldest functor into the hand, and then it is what that functor
does. -/
theorem doPendingFunctor (h : Consistent [] c) (hhonest : c.Honest result)
    (hc' : c.doPendingFunctor result = some c') : Consistent [] c' := by
  rw [TcpConnection.doPendingFunctor] at hc'
  split at hc'
  case h_1 =>
    obtain rfl := Option.some.inj hc'
    exact h
  case h_2 functor rest hpending =>
    have hstate : c.state ≠ .kConnecting := by
      intro hfresh
      rw [(h.fresh hfresh).2.1] at hpending
      cases hpending
    -- The functor is now in hand.
    have htaken : Consistent [functor] { c with pendingFunctors := rest } := by
      have hwaiting : [functor] ++ rest = [] ++ c.pendingFunctors := hpending.symm
      refine
        { stream := h.stream, order := fun t ↦ ?_, loop := ?_, nonempty := h.nonempty,
          polled := h.polled, fin := h.fin, finishing := fun hreading hdis ↦ ?_,
          fresh := fun hfresh ↦ absurd hfresh hstate }
      · show byThread t _ ++ byThread t (sendings ([functor] ++ rest)) ++ c.underWay t = _
        rw [hwaiting]
        exact h.order t
      · have hloop : byThread none (sendings ([functor] ++ rest)) = [] := by
          rw [hwaiting]
          exact h.loop
        rw [sendings_append, byThread_append] at hloop
        exact (List.append_eq_nil_iff.1 hloop).2
      · show TcpConnection.Finishing _ ([functor] ++ rest)
        rw [hwaiting]
        exact h.finishing hreading hdis
    cases functor with
    | sendInLoop s => exact htaken.sendInLoop hstate hhonest hc'
    | shutdownInLoop =>
      obtain rfl := Option.some.inj hc'
      exact htaken.shutdownInLoop
    | forceCloseInLoop => exact htaken.forceCloseInLoop hc'
    | connectDestroyed => exact htaken.connectDestroyed hc'

/-- **`handleRead`** reads, and writes nothing, so that the sent stream stays as it is. A read of no
bytes closes the connection. -/
theorem handleRead {messageCallback : β → Buffer → Option (β × Buffer)} {result : ReadResult}
    (h : Consistent [] c) (hc' : c.handleRead messageCallback result = some c') :
    Consistent [] c' := by
  cases result with
  | data incoming =>
    obtain ⟨inputBuffer, -, hrest⟩ := Option.bind_eq_some_iff.1 hc'
    obtain ⟨⟨user, inputBuffer⟩, -, hc'⟩ := Option.bind_eq_some_iff.1 hrest
    obtain rfl := Option.some.inj hc'
    exact { h with }
  | eof => exact h.handleClose rfl hc'
  | error =>
    obtain rfl := Option.some.inj hc'
    exact h

end Consistent

/-! ### Runs -/

variable {messageCallback : β → Buffer → Option (β × Buffer)} {e : Event} {es : List Event}

/-- What the kernel can do: it is honest about what it writes. -/
def Possible (c : TcpConnection β) : Event → Prop
  | .handleWrite result | .runInLoop _ result | .doPendingFunctor result => c.Honest result
  | _ => True

instance decidablePossible (c : TcpConnection β) : ∀ e, Decidable (c.Possible e)
  | .handleWrite result | .runInLoop _ result | .doPendingFunctor result =>
    inferInstanceAs (Decidable (c.Honest result))
  | .connectEstablished | .handleRead _ | .hangup | .call _ _ | .advance _ | .removeConnection =>
    inferInstanceAs (Decidable True)

/-- **One step** of the connection keeps its account of the stream. -/
theorem Consistent.of_step (h : Consistent [] c) (hpossible : c.Possible e)
    (hc' : c.step messageCallback e = some c') : Consistent [] c' := by
  cases e with
  | connectEstablished => exact h.connectEstablished hc'
  | handleRead result => exact h.handleRead hc'
  | handleWrite result => exact h.handleWrite hpossible hc'
  | hangup => exact h.handleClose rfl hc'
  | runInLoop request result => exact h.runInLoop hpossible hc'
  | call t request => exact h.call hc'
  | advance t =>
    obtain rfl := Option.some.inj hc'
    exact h.advance t
  | doPendingFunctor result => exact h.doPendingFunctor hpossible hc'
  | removeConnection =>
    obtain rfl := Option.some.inj hc'
    split_ifs with hclosing
    · have hstate : c.state ≠ .kConnecting := by
        intro hfresh
        rw [(h.fresh hfresh).2.2.2] at hclosing
        cases hclosing
      have hqueued : Consistent _ (c.queueInLoop .connectDestroyed) := h.queueInLoop rfl hstate
      exact { hqueued with fresh := fun hfresh ↦ absurd hfresh hstate }
    · exact h

/-- A connection as `newConnection` makes it. -/
structure New (c : TcpConnection β) : Prop where
  state_eq : c.state = .kConnecting
  reading_eq : c.reading = false
  writing_eq : c.writing = false
  content_eq : c.outputBuffer.content = []
  pending_eq : c.pendingFunctors = []
  calls_eq : ∀ t, c.calls t = none
  written_eq : c.written = []
  finSent_eq : c.finSent = false
  callbacks_eq : c.callbacks = []
  closing_eq : c.closing = false
  sends_eq : c.sends = []
  outcomes_eq : c.outcomes = []

/-- A connection whose messages are only put together, with buffers that start small. -/
def collecting : TcpConnection (List UInt8) where
  inputBuffer := .initial 4 (by decide)
  outputBuffer := .initial 4 (by decide)
  user := []

/-- A message callback that takes all bytes and collects them. -/
def collect (l : List UInt8) (b : Buffer) : Option (List UInt8 × Buffer) :=
  some (l ++ b.content, b.retrieveAll)

theorem new_collecting : collecting.New where
  state_eq := rfl
  reading_eq := rfl
  writing_eq := rfl
  content_eq := Buffer.content_initial (by decide)
  pending_eq := rfl
  calls_eq _ := rfl
  written_eq := rfl
  finSent_eq := rfl
  callbacks_eq := rfl
  closing_eq := rfl
  sends_eq := rfl
  outcomes_eq := rfl

theorem New.consistent (h : c.New) : Consistent [] c where
  stream := by rw [accepted, h.written_eq, h.content_eq, h.outcomes_eq]; rfl
  order t := by
    have hunder : c.underWay t = [] := by
      cases t with
      | none => rfl
      | some t => exact congrArg (sendingOf t) (h.calls_eq t)
    rw [hunder, h.outcomes_eq, h.pending_eq, h.sends_eq]
    rfl
  loop := by rw [h.pending_eq]; rfl
  nonempty hwriting := by rw [h.writing_eq] at hwriting; cases hwriting
  polled _ hne := absurd h.content_eq hne
  fin _ _ := h.content_eq
  finishing hreading := by rw [h.reading_eq] at hreading; cases hreading
  fresh _ := ⟨h.content_eq, h.pending_eq, h.calls_eq, h.closing_eq⟩

/-- **Any run** keeps the account, since every step does. -/
theorem Consistent.of_run (h : Consistent [] c)
    (hok : Guarded (step messageCallback) Possible c es)
    (hrun : run (step messageCallback) c es = some c') : Consistent [] c' :=
  run_inv (fun _ _ _ hs hpossible hs' ↦ hs.of_step hpossible hs') h hok hrun

/-- **The stream.** In any interleaving of threads, of the poller and of the queue, and whatever
`write(2)` takes at a time: what was written and what waits are the messages that were taken on,
whole and one after the other, and each thread's messages get their outcomes in the order of its
calls. -/
theorem run_stream (hnew : c.New) (hok : Guarded (step messageCallback) Possible c es)
    (hrun : run (step messageCallback) c es = some c') :
    c'.written ++ c'.outputBuffer.content = c'.accepted.flatten ∧
      ∀ t, byThread t (c'.outcomes.map Prod.fst) ++ byThread t (sendings c'.pendingFunctors) ++
        c'.underWay t = byThread t c'.sends :=
  have h := hnew.consistent.of_run hok hrun
  ⟨h.stream, h.order⟩

/-- A thread has called `send` before the loop does, and its message comes behind. -/
theorem run_stream_collecting : ∃ c', run (step collect) collecting
    [.connectEstablished, .call 1 (.send [1, 2, 3]), .runInLoop (.send [4, 5]) (.wrote 1),
      .advance 1, .doPendingFunctor .wouldBlock, .handleWrite (.wrote 2)] = some c' ∧
    c'.written ++ c'.outputBuffer.content = c'.accepted.flatten ∧
      ∀ t, byThread t (c'.outcomes.map Prod.fst) ++ byThread t (sendings c'.pendingFunctors) ++
        c'.underWay t = byThread t c'.sends :=
  (Option.isSome_iff_exists.1 rfl).imp fun _ hrun ↦
    ⟨hrun, run_stream new_collecting (by decide) hrun⟩

/-! ### The end of the stream -/

/-- The stream has ended, and is what it was. -/
def Ended (c c' : TcpConnection β) : Prop := c'.finSent ∧ c'.written = c.written

/-- Behind the end of the stream `write(2)` fails, so nothing more is written. -/
theorem ended_sendInLoop (hsent : c.finSent) (hhonest : c.Honest result)
    (hc' : c.sendInLoop s result = some c') : Ended c c' := by
  rcases of_sendInLoop hc' with ⟨rfl, -⟩ | ⟨n, hrest, ⟨-, -, hresult⟩ | ⟨rfl, -⟩⟩
  · exact ⟨hsent, rfl⟩
  · exact absurd (hhonest hsent) hresult
  · obtain ⟨-, b, -, rfl⟩ := of_appendRest hrest
    exact ⟨hsent, by rw [List.take_zero, List.append_nil]⟩

theorem ended_shutdownInLoop (hsent : c.finSent) : Ended c c.shutdownInLoop := by
  rw [TcpConnection.shutdownInLoop]
  split_ifs
  · exact ⟨rfl, rfl⟩
  · exact ⟨hsent, rfl⟩

theorem ended_handleClose (hsent : c.finSent) (hc' : c.handleClose = some c') : Ended c c' := by
  rw [TcpConnection.handleClose] at hc'
  split_ifs at hc'
  obtain rfl := Option.some.inj hc'
  exact ⟨hsent, rfl⟩

/-- No functor writes anything behind the end of the stream. -/
theorem ended_callFunctor (hsent : c.finSent) (hhonest : c.Honest result)
    (hc' : c.callFunctor result functor = some c') : Ended c c' := by
  cases functor with
  | sendInLoop s => exact ended_sendInLoop hsent hhonest hc'
  | shutdownInLoop =>
    obtain rfl := Option.some.inj hc'
    exact ended_shutdownInLoop hsent
  | forceCloseInLoop =>
    change c.forceCloseInLoop = some c' at hc'
    rw [TcpConnection.forceCloseInLoop] at hc'
    split_ifs at hc'
    · exact ended_handleClose hsent hc'
    · obtain rfl := Option.some.inj hc'
      exact ⟨hsent, rfl⟩
  | connectDestroyed =>
    change c.connectDestroyed = some c' at hc'
    rw [TcpConnection.connectDestroyed] at hc'
    split_ifs at hc' <;> obtain rfl := Option.some.inj hc' <;> exact ⟨hsent, rfl⟩

/-- Nothing is written any more, whatever is still queued or called. -/
theorem ended_step (hsent : c.finSent) (hpossible : c.Possible e)
    (hc' : c.step messageCallback e = some c') : Ended c c' := by
  cases e with
  | connectEstablished =>
    change c.connectEstablished = some c' at hc'
    rw [TcpConnection.connectEstablished] at hc'
    split_ifs at hc'
    obtain rfl := Option.some.inj hc'
    exact ⟨hsent, rfl⟩
  | handleRead result =>
    cases result with
    | data incoming =>
      obtain ⟨inputBuffer, -, hrest⟩ := Option.bind_eq_some_iff.1 hc'
      obtain ⟨⟨user, inputBuffer⟩, -, hc'⟩ := Option.bind_eq_some_iff.1 hrest
      obtain rfl := Option.some.inj hc'
      exact ⟨hsent, rfl⟩
    | eof => exact ended_handleClose hsent hc'
    | error =>
      obtain rfl := Option.some.inj hc'
      exact ⟨hsent, rfl⟩
  | handleWrite result =>
    rcases of_handleWrite hc' with rfl | ⟨n, b, -, rfl, -⟩
    · exact ⟨hsent, rfl⟩
    · -- after the `FIN` the kernel takes no bytes any more
      cases hpossible hsent
  | hangup => exact ended_handleClose hsent hc'
  | runInLoop request result =>
    change c.runInLoop result request = some c' at hc'
    -- a call on the loop's own thread is made at once
    unfold TcpConnection.runInLoop at hc'
    split_ifs at hc'
    · cases request with
      | send message =>
        exact ended_sendInLoop (c := c.note none (.send message)) hsent hpossible hc'
      | shutdown =>
        obtain rfl := Option.some.inj hc'
        exact ended_shutdownInLoop (c := { c with state := .kDisconnecting }) hsent
      | forceClose =>
        obtain rfl := Option.some.inj hc'
        exact ⟨hsent, rfl⟩
    · obtain rfl := Option.some.inj hc'
      exact ⟨hsent, rfl⟩
  | call t request =>
    change c.call t request = some c' at hc'
    rw [TcpConnection.call] at hc'
    split_ifs at hc' <;> obtain rfl := Option.some.inj hc'
    · cases request <;> exact ⟨hsent, rfl⟩
    · exact ⟨hsent, rfl⟩
  | advance t =>
    obtain rfl := Option.some.inj hc'
    rw [TcpConnection.advance]
    split <;> exact ⟨hsent, rfl⟩
  -- a call of another thread is made when its functor runs
  | doPendingFunctor result =>
    change c.doPendingFunctor result = some c' at hc'
    rw [TcpConnection.doPendingFunctor] at hc'
    split at hc'
    case h_1 =>
      obtain rfl := Option.some.inj hc'
      exact ⟨hsent, rfl⟩
    case h_2 functor rest _ =>
      exact ended_callFunctor (c := { c with pendingFunctors := rest }) hsent hpossible hc'
  | removeConnection =>
    obtain rfl := Option.some.inj hc'
    split_ifs <;> exact ⟨hsent, rfl⟩

/-- **Nothing comes behind the end of the stream**, in any continuation of the run. -/
theorem ended_run (hsent : c.finSent) (hok : Guarded (step messageCallback) Possible c es)
    (hrun : run (step messageCallback) c es = some c') : Ended c c' := by
  refine run_inv (I := Ended c) (fun c₁ e c₂ h₁ hpossible hc₂ ↦ ?_) ⟨hsent, rfl⟩ hok hrun
  have h₂ := ended_step h₁.1 hpossible hc₂
  exact ⟨h₂.1, h₂.2.trans h₁.2⟩

/-- **A shutdown cuts nothing off.** When the stream of a connection that is still open has been
ended, it holds all messages that were taken on until then, and nothing comes behind them. -/
theorem run_shutdown {c₀ : TcpConnection β} {es₀ : List Event} (hnew : c₀.New)
    (hok₀ : Guarded (step messageCallback) Possible c₀ es₀)
    (hrun₀ : run (step messageCallback) c₀ es₀ = some c) (hreading : c.reading)
    (hsent : c.finSent) (hok : Guarded (step messageCallback) Possible c es)
    (hrun : run (step messageCallback) c es = some c') : c'.written = c.accepted.flatten := by
  have h := hnew.consistent.of_run hok₀ hrun₀
  rw [(ended_run hsent hok hrun).2, ← h.stream, h.fin hreading hsent, List.append_nil]

/-- What a thread has asked to be sent before a shutdown, and queued behind it, is not written. -/
theorem run_shutdown_collecting : ∃ c c', run (step collect) collecting
    [.connectEstablished, .runInLoop (.send [4, 5]) (.wrote 2), .call 1 (.send [1, 2, 3]),
      .runInLoop .shutdown .wouldBlock] = some c ∧
    run (step collect) c [.advance 1, .doPendingFunctor .broken, .handleRead .eof] = some c' ∧
    c'.written = c.accepted.flatten := by
  refine ⟨_, _, rfl, rfl, ?_⟩
  have hrun : run (step collect) collecting
    [.connectEstablished, .runInLoop (.send [4, 5]) (.wrote 2), .call 1 (.send [1, 2, 3]),
      .runInLoop .shutdown .wouldBlock] = some _ := rfl
  exact run_shutdown new_collecting (by decide) hrun rfl rfl (by decide) (show
    run (step collect) _ [.advance 1, .doPendingFunctor .broken, .handleRead .eof] = some _ by rfl)

/-- Nor does it get stuck: as long as the connection is open, there is something left that will end
the stream. -/
theorem run_finishing (hnew : c.New) (hok : Guarded (step messageCallback) Possible c es)
    (hrun : run (step messageCallback) c es = some c') (hreading : c'.reading)
    (hdis : c'.state = .kDisconnecting) : c'.Finishing c'.pendingFunctors :=
  (hnew.consistent.of_run hok hrun).finishing hreading hdis

/-- Once the queue is empty and no call is under way, writing what waits ends the stream. -/
theorem exists_run_handleWrite {ns : List Nat} (h : Consistent [] c) (hreading : c.reading)
    (hdis : c.state = .kDisconnecting) (hpending : c.pendingFunctors = [])
    (hcalls : ∀ t, c.calls t = none) (hns : ∀ n ∈ ns, 0 < n)
    (hsum : ns.sum = c.outputBuffer.content.length) :
    ∃ c', run (step messageCallback) c (ns.map fun n ↦ .handleWrite (.wrote n)) = some c' ∧
      c'.finSent ∧ c'.written = c.accepted.flatten := by
  induction ns generalizing c with
  | nil =>
    have hnil : c.outputBuffer.content = [] := List.eq_nil_of_length_eq_zero hsum.symm
    refine ⟨c, rfl, ?_, by rw [← h.stream, hnil, List.append_nil]⟩
    have hfinishing := h.finishing hreading hdis
    rw [List.nil_append, hpending] at hfinishing
    rcases hfinishing with hsent | hwriting | hmem | hmem | ⟨t, ht⟩
    · exact hsent
    · exact absurd hnil (h.nonempty hwriting)
    · simp at hmem
    · simp at hmem
    · simp [hcalls t] at ht
  | cons n ns ih =>
    obtain ⟨hn, hns⟩ := List.forall_mem_cons.1 hns
    rw [List.sum_cons] at hsum
    have hne : c.outputBuffer.content ≠ [] := List.ne_nil_of_length_pos (by omega)
    have hsent : ¬ c.finSent := fun hsent ↦ hne (h.fin hreading hsent)
    have hle : n ≤ c.outputBuffer.readableBytes := by
      rw [← Buffer.length_content]
      omega
    obtain ⟨b, hretrieve, hmakes⟩ := Buffer.exists_retrieve hle
    have hstep := handleWrite_wrote (h.polled hreading hne) hn hretrieve
    have hnext := h.handleWrite (fun hsent' ↦ absurd hsent' hsent) hstep
    obtain ⟨c', hrun, hend, hwritten⟩ := ih hnext hreading hdis hpending hcalls hns (by
      show ns.sum = b.content.length
      rw [hmakes.content_eq, List.length_drop]
      omega)
    refine ⟨c', ?_, hend, hwritten⟩
    rw [List.map_cons, run_cons]
    show (c.handleWrite (.wrote n)).bind _ = _
    rw [hstep]
    exact hrun

/-- **And it completes.** Once the queue is empty and no call is under way, writing what waits ends
the stream behind all messages, in however many pieces it is written. -/
theorem run_completes {ns : List Nat} (hnew : c.New)
    (hok : Guarded (step messageCallback) Possible c es)
    (hrun : run (step messageCallback) c es = some c') (hreading : c'.reading)
    (hdis : c'.state = .kDisconnecting) (hpending : c'.pendingFunctors = [])
    (hcalls : ∀ t, c'.calls t = none) (hns : ∀ n ∈ ns, 0 < n)
    (hsum : ns.sum = c'.outputBuffer.content.length) :
    ∃ c'', run (step messageCallback) c' (ns.map fun n ↦ .handleWrite (.wrote n)) = some c'' ∧
      c''.finSent ∧ c''.written = c'.accepted.flatten :=
  exists_run_handleWrite (hnew.consistent.of_run hok hrun) hreading hdis hpending hcalls hns hsum

/-- Four bytes are taken on, one is written at once, and the shutdown waits for the other three. -/
theorem run_completes_collecting : ∃ c' c'', run (step collect) collecting
    [.connectEstablished, .runInLoop (.send [1, 2, 3, 4]) (.wrote 1),
      .runInLoop .shutdown .wouldBlock] = some c' ∧
    run (step collect) c' ([2, 1].map fun n ↦ .handleWrite (.wrote n)) = some c'' ∧
      c''.finSent ∧ c''.written = c'.accepted.flatten := by
  have hrun : run (step collect) collecting [.connectEstablished,
    .runInLoop (.send [1, 2, 3, 4]) (.wrote 1), .runInLoop .shutdown .wouldBlock] = some _ := rfl
  obtain ⟨c'', hrun', hend⟩ := run_completes new_collecting (by decide) hrun rfl rfl rfl
    (fun _ ↦ rfl) (show ∀ n ∈ [2, 1], 0 < n by decide) (by decide)
  exact ⟨_, c'', hrun, hrun', hend⟩

end TcpConnection

end QCLib.Muduo
