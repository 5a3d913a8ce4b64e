import QCLib.Net.MuduoStream

/-!
# The life of a connection of the network library

The assertions of `TcpConnection`, and its callbacks. Another thread that shuts a connection down
reads the state and then writes it, and the loop may have closed the connection in between: it is
then disconnecting again, and closing it once more fails an assertion or calls the callbacks twice.
In every run in which no thread writes the state of a connection that is closed, no assertion fails,
and the callback is told that the connection is up, and then once that it is down
(`run_lifecycle`).

`Orderly` is the invariant: in which states the loop may be called, which functors may wait in the
queue then, and what the callback has been told so far. It is kept by each function of the
connection, and `Orderly.exists_step` puts them together. The condition on other threads is a part
of what a legal event is (`Legal`); everything else about them is arbitrary, their number, their
calls and their schedule.

That the condition is needed is seen in the source: `shutdown` compares and sets the state in two
steps, and the loop can close the connection in between.
-/

open StepRun

namespace QCLib.Muduo

namespace TcpConnection

variable {β : Type} {c c' : TcpConnection β} {s : Sending} {result : WriteResult}
  {messageCallback : β → Buffer → Option (β × Buffer)} {e : Event} {es : List Event}

/-- What the connection callback has been told, by the state. -/
def told : StateE → List Bool
  | .kConnecting => []
  | .kConnected | .kDisconnecting => [true]
  | .kDisconnected => [true, false]

/-- What holds of a connection that no thread has woken up again. -/
structure Orderly (c : TcpConnection β) : Prop where
  polled : c.reading ∨ c.writing → c.state = .kConnected ∨ c.state = .kDisconnecting
  reading : c.state = .kConnected ∨ c.state = .kDisconnecting → c.reading
  removed : c.closing ∨ .connectDestroyed ∈ c.pendingFunctors → c.state = .kDisconnected
  callbacks_eq : c.callbacks = told c.state
  fresh : c.state = .kConnecting → c.pendingFunctors = [] ∧ ∀ t, c.calls t = none

/-- At most `k` bytes are written. -/
def Writes (result : WriteResult) (k : Nat) : Prop := ∀ n, result = .wrote n → n ≤ k

instance (result : WriteResult) (k : Nat) : Decidable (Writes result k) :=
  match result with
  | .wrote n =>
    decidable_of_iff (n ≤ k) ⟨fun h _ hn ↦ WriteResult.wrote.inj hn ▸ h, fun h ↦ h n rfl⟩
  | .wouldBlock | .broken | .otherError => isTrue fun _ hn ↦ WriteResult.noConfusion hn

/-- A message that can be sent: there is memory for it, and `write(2)` writes no more than it is
given. -/
def Sendable (c : TcpConnection β) (message : List UInt8) (result : WriteResult) : Prop :=
  kCheapPrepend + 2 * (c.outputBuffer.content.length + message.length) ≤ maxSize ∧
    Writes result message.length

instance (message : List UInt8) : Decidable (c.Sendable message result) :=
  inferInstanceAs (Decidable (_ ∧ _))

/-- What the poller, the kernel and the other threads do: events come from a connection that is
polled, a thread makes one call at a time, and it does not write the state of a connection that is
closed. -/
def Legal (messageCallback : β → Buffer → Option (β × Buffer)) (c : TcpConnection β) :
    Event → Prop
  | .connectEstablished => c.state = .kConnecting
  | .handleRead (.data incoming) =>
    c.reading ∧ ((c.inputBuffer.readFd incoming).bind (messageCallback c.user)).isSome
  | .handleRead _ => c.reading
  | .handleWrite result => Writes result c.outputBuffer.readableBytes
  | .hangup => c.reading ∨ c.writing
  | .runInLoop (.send message) result => c.Sendable message result
  | .runInLoop _ _ => True
  | .call t _ => c.calls t = none
  | .advance t => c.calls t = some .shutdown ∨ c.calls t = some .forceClose →
      c.state ≠ .kDisconnected
  | .doPendingFunctor result =>
    ∀ s ∈ c.pendingFunctors.head?.bind Functor.sending, c.Sendable s.message result
  | .removeConnection => True

instance decidableLegal (c : TcpConnection β) : ∀ e, Decidable (c.Legal messageCallback e)
  | .connectEstablished => inferInstanceAs (Decidable (_ = _))
  | .handleRead (.data _) => inferInstanceAs (Decidable (_ ∧ _))
  | .handleRead .eof | .handleRead .error => inferInstanceAs (Decidable (_ = _))
  | .handleWrite result => inferInstanceAs (Decidable (Writes result _))
  | .hangup => inferInstanceAs (Decidable (_ ∨ _))
  | .runInLoop (.send message) result => inferInstanceAs (Decidable (c.Sendable message result))
  | .runInLoop .shutdown _ | .runInLoop .forceClose _ => inferInstanceAs (Decidable True)
  | .call t _ => inferInstanceAs (Decidable (c.calls t = none))
  | .advance _ => inferInstanceAs (Decidable (_ → _))
  | .doPendingFunctor result => inferInstanceAs
      (Decidable (∀ s ∈ c.pendingFunctors.head?.bind Functor.sending, c.Sendable s.message result))
  | .removeConnection => inferInstanceAs (Decidable True)

/-! ### The loop keeps it -/

/-- What the socket did not take can be appended to the output buffer, if there is memory for it. -/
theorem exists_appendRest {n : Nat}
    (hmax : kCheapPrepend + 2 * (c.outputBuffer.content.length + s.message.length) ≤ maxSize)
    (hn : n ≤ s.message.length) : ∃ c', c.appendRest s n = some c' := by
  rw [appendRest, if_pos hn]
  split_ifs with hrest
  · have hmax₁ : kCheapPrepend +
        2 * (c.outputBuffer.content.length + (s.message.drop n).length) ≤ maxSize := by
      rw [List.length_drop]
      omega
    obtain ⟨b, happend, -⟩ := Buffer.exists_append hmax₁
    refine ⟨_, Option.bind_eq_some_iff.2 ⟨b, happend, rfl⟩⟩
  · exact ⟨_, rfl⟩

theorem exists_sendInLoop (h : c.Sendable s.message result) :
    ∃ c', c.sendInLoop s result = some c' := by
  obtain ⟨hmax, hwrote⟩ := h
  unfold sendInLoop
  split_ifs with hstate hdirect
  · exact ⟨_, rfl⟩
  · cases result with
    | wrote n => exact exists_appendRest hmax (hwrote n rfl)
    | wouldBlock | otherError => exact exists_appendRest hmax (Nat.zero_le _)
    | broken => exact ⟨_, rfl⟩
  · exact exists_appendRest hmax (Nat.zero_le _)

namespace Orderly

/-- `sendInLoop` polls for writing only where the connection is open. -/
theorem sendInLoop (h : Orderly c) (hstate : c.state ≠ .kConnecting)
    (hc' : c.sendInLoop s result = some c') : Orderly c' := by
  have hdisconnected : c.state = .kDisconnected →
      c' = { c with outcomes := c.outcomes ++ [(s, false)] } := by
    intro hdis
    unfold TcpConnection.sendInLoop at hc'
    rw [if_pos hdis] at hc'
    exact (Option.some.inj hc').symm
  rcases of_sendInLoop hc' with ⟨rfl, -⟩ | ⟨n, hrest, -⟩
  · exact { h with }
  · obtain ⟨-, b, -, rfl⟩ := of_appendRest hrest
    refine { h with polled := fun _ ↦ ?_ }
    show c.state = _ ∨ c.state = _
    cases hc : c.state with
    | kDisconnected =>
      have houtcome := congrArg TcpConnection.outcomes (hdisconnected hc)
      simp at houtcome
    | kConnecting => exact absurd hc hstate
    | kConnected => exact .inl rfl
    | kDisconnecting => exact .inr rfl

theorem shutdownInLoop (h : Orderly c) : Orderly c.shutdownInLoop := by
  rw [TcpConnection.shutdownInLoop]
  split_ifs
  · exact { h with }
  · exact h

theorem handleClose (h : Orderly c) (hstate : c.state = .kConnected ∨ c.state = .kDisconnecting) :
    ∃ c', c.handleClose = some c' ∧ Orderly c' := by
  refine ⟨_, if_pos hstate, ?_, ?_, fun _ ↦ rfl, ?_, ?_⟩
  · intro hpolled
    simp at hpolled
  · intro hopen
    simp at hopen
  · show c.callbacks ++ [false] = _
    rw [h.callbacks_eq]
    rcases hstate with hstate | hstate <;> rw [hstate] <;> rfl
  · intro hfresh
    cases hfresh

/-- The assertion of `Channel::remove` holds: what is destroyed has been closed. -/
theorem connectDestroyed (h : Orderly c) (hstate : c.state = .kDisconnected) :
    c.connectDestroyed = some c := by
  have hpolled : ¬ (c.reading ∨ c.writing) := by
    intro hpolled
    rcases h.polled hpolled with hopen | hopen
    · rw [hstate] at hopen
      cases hopen
    · rw [hstate] at hopen
      cases hopen
  rw [not_or, Bool.not_eq_true, Bool.not_eq_true] at hpolled
  simp [TcpConnection.connectDestroyed, hstate, hpolled]

/-- Being orderly asks of the functors in the queue only what each of them needs, so a shorter queue
is orderly as well. -/
theorem pending (h : Orderly c) {rest : List Functor} (hrest : rest ⊆ c.pendingFunctors)
    (hstate : c.state ≠ .kConnecting) : Orderly { c with pendingFunctors := rest } :=
  { h with
    removed := fun hremoved ↦ h.removed (hremoved.imp_right (@hrest _))
    fresh := fun hfresh ↦ absurd hfresh hstate }

/-- So does queueing one, if `connectDestroyed` is queued only for a connection that is closed. -/
theorem queueInLoop (h : Orderly c) {functor : Functor} (hstate : c.state ≠ .kConnecting)
    (hfunctor : functor = .connectDestroyed → c.state = .kDisconnected) :
    Orderly (c.queueInLoop functor) := by
  refine { h with
    removed := fun hremoved ↦ ?_
    fresh := fun hfresh ↦ absurd hfresh hstate }
  rcases hremoved with hclosing | hmem
  · exact h.removed (.inl hclosing)
  · rcases List.mem_append.1 hmem with hmem | hmem
    · exact h.removed (.inr hmem)
    · exact hfunctor (List.mem_singleton.1 hmem).symm

/-- A connection that is open is set to disconnecting. -/
theorem setState (h : Orderly c) (hstate : c.state = .kConnected ∨ c.state = .kDisconnecting) :
    Orderly { c with state := .kDisconnecting } where
  polled _ := .inr rfl
  reading _ := h.reading hstate
  removed hremoved := by
    have hclosed := h.removed hremoved
    rcases hstate with hstate | hstate
    · rw [hclosed] at hstate
      cases hstate
    · rw [hclosed] at hstate
      cases hstate
  callbacks_eq := by
    show c.callbacks = _
    rw [h.callbacks_eq]
    rcases hstate with hstate | hstate
    · rw [hstate]
      rfl
    · rw [hstate]
  fresh hfresh := by cases hfresh

/-- A call of another thread that comes further changes nothing that the loop relies on. -/
theorem setCall (h : Orderly c) {t : Nat} {call : Option Call} (hstate : c.state ≠ .kConnecting) :
    Orderly (c.setCall t call) :=
  { h with fresh := fun hfresh ↦ absurd hfresh hstate }

/-- **`advance`**: the thread of a call that has found the connection open writes the state, unless
the connection was closed in between, and queues its functor. -/
theorem advance (h : Orderly c) {t : Nat} (hlegal : c.calls t = some .shutdown ∨
    c.calls t = some .forceClose → c.state ≠ .kDisconnected) : Orderly (c.advance t) := by
  have hstate : c.calls t ≠ none → c.state ≠ .kConnecting :=
    fun hne hfresh ↦ hne ((h.fresh hfresh).2 t)
  have hopen : c.calls t = some .shutdown ∨ c.calls t = some .forceClose →
      c.state = .kConnected ∨ c.state = .kDisconnecting := by
    intro hcall
    have hclosed := hlegal hcall
    have hfresh : c.state ≠ .kConnecting :=
      hstate fun hnone ↦ by simp [hnone] at hcall
    cases hc : c.state with
    | kDisconnected => exact absurd hc hclosed
    | kConnecting => exact absurd hc hfresh
    | kConnected => exact .inl rfl
    | kDisconnecting => exact .inr rfl
  rw [TcpConnection.advance]
  split
  case h_1 => exact h
  case h_2 message hcall =>
    have hne := hstate (by simp [hcall])
    exact (h.setCall hne).queueInLoop hne fun heq ↦ by cases heq
  case h_3 hcall =>
    exact (h.setCall (hstate (by simp [hcall]))).setState (hopen (.inl hcall))
  case h_4 hcall =>
    have hne := hstate (by simp [hcall])
    exact (h.setCall hne).queueInLoop hne fun heq ↦ by cases heq
  case h_5 hcall =>
    exact (h.setCall (hstate (by simp [hcall]))).setState (hopen (.inr hcall))
  case h_6 hcall =>
    have hne := hstate (by simp [hcall])
    exact (h.setCall hne).queueInLoop hne fun heq ↦ by cases heq

/-- **`doPendingFunctor`**: the loop runs the functor at the head of its queue. -/
theorem doPendingFunctor (h : Orderly c)
    (hlegal : ∀ s ∈ c.pendingFunctors.head?.bind Functor.sending, c.Sendable s.message result) :
    ∃ c', c.doPendingFunctor result = some c' ∧ Orderly c' := by
  rw [TcpConnection.doPendingFunctor]
  split
  case h_1 => exact ⟨c, rfl, h⟩
  case h_2 functor rest hpending =>
    have hstate : c.state ≠ .kConnecting := by
      intro hfresh
      rw [(h.fresh hfresh).1] at hpending
      cases hpending
    have hrest : Orderly { c with pendingFunctors := rest } :=
      h.pending (hpending ▸ List.subset_cons_self _ _) hstate
    cases functor with
    | sendInLoop s =>
      obtain ⟨c', hc'⟩ := exists_sendInLoop (c := { c with pendingFunctors := rest })
        (hlegal s (by rw [hpending]; rfl))
      exact ⟨c', hc', hrest.sendInLoop hstate hc'⟩
    | shutdownInLoop => exact ⟨_, rfl, hrest.shutdownInLoop⟩
    | forceCloseInLoop =>
      show ∃ c', TcpConnection.forceCloseInLoop _ = some c' ∧ Orderly c'
      rw [forceCloseInLoop]
      split_ifs with hopen
      · exact hrest.handleClose hopen
      · exact ⟨_, rfl, hrest⟩
    | connectDestroyed =>
      have hclosed := h.removed (.inr (hpending ▸ List.mem_cons_self))
      exact ⟨_, hrest.connectDestroyed hclosed, hrest⟩

/-- **`runInLoop`**: the thread of the loop asks for something itself. -/
theorem runInLoop (h : Orderly c) {request : Request}
    (hlegal : c.Legal messageCallback (.runInLoop request result)) :
    ∃ c', c.runInLoop result request = some c' ∧ Orderly c' := by
  unfold TcpConnection.runInLoop
  split_ifs with haccepts
  swap
  · exact ⟨c, rfl, h⟩
  cases request with
  | send message =>
    have hstate : c.state = .kConnected := of_decide_eq_true haccepts
    have hnoted : Orderly (c.note none (.send message)) := { h with }
    obtain ⟨c', hc'⟩ := exists_sendInLoop (c := c.note none (.send message))
      (s := ⟨none, message⟩) hlegal
    exact ⟨c', hc', hnoted.sendInLoop (fun hfresh ↦ by simp [note, hstate] at hfresh) hc'⟩
  | shutdown =>
    have hstate : c.state = .kConnected := of_decide_eq_true haccepts
    exact ⟨_, rfl, (h.setState (.inl hstate)).shutdownInLoop⟩
  | forceClose =>
    have hstate : c.state = .kConnected ∨ c.state = .kDisconnecting := of_decide_eq_true haccepts
    refine ⟨_, rfl, (h.setState hstate).queueInLoop (fun hfresh ↦ ?_) fun heq ↦ ?_⟩
    · cases hfresh
    · cases heq

end Orderly

/-- **One step** of such a connection is defined. -/
theorem Orderly.exists_step (h : Orderly c) (hlegal : c.Legal messageCallback e) :
    ∃ c', c.step messageCallback e = some c' ∧ Orderly c' := by
  cases e with
  -- the state was `kConnecting`, in which nothing has been called back yet
  | connectEstablished =>
    refine ⟨_, if_pos hlegal, fun _ ↦ .inl rfl, fun _ ↦ rfl, fun hremoved ↦ ?_, ?_, fun hfresh ↦ ?_⟩
    · have hclosed := h.removed hremoved
      rw [hlegal] at hclosed
      cases hclosed
    · show c.callbacks ++ [true] = _
      rw [h.callbacks_eq, hlegal]
      rfl
    · cases hfresh
  | handleRead result =>
    cases result with
    | data incoming =>
      obtain ⟨⟨user, rest⟩, hsome⟩ := Option.isSome_iff_exists.1 hlegal.2
      obtain ⟨inputBuffer, hread, hcallback⟩ := Option.bind_eq_some_iff.1 hsome
      refine ⟨{ c with user, inputBuffer := rest }, ?_, { h with }⟩
      show (c.inputBuffer.readFd incoming).bind _ = _
      rw [hread, Option.bind_some, hcallback]
      rfl
    | eof => exact h.handleClose (h.polled (.inl hlegal))
    | error => exact ⟨c, rfl, h⟩
  -- `EPOLLOUT` is only told to a channel that asked for it, and only then is anything written
  | handleWrite result =>
    cases hwriting : c.writing with
    | false =>
      refine ⟨c, ?_, h⟩
      show c.handleWrite result = _
      unfold TcpConnection.handleWrite
      rw [hwriting]
      rfl
    | true =>
      have hopen := h.polled (.inr hwriting)
      -- a failed write is logged, and leaves the output as it is
      by_cases hwrote : ∃ n, result = .wrote n ∧ 0 < n
      · obtain ⟨n, rfl, hn⟩ := hwrote
        obtain ⟨b, hretrieve, -⟩ := Buffer.exists_retrieve (hlegal n rfl)
        exact ⟨_, handleWrite_wrote hwriting hn hretrieve, { h with polled := fun _ ↦ hopen }⟩
      · refine ⟨c, ?_, h⟩
        show c.handleWrite result = _
        unfold TcpConnection.handleWrite
        rw [if_pos hwriting]
        cases result with
        | wrote n => exact if_neg fun hn ↦ hwrote ⟨n, rfl, hn⟩
        | wouldBlock | broken | otherError => rfl
  | hangup => exact h.handleClose (h.polled hlegal)
  | runInLoop request result => exact h.runInLoop hlegal
  | call t request =>
    show ∃ c', c.call t request = some c' ∧ _
    rw [call, if_pos (show c.calls t = none from hlegal)]
    split_ifs with haccepts
    · have hstate : c.state ≠ .kConnecting := by
        intro hfresh
        cases request <;> simp [accepts, hfresh] at haccepts
      refine ⟨_, rfl, Orderly.setCall ?_ ?_⟩
      · cases request with
        | send message => exact { h with }
        | shutdown | forceClose => exact h
      · cases request <;> exact hstate
    · exact ⟨c, rfl, h⟩
  | advance t => exact ⟨_, rfl, h.advance hlegal⟩
  | doPendingFunctor result => exact h.doPendingFunctor hlegal
  -- the server's loop hands `connectDestroyed` back to the loop of the connection
  | removeConnection =>
    refine ⟨_, rfl, ?_⟩
    split_ifs with hclosing
    · have hclosed := h.removed (.inl hclosing)
      have hkept : Orderly { c with closing := false } :=
        { h with removed := fun hremoved ↦ hclosed }
      exact hkept.queueInLoop (fun hfresh ↦ by rw [hclosed] at hfresh; cases hfresh) fun _ ↦ hclosed
    · exact h

theorem New.orderly (h : c.New) : Orderly c where
  polled hpolled := by
    rw [h.reading_eq, h.writing_eq] at hpolled
    simp at hpolled
  reading hopen := by
    rw [h.state_eq] at hopen
    simp at hopen
  removed hremoved := by
    rw [h.closing_eq, h.pending_eq] at hremoved
    simp at hremoved
  callbacks_eq := by
    rw [h.callbacks_eq, h.state_eq]
    rfl
  fresh _ := ⟨h.pending_eq, h.calls_eq⟩

/-- **The life of a connection.** However the poller, the queue and the calls of other threads are
interleaved: if no thread writes the state of a connection that is closed, no assertion fails, and
the callback has been told that the connection is up, and then once that it is down. -/
theorem run_lifecycle (hnew : c.New)
    (hok : Guarded (step messageCallback) (Legal messageCallback) c es) :
    ∃ c', run (step messageCallback) c es = some c' ∧ c'.callbacks = told c'.state := by
  obtain ⟨c', hrun, h⟩ := exists_run (fun _ _ h hlegal ↦ h.exists_step hlegal) hnew.orderly hok
  exact ⟨c', hrun, h.callbacks_eq⟩

/-- A thread asks for a shutdown, and the client closes before it has been carried out. -/
theorem run_lifecycle_collecting : ∃ c', run (step collect) collecting
    [.connectEstablished, .handleRead (.data [1, 2]), .call 1 .shutdown, .advance 1,
      .handleRead .eof, .advance 1, .removeConnection, .doPendingFunctor .wouldBlock,
      .doPendingFunctor .wouldBlock] = some c' ∧ c'.callbacks = told c'.state :=
  run_lifecycle new_collecting (by decide)

/-- Had the client closed before the thread wrote the state, the callback would have been told twice
that the connection is down. -/
example : (run (step collect) collecting
    [.connectEstablished, .call 1 .forceClose, .handleRead .eof, .advance 1, .advance 1,
      .doPendingFunctor .wouldBlock]).map TcpConnection.callbacks = some [true, false, false] := rfl

end TcpConnection

end QCLib.Muduo
