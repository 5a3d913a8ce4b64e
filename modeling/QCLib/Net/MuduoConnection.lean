import Mathlib.Logic.Function.Basic
import QCLib.Net.MuduoBuffer

/-!
# Connections of the network library

`TcpConnection` of muduo, as the servers here use it: `send`, `shutdown` and `forceClose` are called
by any thread, and the loop of the connection calls what the poller and the queue of functors ask
for. Calls of other threads are not atomic: they read the state, may write it, and queue a functor,
and anything may happen in between. The loop takes functors off its queue one at a time; what they
queue comes behind the others, as it does when the loop swaps the whole queue out.

`written` is what `write(2)` has taken, `finSent` that `shutdown(2)` has ended it, and `callbacks`
what `connected()` was at each call of the connection callback. `sends` and `outcomes` keep account
of the calls of `send` that found the connection established: whom they were made by, and what
became of them once the loop ran them. Two things are left out: timers, and that the object may be
destroyed while the functors of other threads still point to it.

The message callback is a parameter, with whatever it works on in `user`.

An event is one thing that happens to the connection: a callback of the poller with its result, a
functor that is called, or a step of a call in another thread. The results of the system calls are
part of the events, so a list of events is one interleaving with one behaviour of the kernel.
Assertions are kept, with `none` where they fail.

What a thread does outside the loop comes in two or three steps, because it reads the state first,
and sets it or queues a functor afterwards. `calls` has, for each thread, the call that it is in the
middle of.
-/

namespace QCLib.Muduo

/-- `StateE`. -/
inductive StateE where
  | kDisconnected
  | kConnecting
  | kConnected
  | kDisconnecting
  deriving DecidableEq, Repr

/-- A message, and the thread that sends it; `none` is the thread of the loop. -/
structure Sending where
  thread : Option Nat
  message : List UInt8
  deriving DecidableEq, Repr

/-- What is bound for the loop to call. -/
inductive Functor where
  | sendInLoop (s : Sending)
  | shutdownInLoop
  | forceCloseInLoop
  | connectDestroyed
  deriving DecidableEq, Repr

/-- The message of a functor. -/
def Functor.sending : Functor → Option Sending
  | .sendInLoop s => some s
  | _ => none

/-- What a thread asks of a connection. -/
inductive Request where
  | send (message : List UInt8)
  | shutdown
  | forceClose
  deriving DecidableEq, Repr

/-- How far a call of another thread has come: it has found the connection established, or has set
the state as well and is about to queue the functor. -/
inductive Call where
  | send (message : List UInt8)
  | shutdown
  | shutdownSet
  | forceClose
  | forceCloseSet
  deriving DecidableEq, Repr

/-- A call that has found the connection established. -/
def Request.checked : Request → Call
  | .send message => .send message
  | .shutdown => .shutdown
  | .forceClose => .forceClose

/-- The result of `write(2)`. -/
inductive WriteResult where
  | wrote (n : Nat)
  | wouldBlock
  /-- `EPIPE` or `ECONNRESET`. -/
  | broken
  | otherError
  deriving DecidableEq, Repr

/-- The result of `readv(2)`. -/
inductive ReadResult where
  | data (incoming : List UInt8)
  | eof
  | error
  deriving DecidableEq, Repr

/-- `TcpConnection`: its state and its two buffers, what the loop still has to do for it, the calls
of other threads that have not ended, and what the peer and the user have seen. -/
structure TcpConnection (β : Type) where
  state : StateE := .kConnecting
  reading : Bool := false
  writing : Bool := false
  inputBuffer : Buffer
  outputBuffer : Buffer
  pendingFunctors : List Functor := []
  calls : Nat → Option Call := fun _ ↦ none
  user : β
  written : List UInt8 := []
  finSent : Bool := false
  callbacks : List Bool := []
  /-- `closeCallback` has been called, and has not yet queued `connectDestroyed`. -/
  closing : Bool := false
  sends : List Sending := []
  outcomes : List (Sending × Bool) := []

namespace TcpConnection

variable {β : Type}

/-! ### In the loop -/

/-- `queueInLoop`: the functor goes to the end of what the loop has to do. -/
def queueInLoop (c : TcpConnection β) (functor : Functor) : TcpConnection β :=
  { c with pendingFunctors := c.pendingFunctors ++ [functor] }

/-- The end of `sendInLoop`, when `nwrote` bytes are written: the rest goes to the buffer. -/
def appendRest (c : TcpConnection β) (s : Sending) (nwrote : Nat) : Option (TcpConnection β) :=
  if nwrote ≤ s.message.length then
    let c := { c with
      written := c.written ++ s.message.take nwrote
      outcomes := c.outcomes ++ [(s, true)] }
    if 0 < s.message.length - nwrote then do
      let outputBuffer ← c.outputBuffer.append (s.message.drop nwrote)
      return { c with outputBuffer, writing := true }
    else return c
  else none

/-- `sendInLoop`: write at once if nothing waits, and queue what the socket did not take. A
connection that is closed refuses the message. -/
def sendInLoop (c : TcpConnection β) (s : Sending) (result : WriteResult) :
    Option (TcpConnection β) :=
  if c.state = .kDisconnected then
    return { c with outcomes := c.outcomes ++ [(s, false)] }
  else if !c.writing ∧ c.outputBuffer.readableBytes = 0 then
    match result with
    | .wrote n => c.appendRest s n
    | .wouldBlock | .otherError => c.appendRest s 0
    | .broken => return { c with outcomes := c.outcomes ++ [(s, false)] }
  else c.appendRest s 0

/-- `shutdownInLoop`: end the stream, unless bytes are still to be written. -/
def shutdownInLoop (c : TcpConnection β) : TcpConnection β :=
  if !c.writing then { c with finSent := true } else c

/-- `handleClose`, with its assertion: the connection is closed once. -/
def handleClose (c : TcpConnection β) : Option (TcpConnection β) :=
  if c.state = .kConnected ∨ c.state = .kDisconnecting then
    some { c with
      state := .kDisconnected
      reading := false
      writing := false
      callbacks := c.callbacks ++ [false]
      closing := true }
  else none

/-- `forceCloseInLoop`: close, unless that has happened already. -/
def forceCloseInLoop (c : TcpConnection β) : Option (TcpConnection β) :=
  if c.state = .kConnected ∨ c.state = .kDisconnecting then c.handleClose else return c

/-- `connectEstablished`, with its assertion: a new connection is opened. -/
def connectEstablished (c : TcpConnection β) : Option (TcpConnection β) :=
  if c.state = .kConnecting then
    some { c with state := .kConnected, reading := true, callbacks := c.callbacks ++ [true] }
  else none

/-- `connectDestroyed`, with the assertion of `Channel::remove`. -/
def connectDestroyed (c : TcpConnection β) : Option (TcpConnection β) :=
  let c := if c.state = .kConnected then
      { c with
        state := .kDisconnected
        reading := false
        writing := false
        callbacks := c.callbacks ++ [false] }
    else c
  if !c.reading ∧ !c.writing then some c else none

/-- `handleRead`: the bytes go into the input buffer, and the user's callback takes what it can. The
end of the peer's stream closes the connection. -/
def handleRead (messageCallback : β → Buffer → Option (β × Buffer)) (c : TcpConnection β) :
    ReadResult → Option (TcpConnection β)
  | .data incoming => do
    let inputBuffer ← c.inputBuffer.readFd incoming
    let (user, inputBuffer) ← messageCallback c.user inputBuffer
    return { c with user, inputBuffer }
  | .eof => c.handleClose
  | .error => return c

/-- `handleWrite`: the front of the output buffer is written. When it is empty, a connection that is
to be closed ends its stream. -/
def handleWrite (c : TcpConnection β) (result : WriteResult) : Option (TcpConnection β) :=
  if c.writing then
    match result with
    | .wrote n =>
      if 0 < n then do
        let outputBuffer ← c.outputBuffer.retrieve n
        let c := { c with
          written := c.written ++ c.outputBuffer.content.take n
          outputBuffer }
        if outputBuffer.readableBytes = 0 then
          let c := { c with writing := false }
          return if c.state = .kDisconnecting then c.shutdownInLoop else c
        else return c
      else return c
    | _ => return c
  else return c

/-- Call a functor, which does what its name says. -/
def callFunctor (c : TcpConnection β) (result : WriteResult) :
    Functor → Option (TcpConnection β)
  | .sendInLoop s => c.sendInLoop s result
  | .shutdownInLoop => return c.shutdownInLoop
  | .forceCloseInLoop => c.forceCloseInLoop
  | .connectDestroyed => c.connectDestroyed

/-- A turn of `doPendingFunctors`: the oldest functor is called. -/
def doPendingFunctor (c : TcpConnection β) (result : WriteResult) : Option (TcpConnection β) :=
  match c.pendingFunctors with
  | [] => return c
  | functor :: rest => { c with pendingFunctors := rest }.callFunctor result functor

/-! ### From any thread -/

/-- Whether a request finds the state that it asks for. -/
def accepts (c : TcpConnection β) : Request → Bool
  | .send _ | .shutdown => c.state = .kConnected
  | .forceClose => c.state = .kConnected ∨ c.state = .kDisconnecting

/-- Put a `send` down, before it is known what becomes of it. -/
def note (c : TcpConnection β) (thread : Option Nat) : Request → TcpConnection β
  | .send message => { c with sends := c.sends ++ [⟨thread, message⟩] }
  | _ => c

/-- `send`, `shutdown` and `forceClose`, called in the thread of the loop. -/
def runInLoop (c : TcpConnection β) (result : WriteResult) (request : Request) :
    Option (TcpConnection β) :=
  if c.accepts request then
    match request with
    | .send message => (c.note none request).sendInLoop ⟨none, message⟩ result
    | .shutdown => return { c with state := .kDisconnecting }.shutdownInLoop
    | .forceClose => return { c with state := .kDisconnecting }.queueInLoop .forceCloseInLoop
  else return c

/-- The call of a thread has come so far. -/
def setCall (c : TcpConnection β) (t : Nat) (call : Option Call) : TcpConnection β :=
  { c with calls := Function.update c.calls t call }

/-- The start of such a call in another thread, which makes one call at a time. -/
def call (c : TcpConnection β) (t : Nat) (request : Request) : Option (TcpConnection β) :=
  if c.calls t = none then
    if c.accepts request then
      return (c.note (some t) request).setCall t (some request.checked)
    else return c
  else none

/-- The next step of a thread's call: it has read the state before, and sets it or queues its
functor now. -/
def advance (c : TcpConnection β) (t : Nat) : TcpConnection β :=
  match c.calls t with
  | none => c
  | some (.send message) => (c.setCall t none).queueInLoop (.sendInLoop ⟨some t, message⟩)
  | some .shutdown => { c.setCall t (some .shutdownSet) with state := .kDisconnecting }
  | some .shutdownSet => (c.setCall t none).queueInLoop .shutdownInLoop
  | some .forceClose => { c.setCall t (some .forceCloseSet) with state := .kDisconnecting }
  | some .forceCloseSet => (c.setCall t none).queueInLoop .forceCloseInLoop

/-! ### All that can happen -/

inductive Event where
  | connectEstablished
  | handleRead (result : ReadResult)
  | handleWrite (result : WriteResult)
  /-- The poller reports a hangup, and nothing to read. -/
  | hangup
  | runInLoop (request : Request) (result : WriteResult)
  | call (t : Nat) (request : Request)
  | advance (t : Nat)
  | doPendingFunctor (result : WriteResult)
  /-- `removeConnection`, which `closeCallback` leads to. -/
  | removeConnection
  deriving DecidableEq, Repr

def step (messageCallback : β → Buffer → Option (β × Buffer)) (c : TcpConnection β) :
    Event → Option (TcpConnection β)
  | .connectEstablished => c.connectEstablished
  | .handleRead result => c.handleRead messageCallback result
  | .handleWrite result => c.handleWrite result
  | .hangup => c.handleClose
  | .runInLoop request result => c.runInLoop result request
  | .call t request => c.call t request
  | .advance t => return c.advance t
  | .doPendingFunctor result => c.doPendingFunctor result
  | .removeConnection =>
    return if c.closing then { c with closing := false }.queueInLoop .connectDestroyed else c

end TcpConnection

end QCLib.Muduo
