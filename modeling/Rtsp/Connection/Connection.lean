import Rtsp.Connection.Receiver
import Rtsp.Connection.Sender
import Rtsp.Connection.Shutdown

/-!
# The connection

`Connection` of `connection/mod.rs`: the task that polls the receiver, the
sender and the shutdown handler, and decides when each of them is dropped. The
receiver's replies go into the channel of the sender, which is open as long as
the sender is there. The request handler is a task of its own; the connection
sees of it whether its shutdown event has been sent.

Each part is polled as the code polls it, in the order receiver, sender, shutdown
handler, and what one of them drops is gone for the next. `poll` comes with the trace of
what its parts did, and of the functions that drop a part each is a definition by itself
under its name in the source.

Between two polls other tasks do what they do: handles ask for shutdowns, futures queue
updates, the handler sends responses. All that comes in as answers of the next poll, or
as messages in the channel of the sender (`Connection.Op`). For the things that need
those tasks in the model there are others that contain this one, `Connection.World` for
what is sent and `Connection.Lifetime` for who is told of the end.

The request handler's shutdown event is `Shared`. A connection without a service has
none, and that it waits for one is a field that starts out false.
-/

namespace Rtsp

open Lib

/-- `Connection` -/
structure Connection (URI : Type) where
  allowRequests : Bool
  receiver : Option (Receiver URI)
  /-- Whether there is a shutdown event of the request handler to wait for. -/
  rxHandlerShutdownEvent : Bool
  sender : Option (Sender URI)
  shutdown : ShutdownHandler

namespace Connection

variable {URI URIError : Type}

/-- The answers of one poll. The receiver is told by the connection whether the sender is
    there. -/
structure Answers (URI URIError : Type) where
  receiver : Receiver.Answers URI URIError
  sender : Sender.Answers
  shutdown : ShutdownHandler.Answers
  handlerShutdownEvent : OneshotAnswer Unit

/-- The answers when nothing has come in and nothing has ended. -/
def Answers.idle : Answers URI URIError where
  receiver := .idle
  sender := .idle
  shutdown := ⟨.notReady, .notReady⟩
  handlerShutdownEvent := .notReady

/-- What a poll did, seen from outside. -/
structure Trace (URI URIError : Type) where
  receiver : Receiver.Trace URI URIError
  sender : Sender.Trace URI
  /-- What became of the pending requests when the receiver was dropped. -/
  dropped : Deliveries

/-- The connection of `with_config`. -/
def withConfig (service : Bool) (requestBufferSize : Nat) : Connection URI where
  allowRequests := true
  receiver := some (.new requestBufferSize)
  rxHandlerShutdownEvent := service
  sender := some .new
  shutdown := .new

def isReceiverShutdown (c : Connection URI) : Bool := c.receiver.isNone

def isSenderShutdown (c : Connection URI) : Bool := c.sender.isNone

def isShutdown (c : Connection URI) : Bool := c.isReceiverShutdown && c.isSenderShutdown

def shutdownReceiver (c : Connection URI) : Connection URI := { c with receiver := none }

def shutdownSender (c : Connection URI) : Connection URI := { c with sender := none }

def shutdownRequestReceiver (c : Connection URI) : Connection URI :=
  match c.receiver with
  | some receiver =>
    let receiver := receiver.shutdownRequestReceiver
    { c with receiver := if receiver.isShutdown then none else some receiver }
  | none => c

/-- What the receiver is told. The sender holds the sink. -/
def receiverAnswers (c : Connection URI) (env : Answers URI URIError) :
    Receiver.Answers URI URIError :=
  { env.receiver with senderOpen := c.sender.isSome, sinkHeld := c.sender.isSome }

/-- `poll_receiver`. What the receiver replies is put into the channel of the sender. -/
def pollReceiver (c : Connection URI) (env : Answers URI URIError) :
    Rust (Connection URI × Receiver.Trace URI URIError) :=
  match c.receiver with
  | some receiver => do
    let (result, receiver, t) ← receiver.poll (c.receiverAnswers env)
    let c := { c with
      receiver := some receiver
      sender := c.sender.map (·.enqueue (t.replies.map .response)) }
    match result with
    | .ready () => .ok (c.shutdownReceiver, t)
    | .notReady => .ok (c, t)
  | none => .ok (c, .empty)

def pollSender (c : Connection URI) (env : Answers URI URIError) :
    Connection URI × Sender.Trace URI :=
  match c.sender with
  | some sender =>
    let (result, sender, t) := sender.poll env.sender
    let c := { c with sender := some sender }
    match result with
    | .ok (.ready ()) => (c.shutdownRequestReceiver.shutdownSender, t)
    | .ok .notReady => (c, t)
    | .error () => (c.shutdownRequestReceiver.shutdownSender, t)
  | none => (c, .empty)

def pollRequestHandlerShutdown (c : Connection URI) (env : Answers URI URIError) :
    Connection URI :=
  if c.isReceiverShutdown && c.rxHandlerShutdownEvent then
    match env.handlerShutdownEvent with
    | .received () => c.shutdownSender
    | .canceled => c.shutdownSender
    | .notReady => c
  else c

/-- Requests are sent only with a sender for them and a receiver for the responses. -/
def updateAllowRequests (c : Connection URI) : Connection URI :=
  let allowResponses := match c.receiver with
    | some receiver => !receiver.isResponseReceiverShutdown
    | none => false
  { c with
    allowRequests := if !allowResponses || c.isSenderShutdown then false else c.allowRequests }

/-- What is done in each state of the shutdown handler, after which the poll goes on or
    returns. -/
def handleShutdownState (c : Connection URI) (env : Answers URI URIError) :
    Async Unit × Connection URI :=
  match c.shutdown.state with
  | .running => (.notReady, c.updateAllowRequests.pollRequestHandlerShutdown env)
  | .shuttingDown => (.notReady, { c.shutdownRequestReceiver with allowRequests := false })
  | .shutdown => (.ready (), { c.shutdownReceiver.shutdownSender with allowRequests := false })

/-- The end of `poll`: the connection is over once nothing is received or sent. -/
def finish (c : Connection URI) : Async Unit × Connection URI :=
  if c.isShutdown then (.ready (), { c with shutdown := c.shutdown.forceShutdown })
  else (.notReady, c)

def conclude : Async Unit × Connection URI → Async Unit × Connection URI
  | (.ready (), c) => (.ready (), c)
  | (.notReady, c) => c.finish

/-- The pending requests are told when the receiver goes. -/
def droppedBetween (env : Answers URI URIError) (c c' : Connection URI) : Deliveries :=
  match c.receiver, c'.receiver with
  | some receiver, none =>
    match receiver.responseReceiver with
    | some p => p.drop env.receiver.closed env.receiver.lateUpdates
    | none => []
  | _, _ => []

/-- `Connection::poll` -/
def poll (c : Connection URI) (env : Answers URI URIError) :
    Rust (Async Unit × Connection URI × Trace URI URIError) := do
  let (c, received) ← c.pollReceiver env
  let (c, sent) := c.pollSender env
  let (_, shutdown) ← c.shutdown.poll env.shutdown
  let c := { c with shutdown }
  let handled := c.handleShutdownState env
  let (result, c') := conclude handled
  .ok (result, c', ⟨received, sent, droppedBetween env c handled.2⟩)

end Connection
end Rtsp
