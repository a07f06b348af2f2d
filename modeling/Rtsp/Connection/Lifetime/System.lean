import Rtsp.Connection.Over
import Rtsp.Connection.ShutdownEvents

/-!
# A connection, its handler and its handles

What `Connection::with_config` returns, and what becomes of it: the task of the
connection, the task of the request handler, the handles, and those who wait for the
end. They are together in one state because the code joins them in one. A handle can end
the connection, the connection tells the handler by ending its channel of requests, and
either task tells the receivers by an event.

A poll of a task is one step: what another task does while it is being polled is taken
to happen before the poll or after it. Between two polls anything can happen to what a
task shares, and a task may be dropped at any time, as it is when a poll of it fails, or
when its executor is shut down. What is sent to the handler, and what the other tasks
give the sender to send, is up to the run.

The answers that a poll gets are free but for two, which are not the environment's to
choose: what the channel of the shutdown handler says is what the handles have done to
it, and what is said of the request handler's event is what became of that task.

`asked` records what was asked for. No step reads it.
-/

namespace Rtsp

open Lib

/-- Whether the event is sent. -/
def RequestHandler.Event.isFired {URI : Type} : RequestHandler.Event URI → Bool
  | .fired => true
  | .called _ _ | .enqueued _ => false

structure Lifetime (URI : Type) where
  /-- The connection, until it is dropped. -/
  task : Option (Task URI)
  /-- The request handler, until it is dropped. -/
  handler : Option (RequestHandler.Task URI)
  handles : Nat
  shutdownSender : ConnectionShutdownSender
  initiate : Oneshot ShutdownType
  connectionEvent : Oneshot Unit
  /-- There is none without a service. -/
  handlerEvent : Option (Oneshot Unit)
  receivers : List ConnectionShutdownReceiver
  /-- What was asked for, in order. -/
  asked : List ShutdownType

namespace Lifetime

variable {URI URIError : Type}

/-- What `Connection::with_config` returns. The two numbers are those of the configuration. -/
def start (service : Bool) (requestBufferSize : Nat) (continueWaitDuration : Option Nat)
    (gracefulShutdownTimeoutDefaultDuration : Nat) : Lifetime URI where
  task := some (.start service requestBufferSize)
  handler := if service then some ⟨.new continueWaitDuration, false⟩ else none
  handles := 1
  shutdownSender := ⟨gracefulShutdownTimeoutDefaultDuration, true⟩
  initiate := .new
  connectionEvent := .new
  handlerEvent := if service then some .new else none
  receivers := []
  asked := []

/-- A shutdown is asked for. -/
def ask (s : Lifetime URI) (shutdownType : ShutdownType) : Lifetime URI :=
  { s with
    shutdownSender := (s.shutdownSender.shutdown s.initiate shutdownType).1
    initiate := (s.shutdownSender.shutdown s.initiate shutdownType).2
    asked := s.asked ++ [shutdownType] }

/-- The channel to the shutdown handler, which lets it go once it has been told. -/
def initiated (s : Lifetime URI) (before after : ShutdownHandler) : Oneshot ShutdownType :=
  if before.rxInitiateShutdown then
    if after.rxInitiateShutdown then s.initiate.poll.2 else s.initiate.poll.2.close
  else s.initiate

/-- The event of the connection has been sent as often as it says. -/
def sendConnectionEvent (s : Lifetime URI) (before after : Nat) : Oneshot Unit :=
  if before < after then s.connectionEvent.send () else s.connectionEvent

/-- The event of the handler is sent if that is among what it did. -/
def sendHandlerEvent (s : Lifetime URI) (t : List (RequestHandler.Event URI)) :
    Option (Oneshot Unit) :=
  s.handlerEvent.map fun event => if t.any (·.isFired) then event.send () else event

/-- What those who wait are told. -/
def answers (s : Lifetime URI) : ConnectionShutdownReceiver.Answers where
  connection := s.connectionEvent.shared
  handler := (s.handlerEvent.map (·.shared)).getD .canceled

inductive Op (URI URIError : Type) where
  | pollConnection (env : Connection.Answers URI URIError)
  | send (messages : List (Message URI))
  | dropConnection
  | arrive (cseq : CSeq) (request : Request URI)
  | endIncoming
  | pollHandler (env : RequestHandler.Answers)
  | dropHandler
  | cloneHandle
  | dropHandle
  | shutdown (shutdownType : ShutdownType)
  | shutdownReceiver
  | cloneReceiver (i : Nat)
  | pollReceiver (i : Nat)

inductive Step [RequestURI URI URIError] :
    Lifetime URI → Op URI URIError → Lifetime URI → Prop where
  | pollConnection {s task env task'} : s.task = some task →
      env.shutdown.initiate = s.initiate.poll.1 →
      (∀ event, s.handlerEvent = some event → env.handlerShutdownEvent = event.shared) →
      task.poll env = .ok task' →
      Step s (.pollConnection env)
        { s with
          task := some task'
          initiate := s.initiated task.connection.shutdown task'.connection.shutdown
          connectionEvent := s.sendConnectionEvent task.events task'.events }
  /-- Other tasks put messages into the channel of the sender. -/
  | send {s task} (messages : List (Message URI)) : s.task = some task →
      Step s (.send messages)
        { s with
          task := some { task with
            connection := { task.connection with
              sender := task.connection.sender.map (·.enqueue messages) } } }
  | dropConnection {s task} : s.task = some task →
      Step s .dropConnection
        { s with
          task := none
          initiate := s.initiate.close
          connectionEvent := (s.sendConnectionEvent task.events task.drop.events).close }
  | arrive {s handler} (cseq : CSeq) (request : Request URI) : s.handler = some handler →
      handler.handler.incomingEnded = false →
      Step s (.arrive cseq request)
        { s with
          handler := some { handler with
            handler := { handler.handler with
              incoming := handler.handler.incoming ++ [(cseq, request)] } } }
  | endIncoming {s handler} : s.handler = some handler →
      Step s .endIncoming
        { s with
          handler := some { handler with
            handler := { handler.handler with incomingEnded := true } } }
  | pollHandler {s handler env a h t} : s.handler = some handler →
      handler.handler.poll env = .ok (a, h, t) →
      Step s (.pollHandler env)
        { s with handler := some (handler.polled a h), handlerEvent := s.sendHandlerEvent t }
  | dropHandler {s handler} : s.handler = some handler →
      Step s .dropHandler
        { s with
          handler := none
          handlerEvent :=
            (s.sendHandlerEvent (RequestHandler.shutdown (handler.handler, [])).2).map (·.close) }
  | cloneHandle {s} : 0 < s.handles → Step s .cloneHandle { s with handles := s.handles + 1 }
  /-- What the handles share is dropped with the last of them. -/
  | dropHandle {s} : 0 < s.handles →
      Step s .dropHandle
        (if s.handles = 1 then { s.ask s.shutdownSender.default with handles := 0 }
        else { s with handles := s.handles - 1 })
  | shutdown {s} (shutdownType : ShutdownType) : 0 < s.handles →
      Step s (.shutdown shutdownType) (s.ask shutdownType)
  | shutdownReceiver {s} : 0 < s.handles →
      Step s .shutdownReceiver
        { s with receivers := s.receivers ++ [⟨true, s.handlerEvent.isSome⟩] }
  | cloneReceiver {s i r} : s.receivers[i]? = some r →
      Step s (.cloneReceiver i) { s with receivers := s.receivers ++ [r] }
  | pollReceiver {s i r a r'} : s.receivers[i]? = some r → r.poll s.answers = .ok (a, r') →
      Step s (.pollReceiver i) { s with receivers := s.receivers.set i r' }

/-- Both tasks are over: each of them has finished, or was dropped. -/
structure Over (s : Lifetime URI) : Prop where
  connection : ∀ task, s.task = some task → task.finished = true
  handler : ∀ handler, s.handler = some handler → handler.finished = true

end Lifetime
end Rtsp
