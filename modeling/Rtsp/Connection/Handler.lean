import Rtsp.Connection.Async
import Rtsp.Header.Types
import Rtsp.Request
import Rtsp.Response

/-!
# The request handler

`RequestHandler` of `connection/handler.rs`: the task that takes requests out of
the channel the receiver fills, has the service respond to them one at a time,
and puts the responses into the channel of the sender. The service is a
parameter: each future it returns answers as it likes when it is polled. Of the
future in service only the sequence number is kept.

The answers of a poll are lists: the service is asked once in each turn of the loop, and
the timer as often as it expires. A service that is not told to answer, and a timer, are
not ready, so a poll is finite whatever it is given.

What the handler does is kept as events, in order. A call of the service is an event
too, for that it is called with the request in the channel, and when, is part of what it
owes.

The timer is kept as whether it runs. The code adds the wait to `Instant::now()`, which
panics if the sum cannot be represented; that is left out, and a configuration with such
a wait would panic at the first request (see `resetContinueTimer`).
-/

namespace Rtsp

/-- What the future of a service call answers. The error it may end in is not looked at. -/
inductive ServiceAnswer where
  | ready (response : Response)
  | notReady
  | error

/-- `RequestHandler`, with the requests that are in its channel. -/
structure RequestHandler (URI : Type) where
  continueTimer : Bool
  continueWaitDuration : Option Nat
  incoming : List (CSeq × Request URI)
  /-- Whether the receiver has let its end of the channel go. -/
  incomingEnded : Bool
  senderHandle : Bool
  servicedRequest : Option CSeq
  txShutdownEvent : Bool

/-- A response that carries the sequence number of a request, whatever number it had. -/
def Response.withCSeq (response : Response) (cseq : CSeq) : Response :=
  { response with headers := response.headers.typedInsert cseq }

namespace RequestHandler

variable {URI URIError : Type}

/-- The answers of one poll. In each turn of its loop the service gives one answer, if a
    request is in service. -/
structure Answers where
  senderOpen : Bool
  service : List ServiceAnswer
  timer : List DelayAnswer

/-- What the handler does, seen from outside. -/
inductive Event (URI : Type) where
  /-- The service is called with the request of this number. -/
  | called (cseq : CSeq) (request : Request URI)
  /-- A response is put into the channel of the sender. -/
  | enqueued (response : Response)
  /-- The shutdown event is sent. -/
  | fired
  deriving DecidableEq

/-- A handler and what it has done. -/
abbrev State (URI : Type) := RequestHandler URI × List (Event URI)

/-- `RequestHandler::new` -/
def new (continueWaitDuration : Option Nat) : RequestHandler URI where
  continueTimer := false
  continueWaitDuration := continueWaitDuration
  incoming := []
  incomingEnded := false
  senderHandle := true
  servicedRequest := none
  txShutdownEvent := true

/-- `send_response`. Without a receiver for its responses the handler goes on. -/
def sendResponse (senderOpen : Bool) (cseq : CSeq) (response : Response) : State URI → State URI
  | (h, t) =>
    if h.senderHandle then
      if senderOpen then (h, t ++ [.enqueued (response.withCSeq cseq)])
      else ({ h with senderHandle := false }, t)
    else (h, t)

/-- `reset_continue_timer`. A duration that an `Instant` cannot hold, on which setting the timer
    panics, is left out. -/
def resetContinueTimer (h : RequestHandler URI) : RequestHandler URI :=
  if h.continueWaitDuration.isSome then { h with continueTimer := true } else h

/-- `poll_continue_timer`. A timer that is not told to answer is not ready. -/
def pollContinueTimer (senderOpen : Bool) (cseq : CSeq) :
    List DelayAnswer → State URI → Rust (Async Unit × State URI)
  | .expired :: answers, (h, t) =>
    if h.continueTimer then
      let (h, t) := sendResponse senderOpen cseq CONTINUE_RESPONSE (h, t)
      pollContinueTimer senderOpen cseq answers (h.resetContinueTimer, t)
    else .ok (.ready (), h, t)
  | .atCapacity :: answers, (h, t) =>
    if h.continueTimer then
      pollContinueTimer senderOpen cseq answers ({ h with continueTimer := false }, t)
    else .ok (.ready (), h, t)
  | .shutdown :: _, (h, t) =>
    if h.continueTimer then .error (.expect "continue timer should not be shutdown")
    else .ok (.ready (), h, t)
  | .notReady :: _, (h, t) =>
    if h.continueTimer then .ok (.notReady, h, t) else .ok (.ready (), h, t)
  | [], (h, t) => if h.continueTimer then .ok (.notReady, h, t) else .ok (.ready (), h, t)

/-- What `poll_serviced_request` does once there is a response. -/
def respond (senderOpen : Bool) (cseq : CSeq) (response : Response) (s : State URI) : State URI :=
  let (h, t) := sendResponse senderOpen cseq response s
  ({ h with continueTimer := false, servicedRequest := none }, t)

/-- `poll_serviced_request`. The timer is polled for its effect: whether or not it was
    ready, the request is still in service. -/
def pollServicedRequest (env : Answers) (answer : ServiceAnswer) :
    State URI → Rust (Async Unit × State URI)
  | (h, t) =>
    match h.servicedRequest with
    | some cseq =>
      match answer with
      | .ready response => .ok (.ready (), respond env.senderOpen cseq response (h, t))
      | .notReady => do
        let (result, s) ← pollContinueTimer env.senderOpen cseq env.timer (h, t)
        .ok (tryReady result fun _ => .notReady, s)
      | .error =>
        .ok (.ready (), respond env.senderOpen cseq INTERNAL_SERVER_ERROR_RESPONSE (h, t))
    | none => .ok (.ready (), h, t)

/-- The service is called, and the timer is set. -/
def callService (cseq : CSeq) (request : Request URI) : State URI → State URI
  | (h, t) =>
    ({ h.resetContinueTimer with servicedRequest := some cseq }, t ++ [.called cseq request])

/-- `process_request` -/
def processRequest [RequestURI URI URIError] (senderOpen : Bool) (cseq : CSeq)
    (request : Request URI) (s : State URI) : State URI :=
  if RequestURI.isRtspu request.uri then
    sendResponse senderOpen cseq NOT_IMPLEMENTED_RESPONSE s
  else
    match request.headers.typedGet ContentLength with
    | some contentLength =>
      if 0 < contentLength.val && !request.headers.containsKey (.standard .contentType) then
        sendResponse senderOpen cseq BAD_REQUEST_RESPONSE s
      else callService cseq request s
    | none => callService cseq request s

/-- `shutdown` -/
def shutdown : State URI → State URI
  | (h, t) =>
    ({ h with
        continueTimer := false, senderHandle := false, servicedRequest := none
        txShutdownEvent := false },
      if h.txShutdownEvent then t ++ [.fired] else t)

/-- The loop of `poll`, over the requests in the channel. -/
def pollLoop [RequestURI URI URIError] (env : Answers) : List ServiceAnswer →
    List (CSeq × Request URI) → State URI → Rust (Async Unit × State URI)
  | answers, (cseq, request) :: incoming, s => do
    let (result, s) ← pollServicedRequest env (answers.head?.getD .notReady) s
    match result with
    | .ready () =>
      pollLoop env answers.tail incoming
        (processRequest env.senderOpen cseq request ({ s.1 with incoming }, s.2))
    | .notReady => .ok (.notReady, s)
  | answers, [], s => do
    let (result, s) ← pollServicedRequest env (answers.head?.getD .notReady) s
    match result with
    | .ready () => if s.1.incomingEnded then .ok (.ready (), shutdown s) else .ok (.notReady, s)
    | .notReady => .ok (.notReady, s)

/-- `RequestHandler::poll` -/
def poll [RequestURI URI URIError] (h : RequestHandler URI) (env : Answers) :
    Rust (Async Unit × State URI) :=
  pollLoop env env.service h.incoming (h, [])

end RequestHandler
end Rtsp
