import Rtsp.Codec.Codec
import Rtsp.Connection.Forwarding
import Rtsp.Connection.Pending

/-!
# The receiver

`Receiver` of `connection/receiver.rs`: it reads messages off the stream, hands
requests to the forwarding receiver and responses to the response receiver, and
lets go of the stream and of its handle on the sender once both kinds are shut
down.

A poll is given what the stream, the channels and the timer answer in it
(`Answers`), and leaves a trace of what it did (`Trace`).

The answers of the stream are messages and errors, decoded already: which bytes they
come from is a matter of the codec. A request that is turned down is replied to and
reading goes on; an error of the stream itself ends it, and the stream is dropped.

The functions have the source's structure, loops included. Each loop runs over the
answers it is given, and with no answer left it stops as on `NotReady`, so no fuel is
needed and the number of turns is that of the answers. What one poll did is in its
trace, which the code does not have. No function reads it back.

The decoding timer is kept as whether it runs. That the code starts it with
`Instant::now()` plus a duration, and that this can panic, is left out (see
`handleCodecEvent`).
-/

namespace Rtsp

open Lib

/-- What the stream of messages answers. -/
inductive StreamAnswer (URI URIError : Type) where
  | message (m : Message URI)
  | notReady
  | ended
  | error (e : ProtocolError URIError)
  deriving DecidableEq

/-- `Receiver`. Of the timer, the handle on the sender and the stream only their presence
    matters: what they do is told by the answers of each poll. -/
structure Receiver (URI : Type) where
  decodingTimer : Bool
  forwardingReceiver : Option (ForwardingReceiver URI)
  requestsAllowed : Bool
  responseReceiver : Option ResponseReceiver
  senderHandle : Bool
  stream : Bool

namespace Receiver

variable {URI URIError : Type}

/-- The answers of one poll. What a list does not tell is not there yet. -/
structure Answers (URI URIError : Type) where
  /-- Pending request updates, and whether their channel ends behind them. -/
  updates : List PendingRequestUpdate
  updatesEnd : Bool
  /-- The updates that have come in when the response receiver is dropped. -/
  lateUpdates : List PendingRequestUpdate
  stream : List (StreamAnswer URI URIError)
  codecEvents : List CodecEvent
  /-- Whether the sink is still there. It shares the codec, which sends the events, with the
      stream. -/
  sinkHeld : Bool
  decodingTimer : DelayAnswer
  /-- What the channel to the request handler answers. -/
  handler : List SendAnswer
  /-- Whether the owner of a request has closed its half of a channel. -/
  closed : ReplyChannel → Bool
  /-- Whether the sender still takes messages. -/
  senderOpen : Bool

/-- The answers when nothing has come in and the other tasks still listen. -/
def Answers.idle : Answers URI URIError where
  updates := []
  updatesEnd := false
  lateUpdates := []
  stream := []
  codecEvents := []
  sinkHeld := true
  decodingTimer := .notReady
  handler := []
  closed _ := false
  senderOpen := true

/-- What a poll did, seen from outside. -/
structure Trace (URI URIError : Type) where
  /-- What the stream answered. -/
  answered : List (StreamAnswer URI URIError)
  /-- The requests given to `handle_request`, and those it took in. -/
  handled : List (Request URI)
  accepted : Forwarded URI
  forwarded : Forwarded URI
  /-- The error replies given to the sender. -/
  replies : List Response
  deliveries : Deliveries

namespace Trace

def empty : Trace URI URIError := ⟨[], [], [], [], [], []⟩

def answer (t : Trace URI URIError) (a : StreamAnswer URI URIError) : Trace URI URIError :=
  { t with answered := t.answered ++ [a] }

/-- A request was handled: if with success, it was taken in under its `CSeq`. -/
def handle (t : Trace URI URIError) (request : Request URI)
    (result : Except RequestReceiverError Unit) : Trace URI URIError :=
  { t with
    handled := t.handled ++ [request]
    accepted := t.accepted ++ ForwardingReceiver.takenIn request result }

def forward (t : Trace URI URIError) (sent : Forwarded URI) : Trace URI URIError :=
  { t with forwarded := t.forwarded ++ sent }

def reply (t : Trace URI URIError) (response : Response) : Trace URI URIError :=
  { t with replies := t.replies ++ [response] }

def deliver (t : Trace URI URIError) (ds : Deliveries) : Trace URI URIError :=
  { t with deliveries := t.deliveries ++ ds }

end Trace

/-- The receiver and the trace so far. -/
abbrev State (URI URIError : Type) := Receiver URI × Trace URI URIError

/-- `Receiver::new` -/
def new (requestBufferSize : Nat) : Receiver URI where
  decodingTimer := false
  forwardingReceiver := some (.new requestBufferSize)
  requestsAllowed := true
  responseReceiver := some .new
  senderHandle := true
  stream := true

def isForwardingShutdown (r : Receiver URI) : Bool := r.forwardingReceiver.isNone

def isRequestReceiverShutdown (r : Receiver URI) : Bool := !r.requestsAllowed

def isResponseReceiverShutdown (r : Receiver URI) : Bool := r.responseReceiver.isNone

def isReceivingShutdown (r : Receiver URI) : Bool :=
  r.isRequestReceiverShutdown && r.isResponseReceiverShutdown

def isShutdown (r : Receiver URI) : Bool := r.isReceivingShutdown && r.isForwardingShutdown

/-! ## Messages and errors -/

/-- `send_message` -/
def sendMessage (env : Answers URI URIError) (message : Response) (t : Trace URI URIError) :
    Rust (Trace URI URIError) :=
  if env.senderOpen then .ok (t.reply message)
  else .error (.expect "`Receiver.sender_handle` should not have been dropped")

/-- The reply to a request that could not be decoded. -/
def protocolErrorReply : ProtocolError URIError → Option Response
  | .decodeError (.request .unsupportedVersion) => some VERSION_NOT_SUPPORTED_RESPONSE
  | .decodeError (.request .bodyTooLong) => some REQUEST_MESSAGE_BODY_TOO_LARGE_RESPONSE
  | .decodeError (.request .uriTooLong) => some REQUEST_URI_TOO_LONG_RESPONSE
  | .decodeError (.request _) => some BAD_REQUEST_RESPONSE
  | _ => none

def handleProtocolError (env : Answers URI URIError) (r : Receiver URI)
    (error : ProtocolError URIError) (t : Trace URI URIError) : Rust (Trace URI URIError) :=
  if r.senderHandle then
    match protocolErrorReply error with
    | some message => sendMessage env message t
    | none => .ok t
  else .ok t

def handleRequestReceiverError (env : Answers URI URIError) (r : Receiver URI)
    (error : RequestReceiverError) (t : Trace URI URIError) : Rust (Trace URI URIError) :=
  if r.senderHandle then
    match error with
    | .badRequest => sendMessage env BAD_REQUEST_RESPONSE t
    | .cseqDifferenceTooLarge => sendMessage env FORBIDDEN_RESPONSE t
  else .error (.expect "request receiver error should imply message sending is active")

def handleMessage (env : Answers URI URIError) (message : Message URI) (s : State URI URIError) :
    Rust (Except RequestReceiverError Unit × State URI URIError) :=
  let (r, t) := s
  match message with
  | .request request =>
    if r.requestsAllowed then do
      let f ← expect "presence of request receiver should imply forwarding" r.forwardingReceiver
      let (result, f) := f.handleRequest request
      .ok (result, { r with forwardingReceiver := some f }, t.handle request result)
    else .ok (.ok (), r, t)
  | .response response =>
    match r.responseReceiver with
    | some p =>
      let (p, ds) := p.handleResponse env.closed response
      .ok (.ok (), { r with responseReceiver := some p }, t.deliver ds)
    | none => .ok (.ok (), r, t)

/-! ## Shutting down -/

/-- `self.response_receiver = None`, which drops it. -/
def dropResponseReceiver (env : Answers URI URIError) (s : State URI URIError) :
    State URI URIError :=
  let (r, t) := s
  match r.responseReceiver with
  | some p => ({ r with responseReceiver := none }, t.deliver (p.drop env.closed env.lateUpdates))
  | none => (r, t)

/-- `shutdown_request_receiver`. Returns the receiver; whether it is shut down is
    `isShutdown` of it. -/
def shutdownRequestReceiver (r : Receiver URI) : Receiver URI :=
  let r := { r with requestsAllowed := false }
  let r := if r.isResponseReceiverShutdown then { r with senderHandle := false, stream := false }
    else r
  match r.forwardingReceiver with
  | some f => if f.hasRequestsReady then r else { r with forwardingReceiver := none }
  | none => r

def shutdownResponseReceiver (env : Answers URI URIError) (s : State URI URIError) :
    State URI URIError :=
  let (r, t) := dropResponseReceiver env s
  (if r.isRequestReceiverShutdown then { r with senderHandle := false, stream := false } else r, t)

def shutdownForwardingReceiver (r : Receiver URI) : Receiver URI :=
  shutdownRequestReceiver { r with forwardingReceiver := none }

def shutdownReceiving (env : Answers URI URIError) (s : State URI URIError) : State URI URIError :=
  shutdownResponseReceiver env (shutdownRequestReceiver s.1, s.2)

/-! ## Polling -/

/-- The loop of `poll_stream`, with the stream taken out of the receiver. -/
def readLoop (env : Answers URI URIError) :
    List (StreamAnswer URI URIError) → State URI URIError →
      Rust (Poll Unit (ProtocolError URIError) × State URI URIError)
  | answers, (r, t) =>
    if r.forwardingReceiver.any (·.isFull) then .ok (.ok .notReady, { r with stream := true }, t)
    else match answers with
      | [] => .ok (.ok .notReady, { r with stream := true }, t.answer .notReady)
      | .notReady :: _ => .ok (.ok .notReady, { r with stream := true }, t.answer .notReady)
      | .message message :: answers => do
        let (result, r, t) ← handleMessage env message (r, t.answer (.message message))
        match result with
        | .ok () => readLoop env answers (r, t)
        | .error error => do
          let t ← handleRequestReceiverError env r error t
          readLoop env answers (r, t)
      | .ended :: _ => .ok (.ok (.ready ()), r, t.answer .ended)
      | .error error :: _ => do
        let t ← handleProtocolError env r error (t.answer (.error error))
        .ok (.error error, r, t)

def pollStream (env : Answers URI URIError) (s : State URI URIError) :
    Rust (Poll Unit (ProtocolError URIError) × State URI URIError) :=
  let (r, t) := s
  if r.stream then readLoop env env.stream ({ r with stream := false }, t)
  else .ok (.ok (.ready ()), r, t)

/-- `handle_codec_event`. A decode timeout that an `Instant` cannot hold, on which setting the timer
    panics, is left out. -/
def handleCodecEvent (r : Receiver URI) (event : CodecEvent) : Receiver URI :=
  match event with
  | .decodingStarted => { r with decodingTimer := true }
  | .decodingEnded => { r with decodingTimer := false }
  | _ => r

/-- `poll_codec_events`. The channel ends behind the events when the codec is gone: with the
    stream and the sink. -/
def pollCodecEvents (env : Answers URI URIError) (r : Receiver URI) : Rust (Receiver URI) :=
  let r := env.codecEvents.foldl handleCodecEvent r
  if r.stream || env.sinkHeld then .ok r
  else .error (.expect "`Receiver.rx_codec_event` should not end")

def pollDecodingTimer (env : Answers URI URIError) (r : Receiver URI) : Rust (Poll Unit Unit) :=
  if r.decodingTimer then
    match env.decodingTimer with
    | .expired => .ok (.ok (.ready ()))
    | .notReady => .ok (.ok .notReady)
    | .atCapacity => .ok (.error ())
    | .shutdown => .error (.expect "decoding timer should not be shutdown")
  else .ok (.ok .notReady)

/-- The first part of `poll_receiving`. -/
def pollResponseReceiver (env : Answers URI URIError) (s : State URI URIError) :
    State URI URIError :=
  let (r, t) := s
  match r.responseReceiver with
  | some p =>
    let (result, p) := p.poll env.updates env.updatesEnd
    let r := { r with responseReceiver := some p }
    match result with
    | .ready () => shutdownResponseReceiver env (r, t)
    | .notReady => (r, t)
  | none => (r, t)

def pollReceiving (env : Answers URI URIError) (s : State URI URIError) :
    Rust (Async Unit × State URI URIError) := do
  let (result, r, t) ← pollStream env (pollResponseReceiver env s)
  match result with
  | .ok (.ready ()) => .ok (.ready (), r, t)
  | .error _ => .ok (.ready (), r, t)
  | .ok .notReady => do
    let r ← pollCodecEvents env r
    match ← pollDecodingTimer env r with
    | .ok .notReady => .ok (.notReady, r, t)
    | _ => .ok (.ready (), r, t)

/-- The second half of `poll`. -/
def pollForwarding (env : Answers URI URIError) (s : State URI URIError) :
    Bool × State URI URIError :=
  let (r, t) := s
  match r.forwardingReceiver with
  | some f =>
    let (result, f, sent) := f.poll env.handler
    let r := { r with forwardingReceiver := some f }
    let t := t.forward sent
    match result with
    | .error () =>
      let r := shutdownForwardingReceiver r
      (r.isShutdown, r, t)
    | .ok (.ready ()) =>
      if r.isRequestReceiverShutdown then
        let r := shutdownForwardingReceiver r
        (r.isShutdown, r, t)
      else (false, r, t)
    | .ok .notReady => (false, r, t)
  | none => (r.isShutdown, r, t)

/-- `Receiver::poll` -/
def poll (r : Receiver URI) (env : Answers URI URIError) :
    Rust (Async Unit × State URI URIError) := do
  let (result, s) ← pollReceiving env (r, .empty)
  let s := match result with
    | .ready () => shutdownReceiving env s
    | .notReady => s
  let (isShutdown, s) := pollForwarding env s
  .ok (if isShutdown then .ready () else .notReady, s)

end Receiver
end Rtsp
