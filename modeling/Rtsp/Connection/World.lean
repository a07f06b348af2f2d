import Rtsp.Connection.Outgoing
import Rtsp.Connection.Serving
import Rtsp.Connection.ShutdownEvents

/-!
# The connection and the request handler

Two tasks and the handles, joined by channels: the receiver forwards requests to the
request handler, the handler and the handles put messages into the channel of the
sender, the handler tells the connection when it is done, and the handles tell it when
the last of them is dropped (`World`).

A poll of the connection is not one step here. The other tasks run on other threads, so
they may come in between, and what the connection finds in a channel depends on when it
looks. The poll is therefore cut where it looks: before the sender is polled, and before
the shutdown handler and the event of the request handler are looked at (`Polls`).
Without the other tasks in between, the three parts are `Connection::poll`
(`poll_parts`). Of the handler's own poll only its turns matter (`RequestHandler.Turn`).

No handle calls `shutdown`. Handles may be cloned and dropped, though, and the last one
to go asks for a graceful shutdown of the default duration; so the last part of a poll
is given what is in that channel, and only the timer's answer comes from outside. The
handles' own queue of pending requests is not part of the world, and whether the channel
of the sender has ended is one of the answers of the sink's side, as in `Sender.poll`:
both can do more here than they can in the program.
-/

namespace Rtsp

open Lib

/-! ## What the handler puts into the channel -/

namespace RequestHandler

variable {URI URIError : Type}

/-- The responses that have been put into the channel of the sender. -/
def responses (events : List (Event URI)) : List Response :=
  events.filterMap fun
    | .enqueued response => some response
    | _ => none

@[simp] theorem responses_append (es fs : List (Event URI)) :
    responses (es ++ fs) = responses es ++ responses fs :=
  List.filterMap_append

/-- What sending a response adds to the events. -/
theorem sendResponse_events (senderOpen : Bool) (cseq : CSeq) (response : Response)
    (h : RequestHandler URI) (t : List (Event URI)) :
    ∃ new, (sendResponse senderOpen cseq response (h, t)).2 = t ++ new ∧
      (senderOpen = false → responses new = []) := by
  unfold sendResponse
  dsimp only
  split
  · cases senderOpen with
    | true => exact ⟨_, rfl, nofun⟩
    | false => exact ⟨[], (List.append_nil t).symm, fun _ => rfl⟩
  · exact ⟨[], (List.append_nil t).symm, fun _ => rfl⟩

/-- A turn adds to the events, and no response once the sender is gone. -/
theorem Turn.events [RequestURI URI URIError] {senderOpen : Bool} {s s' : State URI}
    (h : Turn senderOpen s s') :
    ∃ new, s'.2 = s.2 ++ new ∧ (senderOpen = false → responses new = []) := by
  cases h with
  | @expire h t h' t' cseq _ _ hsent =>
    obtain ⟨new, hnew, hclosed⟩ := sendResponse_events senderOpen cseq CONTINUE_RESPONSE h t
    rw [hsent] at hnew
    exact ⟨new, hnew, hclosed⟩
  | shed => exact ⟨[], (List.append_nil _).symm, fun _ => rfl⟩
  | respond response _ => exact sendResponse_events ..
  | reject => exact sendResponse_events ..
  | call => exact ⟨_, rfl, fun _ => rfl⟩
  | @shutdown h t =>
    unfold RequestHandler.shutdown
    dsimp only
    split
    · exact ⟨_, rfl, fun _ => rfl⟩
    · exact ⟨[], (List.append_nil t).symm, fun _ => rfl⟩

end RequestHandler

/-! ## The tasks and their channels -/

/-- Who has put a message into the channel of the sender. -/
inductive Source where
  | handler
  | others
  deriving DecidableEq

/-- The connection, the request handler, the handles, and what has come of the messages so far. -/
structure World (URI : Type) where
  connection : Connection URI
  handler : RequestHandler.State URI
  handles : Nat
  shutdownSender : ConnectionShutdownSender
  /-- The channel in which the handles ask for a shutdown. -/
  initiate : Oneshot ShutdownType
  /-- What has been put into the channel of the sender, in order. -/
  queued : List (Message URI × Source)
  /-- What the sink has accepted, and how much of it was flushed. -/
  accepted : List (Message URI)
  flushed : Nat

namespace World

variable {URI URIError : Type}

/-- A connection with a request handler, and one handle. -/
def start (requestBufferSize : Nat) (continueWaitDuration : Option Nat)
    (gracefulShutdownTimeoutDefaultDuration : Nat) : World URI where
  connection := .withConfig true requestBufferSize
  handler := (.new continueWaitDuration, [])
  handles := 1
  shutdownSender := ⟨gracefulShutdownTimeoutDefaultDuration, true⟩
  initiate := .new
  queued := []
  accepted := []
  flushed := 0

/-- Messages are put into the channel of the sender, as long as it is there. -/
def enqueue (w : World URI) (source : Source) (messages : List (Message URI)) : World URI :=
  match w.connection.sender with
  | some s =>
    { w with
      connection := { w.connection with sender := some (s.enqueue messages) }
      queued := w.queued ++ messages.map (·, source) }
  | none => w

/-- The receiver does not hold the channel to the request handler any more. -/
def requestsEnded (c : Connection URI) : Bool := c.receiver.all (·.forwardingReceiver.isNone)

/-- What the request handler sees of the receiver. -/
def forward (w : World URI) (requests : Forwarded URI) : World URI :=
  { w with
    handler := ({ w.handler.1 with
      incoming := w.handler.1.incoming ++ requests
      incomingEnded := w.handler.1.incomingEnded || requestsEnded w.connection }, w.handler.2) }

/-! ### The parts of a poll -/

/-- `Connection::poll` up to the sender. -/
def receive (w : World URI) (env : Connection.Answers URI URIError) : Rust (World URI) := do
  let (c, t) ← w.connection.pollReceiver env
  .ok (forward { w with
    connection := c
    queued := if w.connection.isSenderShutdown then w.queued
      else w.queued ++ t.replies.map (.response ·, .others) } t.forwarded)

/-- The sender's part of `Connection::poll`. -/
def send (w : World URI) (env : Connection.Answers URI URIError) : World URI :=
  let (c, t) := w.connection.pollSender env
  forward { w with
    connection := c
    accepted := w.accepted ++ t.accepted
    flushed := if t.flushed then (w.accepted ++ t.accepted).length else w.flushed } []

/-- What the shutdown handler is told: what the handles have asked for, and how the timer
    answers. -/
def shutdownAnswers (w : World URI) (env : Connection.Answers URI URIError) :
    ShutdownHandler.Answers :=
  { env.shutdown with initiate := w.initiate.poll.1 }

/-- The channel of the handles behind a poll: once it has told the shutdown handler, it is let
    go. -/
def initiated (w : World URI) (after : ShutdownHandler) : Oneshot ShutdownType :=
  if w.connection.shutdown.rxInitiateShutdown then
    if after.rxInitiateShutdown then w.initiate.poll.2 else w.initiate.poll.2.close
  else w.initiate

/-- What the connection sees of the request handler. -/
def handlerShutdownEvent (w : World URI) : OneshotAnswer Unit :=
  if w.handler.1.txShutdownEvent then .notReady else .received ()

/-- `Connection::poll` behind the sender. -/
def conclude (w : World URI) (env : Connection.Answers URI URIError) : Rust (World URI) := do
  let (_, shutdown) ← w.connection.shutdown.poll (w.shutdownAnswers env)
  let handled := Connection.handleShutdownState { w.connection with shutdown }
    { env with handlerShutdownEvent := w.handlerShutdownEvent }
  let c := (Connection.conclude handled).2
  .ok (forward { w with connection := c, initiate := w.initiated c.shutdown } [])

/-! ### Steps -/

/-- The request handler has taken a turn. -/
def turn (w : World URI) (s : RequestHandler.State URI) : World URI :=
  { w with handler := s }.enqueue .handler
    ((RequestHandler.responses (s.2.drop w.handler.2.length)).map .response)

/-- `Drop` for a handle. What the handles share goes with the last of them, which asks for a
    graceful shutdown. -/
def dropHandle (w : World URI) : World URI :=
  if w.handles = 1 then
    { w with
      handles := 0
      shutdownSender := (w.shutdownSender.shutdown w.initiate w.shutdownSender.default).1
      initiate := (w.shutdownSender.shutdown w.initiate w.shutdownSender.default).2 }
  else { w with handles := w.handles - 1 }

/-- What the other tasks do. -/
inductive Other [RequestURI URI URIError] : World URI → World URI → Prop where
  | turn {w s} : RequestHandler.Turn w.connection.sender.isSome w.handler s → Other w (w.turn s)
  | dropHandler {w} : Other w { w with handler := RequestHandler.shutdown w.handler }
  /-- The handles send requests. -/
  | send {w} (messages : List (Message URI)) : 0 < w.handles →
      Other w (w.enqueue .others messages)
  | cloneHandle {w} : 0 < w.handles → Other w { w with handles := w.handles + 1 }
  | dropHandle {w} : 0 < w.handles → Other w w.dropHandle

abbrev Others [RequestURI URI URIError] : World URI → World URI → Prop :=
  Relation.ReflTransGen Other

/-- A poll of the connection, from `w` to `w'`. The other tasks may go on before the sender is
    polled, in `w₂`, and before the last part, in `w₃`. The sink does not fail. -/
structure Polls [RequestURI URI URIError] (env : Connection.Answers URI URIError)
    (w w₂ w₃ w' : World URI) : Prop where
  sink : env.sender.Reliable
  received : ∃ w₁, w.receive env = .ok w₁ ∧ Others w₁ w₂
  sent : Others (w₂.send env) w₃
  concluded : w₃.conclude env = .ok w'

inductive Op (URI URIError : Type) where
  | other
  | poll (env : Connection.Answers URI URIError)

inductive Step [RequestURI URI URIError] : World URI → Op URI URIError → World URI → Prop where
  | other {w w'} : Other w w' → Step w .other w'
  | poll {env : Connection.Answers URI URIError} {w w₂ w₃ w'} : Polls env w w₂ w₃ w' →
      Step w (.poll env) w'

/-- Without the other tasks, the three parts are a poll of the connection. -/
theorem poll_parts {w w₁ w' : World URI} {env : Connection.Answers URI URIError}
    (hreceive : w.receive env = .ok w₁) (hconclude : (w₁.send env).conclude env = .ok w') :
    ∃ a t, w.connection.poll
      { env with
        shutdown := (w₁.send env).shutdownAnswers env
        handlerShutdownEvent := (w₁.send env).handlerShutdownEvent } =
        .ok (a, w'.connection, t) := by
  obtain ⟨⟨c, t⟩, hreceiver, hw₁⟩ := bind_eq_ok hreceive
  obtain ⟨⟨r, shutdown⟩, hshutdown, hw'⟩ := bind_eq_ok hconclude
  dsimp only at hw'
  generalize (w₁.send env).handlerShutdownEvent = handlerShutdownEvent at hw' ⊢
  generalize (w₁.send env).shutdownAnswers env = answers at hshutdown ⊢
  -- What the last part is told does not matter before it.
  let env' := { env with shutdown := answers, handlerShutdownEvent }
  have hreceiver' : w.connection.pollReceiver env' = .ok (c, t) := hreceiver
  cases hw₁
  have hshutdown' : (c.pollSender env').1.shutdown.poll env'.shutdown = .ok (r, shutdown) :=
    hshutdown
  obtain ⟨trace, hpoll⟩ := Connection.poll_of hreceiver' hshutdown'
  cases hw'
  exact ⟨_, trace, hpoll⟩

end World
end Rtsp
