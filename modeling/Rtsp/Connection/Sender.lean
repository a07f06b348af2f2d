import Rtsp.Codec.Codec
import Rtsp.Connection.Async

/-!
# The sender

`Sender` of `connection/sender.rs`: it takes messages off the queue that the
handles on it fill, and submits them to the sink. A message that the sink is not
ready for is kept until the next poll. Dropping the sender drops what is still
queued or kept, and what the sink has not flushed.

The queue is a list that other tasks append to between polls, and it comes to an end
when the last handle is gone, which the answers of a poll say. Within a poll no message
is added. That is no restriction as far as the order of messages goes: what is added
while the poll runs is behind all the messages that it has seen.

The sink is a parameter. Whether it takes a message, and what flushing and closing come
to, is among the answers. A message that it has taken has been handed over and not been
written (`Trace.accepted`); when it is flushed the trace says so.

The `Date` header is set when a message is taken off the queue, so messages that wait
are not dated early. The date is a parameter, one for each message of a poll.
-/

namespace Rtsp

/-- What a flush or a close of the sink answers. -/
abbrev SinkAnswer := Poll Unit Unit

/-- `Sender`, with the messages that are in its channel. -/
structure Sender (URI : Type) where
  bufferedMessage : Option (Message URI)
  outgoing : List (Message URI)

namespace Sender

variable {URI : Type}

/-- The answers of one poll. A sink that is not told to answer is not ready. -/
structure Answers where
  /-- Whether the last handle on the sender is gone. -/
  ended : Bool
  startSend : List SendAnswer
  pollComplete : SinkAnswer
  close : SinkAnswer
  /-- `Date::new()`, by the value it is written as, for the message that leaves so many behind
      it in the channel. -/
  date : Nat → HeaderValue

/-- The answers of a sink that takes and flushes everything. -/
def Answers.idle : Answers where
  ended := false
  startSend := []
  pollComplete := .ok (.ready ())
  close := .ok (.ready ())
  date _ := ⟨ascii "Thu, 01 Jan 1970 00:00:00 +0000", by decide⟩

/-- What a poll did to the sink: the messages it accepted, and whether it was flushed behind
    them. -/
structure Trace (URI : Type) where
  accepted : List (Message URI)
  flushed : Bool

def Trace.empty : Trace URI := ⟨[], false⟩

def Trace.accept (t : Trace URI) (message : Message URI) : Trace URI :=
  { t with accepted := t.accepted ++ [message] }

def new : Sender URI := ⟨none, []⟩

/-- `SenderHandle::try_send_message`, while the sender is there. -/
def enqueue (s : Sender URI) (messages : List (Message URI)) : Sender URI :=
  { s with outgoing := s.outgoing ++ messages }

/-- `headers_mut().typed_insert(Date::new())` -/
def insertDate (date : HeaderValue) : Message URI → Message URI
  | .request r =>
    .request { r with
      headers := (r.headers.remove (.standard .date)).append (.standard .date) date }
  | .response r =>
    .response { r with
      headers := (r.headers.remove (.standard .date)).append (.standard .date) date }

/-- `try_send_message`, given what the sink answers. -/
def trySendMessage (s : Sender URI) (answer : SendAnswer) (message : Message URI)
    (t : Trace URI) : Poll Unit Unit × Sender URI × Trace URI :=
  match answer with
  | .ready => (.ok (.ready ()), s, t.accept message)
  | .notReady => (.ok .notReady, { s with bufferedMessage := some message }, t)
  | .closed => (.error (), s, t)

/-- The loop of `poll_write`, over the messages in the channel. The sender keeps those it
    has not taken yet. -/
def writeLoop (env : Answers) : List SendAnswer → Option (Message URI) → List (Message URI) →
    Trace URI → Poll Unit Unit × Sender URI × Trace URI
  | answers, buffered, message :: outgoing, t =>
    let (result, s, t) := trySendMessage ⟨buffered, outgoing⟩ (answers.head?.getD .notReady)
      (insertDate (env.date outgoing.length) message) t
    match result with
    | .ok (.ready ()) => writeLoop env answers.tail s.bufferedMessage outgoing t
    | .ok .notReady => (.ok .notReady, s, t)
    | .error () => (.error (), s, t)
  | _, buffered, [], t =>
    if env.ended then (.ok (.ready ()), ⟨buffered, []⟩, t)
    else
      match env.pollComplete with
      | .ok (.ready ()) => (.ok .notReady, ⟨buffered, []⟩, { t with flushed := true })
      | .ok .notReady => (.ok .notReady, ⟨buffered, []⟩, t)
      | .error () => (.error (), ⟨buffered, []⟩, t)

def pollWrite (s : Sender URI) (env : Answers) (answers : List SendAnswer) (t : Trace URI) :
    Poll Unit Unit × Sender URI × Trace URI :=
  writeLoop env answers s.bufferedMessage s.outgoing t

/-- What is left of `poll` once no message is kept. -/
def pollRest (s : Sender URI) (env : Answers) (answers : List SendAnswer) (t : Trace URI) :
    Poll Unit Unit × Sender URI × Trace URI :=
  let (result, s, t) := s.pollWrite env answers t
  match result with
  | .ok (.ready ()) =>
    match env.close with
    | .ok (.ready ()) => (.ok (.ready ()), s, { t with flushed := true })
    | .ok .notReady => (.ok .notReady, s, t)
    | .error () => (.error (), s, t)
  | .ok .notReady => (.ok .notReady, s, t)
  | .error () => (.error (), s, t)

/-- `Sender::poll` -/
def poll (s : Sender URI) (env : Answers) : Poll Unit Unit × Sender URI × Trace URI :=
  match s.bufferedMessage with
  | some message =>
    let (result, s, t) := trySendMessage { s with bufferedMessage := none }
      (env.startSend.head?.getD .notReady) message .empty
    match result with
    | .ok (.ready ()) => s.pollRest env env.startSend.tail t
    | .ok .notReady => (.ok .notReady, s, t)
    | .error () => (.error (), s, t)
  | none => s.pollRest env env.startSend .empty

end Sender
end Rtsp
