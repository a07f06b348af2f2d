import Rtsp.Network.Carried
import Rtsp.Network.Heard
import Rtsp.Network.Intake
import Rtsp.Network.Wire

/-!
# Two peers

A client that sends requests through its handles and a server that answers them with its
request handler, over one connection. Each part of either peer is the one of the other
modules; here they share the channels between them and the two streams of bytes. What
one task does between two accesses to what it shares is a step, so a run is any
interleaving of the tasks of both peers, with any timing of the network, any answers of
the service and any timers.

A step of the whole is a step of one part, or of the two parts that a message passes
between: a call that queues its request takes a step of the calls and one of the sender,
and a poll of the receiver pushes into the channels of the handler and of the other
sender. No part has a step here that it does not have by itself. That is deliberate,
since it lets everything that was shown of a part by itself be used of it here
(`Linked`).

What is left out is mostly the shutdown. Neither peer's `Connection` appears as a whole:
the parts are polled one by one, in any order, which covers the orders in which the task
of a connection polls them, and a sender or a receiver may be dropped at any time. How
shutdowns come about, and who is told, is the subject of `Connection.Lifetime`. A
receiver that is polled here has a handler that listens; when the handler is gone first,
requests are dropped, and there is nothing to say of them end to end.

The server sends no requests of its own, and the client handles none.
-/

namespace Rtsp

open Lib

/-! ## Channels -/

section Channels

variable {URI URIError : Type}

/-- The requests that the receiver forwards come into the channel of the handler. -/
def RequestHandler.Session.arriveAll (s : RequestHandler.Session URI)
    (requests : Forwarded URI) : RequestHandler.Session URI :=
  { s with
    handler := { s.handler with incoming := s.handler.incoming ++ requests }
    arrived := s.arrived ++ requests }

theorem RequestHandler.Session.run_arriveAll [RequestURI URI URIError]
    (s : RequestHandler.Session URI) {requests : Forwarded URI}
    (h : requests = [] ∨ s.handler.incomingEnded = false) :
    Run Step s (requests.map fun e => .arrive e.1 e.2) (s.arriveAll requests) := by
  induction requests using List.reverseRecOn with
  | nil =>
    have hsame : s.arriveAll [] = s := by simp [arriveAll]
    rw [hsame]
    exact .start
  | append_singleton requests e ih =>
    have hopen := h.resolve_left (List.append_ne_nil_of_right_ne_nil _ (List.cons_ne_nil _ _))
    have hlast := Step.arrive (s := s.arriveAll requests) e.1 e.2 hopen
    rw [List.map_append, List.map_singleton]
    refine (ih (.inr hopen)).snoc ?_
    simpa [arriveAll] using hlast

/-- The response among what the handler has done. -/
def RequestHandler.Event.response? : RequestHandler.Event URI → Option Response
  | .enqueued response => some response
  | .called _ _ | .fired => none

/-- Messages are pushed one after the other. -/
def Delivery.pushAll (d : Delivery URI) (messages : List (Message URI)) : Delivery URI :=
  messages.foldl push d

namespace Delivery

theorem pushAll_concat (d : Delivery URI) (messages : List (Message URI))
    (message : Message URI) :
    d.pushAll (messages ++ [message]) = (d.pushAll messages).push message :=
  List.foldl_append ..

/-- A push changes what is in the channel, and nothing of the sender's task. -/
theorem push_keeps (d : Delivery URI) (message : Message URI) :
    (d.push message).handles = d.handles ∧ (d.push message).stage = d.stage ∧
      (d.push message).accepted = d.accepted := by
  unfold push
  split
  · exact ⟨rfl, rfl, rfl⟩
  · exact ⟨rfl, rfl, rfl⟩

theorem push_pushed {d : Delivery URI} (h : d.stage ≠ .dropped) (message : Message URI) :
    (d.push message).pushed = d.pushed ++ [message] := by
  rw [push, if_neg h]

theorem pushAll_keeps (d : Delivery URI) (messages : List (Message URI)) :
    (d.pushAll messages).handles = d.handles ∧ (d.pushAll messages).stage = d.stage ∧
      (d.pushAll messages).accepted = d.accepted := by
  induction messages using List.reverseRecOn with
  | nil => exact ⟨rfl, rfl, rfl⟩
  | append_singleton messages message ih =>
    rw [pushAll_concat]
    obtain ⟨hhandles, hstage, haccepted⟩ := (d.pushAll messages).push_keeps message
    exact ⟨hhandles.trans ih.1, hstage.trans ih.2.1, haccepted.trans ih.2.2⟩

theorem pushAll_pushed {d : Delivery URI} (h : d.stage ≠ .dropped)
    (messages : List (Message URI)) : (d.pushAll messages).pushed = d.pushed ++ messages := by
  induction messages using List.reverseRecOn with
  | nil => exact (List.append_nil _).symm
  | append_singleton messages message ih =>
    rw [pushAll_concat, push_pushed (by rw [(d.pushAll_keeps messages).2.1]; exact h), ih,
      List.append_assoc]

theorem run_pushAll (d : Delivery URI) {messages : List (Message URI)}
    (h : messages = [] ∨ 0 < d.handles) :
    Run Step d (messages.map .push) (d.pushAll messages) := by
  induction messages using List.reverseRecOn with
  | nil => exact .start
  | append_singleton messages message ih =>
    have hhandles := h.resolve_left (List.append_ne_nil_of_right_ne_nil _ (List.cons_ne_nil _ _))
    rw [List.map_append, List.map_singleton, pushAll_concat]
    refine (ih (.inr hhandles)).snoc (.push message ?_)
    rw [(d.pushAll_keeps messages).1]
    exact hhandles

/-- What the sender's task and the handles on it do, but for pushing and the end of it. -/
def Op.isOwn : Op URI → Bool
  | push _ | drop => false
  | cloneHandle | dropHandle | retry _ | take _ _ | flush _ | finish | close _ => true

end Delivery

/-- What the calls, the futures and the response receiver do by themselves. -/
def Exchange.Op.isOwn : Exchange.Op → Bool
  | addPendingRequest _ | queueMessage | write | closeSender | respond _ => false
  | cloneHandle | dropHandle | messageFails | retract | startPoll | handleUpdate | drained | ended
  | finishPoll | startDrop | cancelEntry _ | closeQueue | discard | poll _ | pollTimers _ _ _
  | queueRemoval _ | closeReceiver _ | drop _ => true

/-- The message in an answer of the stream. -/
def StreamAnswer.message? : StreamAnswer URI URIError → Option (Message URI)
  | .message m => some m
  | .notReady | .ended | .error _ => none

/-- The messages that have been read. -/
def Receiver.Trace.messages (t : Receiver.Trace URI URIError) : List (Message URI) :=
  t.answered.filterMap StreamAnswer.message?

end Channels

/-! ## The system -/

structure Network (URI URIError : Type) where
  /-- The client's calls, futures and response receiver. -/
  client : Exchange
  /-- What the calls were made with. -/
  requests : List (Request URI)
  clientSender : Delivery URI
  uplink : Wire URI URIError
  /-- The server's receiver, with all that its polls have left in their traces. -/
  server : Receiver.State URI URIError
  handler : RequestHandler.Session URI
  serverSender : Delivery URI
  downlink : Wire URI URIError
  /-- The responses that the client has read. -/
  heard : List Response

namespace Network

variable {URI URIError : Type} [RequestURI URI URIError]

/-- A new connection. The server's configuration has the two numbers. -/
def start (first : CSeq) (requestBufferSize : Nat) (continueWaitDuration : Option Nat) :
    Network URI URIError where
  client := .start first
  requests := []
  clientSender := .start
  uplink := .new
  server := (.new requestBufferSize, .empty)
  handler := .new continueWaitDuration
  serverSender := .start
  downlink := .new
  heard := []

inductive Op (URI URIError : Type) where
  | client (op : Exchange.Op)
  | call (request : Request URI) (options : RequestOptions)
  | queueMessage
  | clientSender (op : Delivery.Op URI)
  | write (op : Delivery.Op URI)
  | closeSender
  | uplink (chunk : Bytes)
  | receive (env : Receiver.Answers URI URIError)
  | shutdownRequestReceiver
  | endIncoming
  | serve (env : RequestHandler.Answers)
  | serverSender (op : Delivery.Op URI)
  | dropServerSender
  | downlink (chunk : Bytes)
  | read

/-- What the stream answers is what has been decoded next, or that the connection under it has
    ended or failed. -/
structure Reads (s : Network URI URIError) (t : Receiver.Trace URI URIError) : Prop where
  messages : s.server.2.messages ++ t.messages <+: s.uplink.decoded
  errors : ∀ e, .error e ∈ t.answered →
    e = .io ∨ e = .unexpectedEOF ∨ s.uplink.failed = some e

inductive Step : Network URI URIError → Op URI URIError → Network URI URIError → Prop where
  | client {s op c} : op.isOwn = true → Exchange.Step s.client op c →
      Step s (.client op) { s with client := c }
  /-- A call registers its request. If the queue has been closed, it returns an error. -/
  | call {s c} (request : Request URI) (options : RequestOptions) :
      Exchange.Step s.client (.addPendingRequest options) c →
      Step s (.call request options)
        { s with
          client := c
          requests := if s.client.phase = .closed then s.requests else s.requests ++ [request] }
  /-- The request is numbered and given to the sender. -/
  | queueMessage {s call request c d} : s.client.call = some call →
      s.requests[call.request]? = some request → Exchange.Step s.client .queueMessage c →
      Delivery.Step s.clientSender
        (.push (.request (request.withCSeq call.sequenceNumber))) d →
      Step s .queueMessage { s with client := c, clientSender := d }
  | clientSender {s op d} : op.isOwn = true → Delivery.Step s.clientSender op d →
      d.accepted = s.clientSender.accepted →
      Step s (.clientSender op) { s with clientSender := d }
  /-- The sink accepts a request, outside of the response receiver. -/
  | write {s op c d message} : op.isOwn = true → Delivery.Step s.clientSender op d →
      d.accepted = s.clientSender.accepted ++ [message] → Exchange.Step s.client .write c →
      Step s (.write op)
        { s with client := c, clientSender := d, uplink := s.uplink.write [message] }
  | closeSender {s c d} : Exchange.Step s.client .closeSender c →
      Delivery.Step s.clientSender .drop d →
      Step s .closeSender { s with client := c, clientSender := d }
  | uplink {s w} (chunk : Bytes) : Wire.Step s.uplink (.arrive chunk) w →
      Step s (.uplink chunk) { s with uplink := w }
  /-- The server's receiver is polled, while the handler listens. -/
  | receive {s env a r t} : s.server.1.poll env = .ok (a, r, t) → .closed ∉ env.handler →
      (env.senderOpen = true → s.serverSender.stage ≠ .dropped) → Reads s t →
      (t.forwarded = [] ∨ s.handler.handler.incomingEnded = false) →
      (t.replies = [] ∨ 0 < s.serverSender.handles) →
      Step s (.receive env)
        { s with
          server := (r, s.server.2.append t)
          handler := s.handler.arriveAll t.forwarded
          serverSender := s.serverSender.pushAll (t.replies.map .response) }
  | shutdownRequestReceiver {s} :
      Step s .shutdownRequestReceiver
        { s with server := (s.server.1.shutdownRequestReceiver, s.server.2) }
  /-- The forwarding receiver is gone, and its half of the channel with it. -/
  | endIncoming {s h} : s.server.1.forwardingReceiver = none →
      RequestHandler.Session.Step s.handler .endIncoming h →
      Step s .endIncoming { s with handler := h }
  /-- The handler is polled. Once the sender is gone, nothing that it does is seen. -/
  | serve {s env h t} : RequestHandler.Session.Step s.handler (.poll env) h →
      h.events = s.handler.events ++ t → s.serverSender.stage ≠ .dropped →
      (t.filterMap (·.response?) = [] ∨ 0 < s.serverSender.handles) →
      Step s (.serve env)
        { s with
          handler := h
          serverSender := s.serverSender.pushAll
            ((t.filterMap (·.response?)).map .response) }
  | serverSender {s op d messages} : op.isOwn = true → Delivery.Step s.serverSender op d →
      d.accepted = s.serverSender.accepted ++ messages →
      Step s (.serverSender op)
        { s with serverSender := d, downlink := s.downlink.write messages }
  | dropServerSender {s d} : Delivery.Step s.serverSender .drop d →
      Step s .dropServerSender { s with serverSender := d }
  | downlink {s w} (chunk : Bytes) : Wire.Step s.downlink (.arrive chunk) w →
      Step s (.downlink chunk) { s with downlink := w }
  /-- The client reads the next response. -/
  | read {s response c} : s.downlink.decoded[s.heard.length]? = some (.response response) →
      Exchange.Step s.client (.respond response) c →
      Step s .read { s with client := c, heard := s.heard ++ [response] }

end Network
end Rtsp
