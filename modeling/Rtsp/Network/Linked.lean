import Mathlib.Data.List.Infix
import Rtsp.Network.Network

/-!
# How the parts of two peers hang together

In every run of the two peers each part is in a state of its own that some run of it
alone leads to, and what one part has let out is what the next has taken in (`Linked`).

The first half looks like a triviality and is what the rest is built on. A step of the
two peers is a step of the parts it touches, so the invariants of a part hold of it
without being shown again, however the other parts behave, and the modules behind this
one hardly ever look at the code of a part. It has to be stated with an existential over
runs, and not as a conjunction of invariants, because which invariants will be wanted is
not known here.

The second half is the conservation of messages. Each field of `Linked` is about one
place where a message changes hands: from the calls to the channel of the sender, from
the sink to the stream, from the stream to the receiver, from the receiver to the
handler, and back. At some of them the message is changed, and then the field says how
(`Queued`: the request of the call, with its number). At a channel that can lose its
receiving half the field is about what went in, so nothing is said to have arrived that
was only sent.

What the parts do with each other's failures is left out as far as the steps leave it
out. `Linked` says nothing about time: that something sent ever arrives is in no field,
and is shown for peers that are up in `Network.Settling`.

Most of the module is the step lemma, a case for each step. The cases that move messages
are lemmas by themselves; in the others everything stays but one part, and `SameCalls`
and `Delivery.Step.own` say that such a step lets nothing out.
-/

namespace Rtsp

open Lib

/-! ## Steps that concern one part only -/

namespace Exchange

/-- What the calls, the futures and the response receiver do by themselves leaves alone what
    was called and sent. -/
structure SameCalls (s s' : Exchange) : Prop where
  numbers : s'.numbers = s.numbers
  sent : s'.sent = s.sent
  written : s'.written = s.written
  senderOpen : s'.senderOpen = s.senderOpen

theorem Shared.sameCalls {s s' : Exchange} (h : Shared s s') : SameCalls s s' :=
  ⟨h.numbers, h.sent, h.written, h.senderOpen⟩

theorem Step.sameCalls {s s' : Exchange} {op : Op} (h : Step s op s') (hown : op.isOwn = true) :
    SameCalls s s' := by
  cases h with
  | addPendingRequest => cases hown
  | queueMessage => cases hown
  | write => cases hown
  | closeSender => cases hown
  | respond => cases hown
  | retract =>
    rw [Exchange.retract, unboundedSend_eq]
    exact ⟨rfl, rfl, rfl, rfl⟩
  | queueRemoval =>
    rw [unboundedSend_eq]
    exact ⟨rfl, rfl, rfl, rfl⟩
  | poll => exact (shared_looked ..).sameCalls
  | closeReceiver => exact (shared_closeReceiver ..).sameCalls
  | drop => exact (shared_drop ..).sameCalls
  | _ => exact ⟨rfl, rfl, rfl, rfl⟩

end Exchange

namespace Delivery

variable {URI : Type} {d d' : Delivery URI} {op : Op URI}

theorem trySend_pushed (d : Delivery URI) (answer : SendAnswer) (message : Message URI) :
    (d.trySend answer message).pushed = d.pushed := by
  unfold trySend
  split
  · rfl
  · rfl

theorem trySend_stage (d : Delivery URI) (answer : SendAnswer) (message : Message URI) :
    (d.trySend answer message).stage ≠ .dropped := by
  unfold trySend
  split
  · exact nofun
  · generalize d.sender.trySendMessage answer message .empty = tried
    obtain ⟨_ | _ | _, _, _⟩ := tried
    · exact nofun
    · exact nofun
    · exact nofun

/-- The sender's task and the handles on it push nothing, and the task does not end. -/
theorem Step.own (h : Step d op d') (hown : op.isOwn = true) :
    d'.pushed = d.pushed ∧ (d.stage ≠ .dropped → d'.stage ≠ .dropped) := by
  cases h with
  | push => cases hown
  | drop => cases hown
  | cloneHandle => exact ⟨rfl, id⟩
  | dropHandle => exact ⟨rfl, id⟩
  | retry answer =>
    unfold Delivery.retry
    split
    · exact ⟨trySend_pushed _ _ _, fun _ => trySend_stage _ _ _⟩
    · exact ⟨rfl, fun _ => nofun⟩
  | take date answer =>
    exact ⟨trySend_pushed _ _ _, fun _ => trySend_stage _ _ _⟩
  | flush answer =>
    cases answer with
    | ok => exact ⟨rfl, fun _ => nofun⟩
    | error => exact ⟨rfl, fun _ => nofun⟩
  | finish =>
    refine ⟨rfl, fun _ => ?_⟩
    unfold Delivery.finish
    dsimp only
    split
    · exact nofun
    · exact nofun
  | close answer =>
    rcases answer with _ | (_ | _)
    · exact ⟨rfl, fun _ => nofun⟩
    · exact ⟨rfl, fun _ => nofun⟩
    · exact ⟨rfl, fun _ => nofun⟩

end Delivery

namespace Network

variable {URI URIError : Type} [RequestURI URI URIError]

/-! ## The links -/

/-- The message that a call has queued, of the requests and the numbers of all calls. -/
def Queued (requests : List (Request URI)) (numbers : List CSeq) (n : Nat)
    (message : Message URI) : Prop :=
  ∃ request c, requests[n]? = some request ∧ numbers[n]? = some c ∧
    message = .request (request.withCSeq c)

theorem Queued.append {requests : List (Request URI)} {numbers : List CSeq} {n : Nat}
    {message : Message URI} (h : Queued requests numbers n message)
    (requests' : List (Request URI)) (numbers' : List CSeq) :
    Queued (requests ++ requests') (numbers ++ numbers') n message := by
  obtain ⟨request, c, hrequest, hnumber, rfl⟩ := h
  refine ⟨request, c, ?_, ?_, rfl⟩
  · rw [List.getElem?_append_left (List.getElem?_eq_some_iff.mp hrequest).1, hrequest]
  · rw [List.getElem?_append_left (List.getElem?_eq_some_iff.mp hnumber).1, hnumber]

/-- What the server's handler has enqueued. -/
def responses (s : Network URI URIError) : List Response :=
  s.handler.events.filterMap (·.response?)

/-- **The parts are linked**: each is in a state of its own, and what one has let out is what the
    next one has taken in. -/
structure Linked (first : CSeq) (size : Nat) (duration : Option Nat)
    (s : Network URI URIError) : Prop where
  client : ∃ ops, Run Exchange.Step (.start first) ops s.client
  clientSender : ∃ ops, Run Delivery.Step .start ops s.clientSender
  uplink : ∃ ops, Run Wire.Step .new ops s.uplink
  handler : ∃ ops, Run RequestHandler.Session.Step (.new duration) ops s.handler
  serverSender : ∃ ops, Run Delivery.Step .start ops s.serverSender
  downlink : ∃ ops, Run Wire.Step .new ops s.downlink
  server : Receiver.InSequence first size s.server
  calls : s.requests.length = s.client.numbers.length
  senderOpen : s.client.senderOpen = true → s.clientSender.stage ≠ .dropped
  queued : List.Forall₂ (Queued s.requests s.client.numbers) s.client.sent
    s.clientSender.pushed
  uploaded : s.uplink.written = s.clientSender.accepted
  written : s.client.written = s.clientSender.accepted.length
  read : s.server.2.messages <+: s.uplink.decoded
  errors : ∀ e, .error e ∈ s.server.2.answered →
    e = .io ∨ e = .unexpectedEOF ∨ s.uplink.failed = some e
  arrived : s.handler.arrived = s.server.2.forwarded
  answered : s.server.2.replies = [] →
    s.serverSender.pushed = s.responses.map .response
  downloaded : s.downlink.written = s.serverSender.accepted
  heard : s.heard.map .response <+: s.downlink.decoded
  results : s.client.Heard fun response =>
    response ∈ s.heard ∧ response.statusCode ≠ .standard .«continue»

variable {first : CSeq} {size : Nat} {duration : Option Nat} {s s' : Network URI URIError}
  {op : Op URI URIError}

theorem linked_start (first : CSeq) (size : Nat) (duration : Option Nat) :
    Linked first size duration (start first size duration : Network URI URIError) where
  client := ⟨[], .start⟩
  clientSender := ⟨[], .start⟩
  uplink := ⟨[], .start⟩
  handler := ⟨[], .start⟩
  serverSender := ⟨[], .start⟩
  downlink := ⟨[], .start⟩
  server := Receiver.inSequence_new first size
  calls := rfl
  senderOpen _ := nofun
  queued := .nil
  uploaded := rfl
  written := rfl
  read := List.prefix_rfl
  errors := nofun
  arrived := rfl
  answered _ := rfl
  downloaded := rfl
  heard := List.prefix_rfl
  results := Exchange.Heard.start first _

namespace Linked

/-- The client does something by itself. -/
theorem clientStep (hs : Linked first size duration s) {op : Exchange.Op} {c : Exchange}
    (hown : op.isOwn = true) (h : Exchange.Step s.client op c) :
    Linked first size duration { s with client := c } := by
  obtain ⟨hnumbers, hsent, hwritten, hopen⟩ := h.sameCalls hown
  obtain ⟨ops, hrun⟩ := hs.client
  refine { hs with
    client := ⟨_, hrun.snoc h⟩
    calls := hs.calls.trans (congrArg List.length hnumbers.symm)
    senderOpen := fun h => hs.senderOpen (hopen ▸ h)
    queued := ?_
    written := hwritten.trans hs.written
    results := hs.results.step h fun response heq => ?_ }
  · show List.Forall₂ (Queued s.requests c.numbers) c.sent s.clientSender.pushed
    rw [hsent, hnumbers]
    exact hs.queued
  · subst heq
    cases hown

/-- A call registers its request. -/
theorem call (hs : Linked first size duration s) {c : Exchange} (request : Request URI)
    (options : RequestOptions) (h : Exchange.Step s.client (.addPendingRequest options) c) :
    Linked first size duration
      { s with
        client := c
        requests := if s.client.phase = .closed then s.requests else s.requests ++ [request] } := by
  obtain ⟨ops, hrun⟩ := hs.client
  have hresults := hs.results.step h nofun
  have hclient := hrun.snoc h
  cases h with
  | addPendingRequest _ hlock hhandles =>
    split
    · next hclosed =>
      rw [if_pos hclosed] at hclient hresults
      exact hs
    · next hclosed =>
      rw [if_neg hclosed] at hclient hresults
      refine { hs with
        client := ⟨_, hclient⟩
        calls := ?_
        queued := hs.queued.imp fun n message hqueued => ?_
        results := hresults }
      · show (s.requests ++ [request]).length = (s.client.numbers ++ [_]).length
        rw [List.length_append, List.length_append, hs.calls]
        rfl
      · exact hqueued.append [request] _

/-- The request is numbered and given to the sender. -/
theorem queueMessage (hs : Linked first size duration s) {call : Call} {request : Request URI}
    {c : Exchange} {d : Delivery URI} (hcall : s.client.call = some call)
    (hrequest : s.requests[call.request]? = some request)
    (h : Exchange.Step s.client .queueMessage c)
    (hpush : Delivery.Step s.clientSender
      (.push (.request (request.withCSeq call.sequenceNumber))) d) :
    Linked first size duration { s with client := c, clientSender := d } := by
  obtain ⟨ops, hrun⟩ := hs.client
  obtain ⟨pushes, hsender⟩ := hs.clientSender
  have hledger := (Exchange.matches_run hrun).ledger
  have hresults := hs.results.step h nofun
  have hclient := hrun.snoc h
  have hdelivery := hsender.snoc hpush
  cases h with
  | @queueMessage call' hcall' _ hopen =>
    cases hcall.symm.trans hcall'
    cases hpush with
    | push message hhandles =>
      have hstage := hs.senderOpen hopen
      obtain ⟨hkept, hstaged, haccepted⟩ := s.clientSender.push_keeps
        (.request (request.withCSeq call.sequenceNumber))
      refine { hs with
        client := ⟨_, hclient⟩
        clientSender := ⟨_, hdelivery⟩
        senderOpen := fun _ => hstaged ▸ hstage
        queued := ?_
        uploaded := hs.uploaded.trans haccepted.symm
        written := hs.written.trans (congrArg List.length haccepted.symm)
        results := hresults }
      show List.Forall₂ (Queued s.requests s.client.numbers) (s.client.sent ++ [call.request]) _
      rw [Delivery.push_pushed hstage]
      refine List.rel_append hs.queued (.cons ?_ .nil)
      exact ⟨request, _, hrequest, (hledger.call call hcall).2.1, rfl⟩

/-- The sender's task of the client, or a handle on it, does something by itself. -/
theorem senderStep (hs : Linked first size duration s) {op : Delivery.Op URI} {d : Delivery URI}
    (hown : op.isOwn = true) (h : Delivery.Step s.clientSender op d)
    (haccepted : d.accepted = s.clientSender.accepted) :
    Linked first size duration { s with clientSender := d } := by
  obtain ⟨hpushed, hstage⟩ := h.own hown
  obtain ⟨ops, hrun⟩ := hs.clientSender
  exact { hs with
    clientSender := ⟨_, hrun.snoc h⟩
    senderOpen := fun hopen => hstage (hs.senderOpen hopen)
    queued := hpushed ▸ hs.queued
    uploaded := hs.uploaded.trans haccepted.symm
    written := hs.written.trans (congrArg List.length haccepted.symm) }

/-- The sink of the client accepts a request. -/
theorem write (hs : Linked first size duration s) {op : Delivery.Op URI} {c : Exchange}
    {d : Delivery URI} {message : Message URI} (hown : op.isOwn = true)
    (h : Delivery.Step s.clientSender op d)
    (haccepted : d.accepted = s.clientSender.accepted ++ [message])
    (hwrite : Exchange.Step s.client .write c) :
    Linked first size duration
      { s with client := c, clientSender := d, uplink := s.uplink.write [message] } := by
  obtain ⟨hpushed, hstage⟩ := h.own hown
  obtain ⟨ops, hrun⟩ := hs.clientSender
  obtain ⟨calls, hclient⟩ := hs.client
  obtain ⟨pieces, hwire⟩ := hs.uplink
  have hresults := hs.results.step hwrite nofun
  have hnext := hclient.snoc hwrite
  cases hwrite with
  | write =>
    refine { hs with
      client := ⟨_, hnext⟩
      clientSender := ⟨_, hrun.snoc h⟩
      uplink := ⟨_, hwire.snoc (.write [message])⟩
      senderOpen := fun hopen => hstage (hs.senderOpen hopen)
      queued := hpushed ▸ hs.queued
      uploaded := ?_
      written := ?_
      results := hresults }
    · show s.uplink.written ++ [message] = d.accepted
      rw [haccepted, hs.uploaded]
    · show s.client.written + 1 = d.accepted.length
      rw [haccepted, List.length_append, hs.written]
      rfl

/-- The connection of the client lets its sender go. -/
theorem closeSender (hs : Linked first size duration s) {c : Exchange} {d : Delivery URI}
    (h : Exchange.Step s.client .closeSender c) (hdrop : Delivery.Step s.clientSender .drop d) :
    Linked first size duration { s with client := c, clientSender := d } := by
  obtain ⟨ops, hrun⟩ := hs.clientSender
  obtain ⟨calls, hclient⟩ := hs.client
  have hresults := hs.results.step h nofun
  have hnext := hclient.snoc h
  have hdropped := hrun.snoc hdrop
  cases h with
  | closeSender =>
    cases hdrop with
    | drop =>
      exact { hs with
        client := ⟨_, hnext⟩, clientSender := ⟨_, hdropped⟩, senderOpen := nofun
        results := hresults }

/-- Bytes arrive at the server. -/
theorem uplinkStep (hs : Linked first size duration s) {chunk : Bytes} {w : Wire URI URIError}
    (h : Wire.Step s.uplink (.arrive chunk) w) :
    Linked first size duration { s with uplink := w } := by
  obtain ⟨ops, hrun⟩ := hs.uplink
  obtain ⟨hwritten, -, hdecoded, hfailed⟩ := h.arrived
  refine { hs with
    uplink := ⟨_, hrun.snoc h⟩
    uploaded := hwritten.trans hs.uploaded
    read := hs.read.trans hdecoded
    errors := fun e he => ?_ }
  rcases hs.errors e he with h | h | h
  · exact .inl h
  · exact .inr (.inl h)
  · rw [hfailed] at h
    cases h

/-- Bytes arrive at the client. -/
theorem downlinkStep (hs : Linked first size duration s) {chunk : Bytes} {w : Wire URI URIError}
    (h : Wire.Step s.downlink (.arrive chunk) w) :
    Linked first size duration { s with downlink := w } := by
  obtain ⟨ops, hrun⟩ := hs.downlink
  obtain ⟨hwritten, -, hdecoded, -⟩ := h.arrived
  exact { hs with
    downlink := ⟨_, hrun.snoc h⟩
    downloaded := hwritten.trans hs.downloaded
    heard := hs.heard.trans hdecoded }

/-- Messages are pushed by what has a handle on the server's sender, while it is there or when
    there are none. -/
theorem pushed (hs : Linked first size duration s) (messages : List (Message URI))
    (hhandles : messages = [] ∨ 0 < s.serverSender.handles) :
    (∃ ops, Run Delivery.Step .start ops (s.serverSender.pushAll messages)) ∧
      s.downlink.written = (s.serverSender.pushAll messages).accepted := by
  obtain ⟨ops, hrun⟩ := hs.serverSender
  exact ⟨⟨_, hrun.append (s.serverSender.run_pushAll hhandles)⟩,
    hs.downloaded.trans (s.serverSender.pushAll_keeps messages).2.2.symm⟩

/-- **The server's receiver is polled.** -/
theorem receive (hs : Linked first size duration s) (hsize : size < 2 ^ 32)
    {env : Receiver.Answers URI URIError} {a : Async Unit} {r : Receiver URI}
    {t : Receiver.Trace URI URIError} (hpoll : s.server.1.poll env = .ok (a, r, t))
    (hlistens : .closed ∉ env.handler) (hreads : Reads s t)
    (hincoming : t.forwarded = [] ∨ s.handler.handler.incomingEnded = false)
    (hhandles : t.replies = [] ∨ 0 < s.serverSender.handles) :
    Linked first size duration
      { s with
        server := (r, s.server.2.append t)
        handler := s.handler.arriveAll t.forwarded
        serverSender := s.serverSender.pushAll (t.replies.map .response) } := by
  obtain ⟨hdelivery, hdownloaded⟩ := hs.pushed (t.replies.map .response)
    (hhandles.imp_left fun hnone => by rw [hnone]; rfl)
  obtain ⟨polls, hrun⟩ := hs.handler
  refine { hs with
    handler := ⟨_, hrun.append (s.handler.run_arriveAll hincoming)⟩
    serverSender := hdelivery
    server := hs.server.poll hsize hpoll hlistens
    read := ?_
    errors := fun e he => ?_
    arrived := ?_
    answered := fun hnone => ?_
    downloaded := hdownloaded }
  · show (s.server.2.append t).messages <+: s.uplink.decoded
    rw [show (s.server.2.append t).messages = s.server.2.messages ++ t.messages from
      List.filterMap_append ..]
    exact hreads.messages
  · rcases List.mem_append.mp he with he | he
    · exact hs.errors e he
    · exact hreads.errors e he
  · show s.handler.arrived ++ t.forwarded = s.server.2.forwarded ++ t.forwarded
    rw [hs.arrived]
  · obtain ⟨hbefore, hnow⟩ :=
      List.append_eq_nil_iff.mp (hnone : s.server.2.replies ++ t.replies = [])
    rw [hnow]
    exact hs.answered hbefore

/-- **The server's handler is polled**, while its sender is there. -/
theorem serve (hs : Linked first size duration s) {env : RequestHandler.Answers}
    {h : RequestHandler.Session URI} {t : List (RequestHandler.Event URI)}
    (hstep : RequestHandler.Session.Step s.handler (.poll env) h)
    (hevents : h.events = s.handler.events ++ t) (hopen : s.serverSender.stage ≠ .dropped)
    (hhandles : t.filterMap (·.response?) = [] ∨ 0 < s.serverSender.handles) :
    Linked first size duration
      { s with
        handler := h
        serverSender := s.serverSender.pushAll ((t.filterMap (·.response?)).map .response) } := by
  obtain ⟨hdelivery, hdownloaded⟩ := hs.pushed
    ((t.filterMap (·.response?)).map .response)
    (hhandles.imp_left fun hnone => by rw [hnone]; rfl)
  obtain ⟨polls, hrun⟩ := hs.handler
  refine { hs with
    handler := ⟨_, hrun.snoc hstep⟩
    serverSender := hdelivery
    arrived := ?_
    answered := fun hnone => ?_
    downloaded := hdownloaded }
  · cases hstep
    exact hs.arrived
  · show (s.serverSender.pushAll _).pushed = (h.events.filterMap (·.response?)).map .response
    rw [Delivery.pushAll_pushed hopen, hs.answered hnone, hevents, List.filterMap_append,
      List.map_append]
    rfl

/-- **Every step keeps the links.** -/
theorem step (hs : Linked first size duration s) (hsize : size < 2 ^ 32) (h : Step s op s') :
    Linked first size duration s' := by
  cases h with
  | client hown hstep => exact hs.clientStep hown hstep
  | call request options hstep => exact hs.call request options hstep
  | queueMessage hcall hrequest hstep hpush => exact hs.queueMessage hcall hrequest hstep hpush
  | clientSender hown hstep haccepted => exact hs.senderStep hown hstep haccepted
  | write hown hstep haccepted hwrite => exact hs.write hown hstep haccepted hwrite
  | closeSender hstep hdrop => exact hs.closeSender hstep hdrop
  | uplink chunk hstep => exact hs.uplinkStep hstep
  | receive hpoll hlistens _ hreads hincoming hhandles =>
    exact hs.receive hsize hpoll hlistens hreads hincoming hhandles
  | shutdownRequestReceiver => exact { hs with server := hs.server.shutdownRequestReceiver }
  | endIncoming _ hstep =>
    obtain ⟨polls, hrun⟩ := hs.handler
    have hended := hrun.snoc hstep
    cases hstep with
    | endIncoming => exact { hs with handler := ⟨_, hended⟩ }
  | serve hstep hevents hopen hhandles => exact hs.serve hstep hevents hopen hhandles
  | serverSender hown hstep haccepted =>
    obtain ⟨ops, hrun⟩ := hs.serverSender
    obtain ⟨pieces, hwire⟩ := hs.downlink
    refine { hs with
      serverSender := ⟨_, hrun.snoc hstep⟩
      downlink := ⟨_, hwire.snoc (.write _)⟩
      answered := fun hnone => (hstep.own hown).1.trans (hs.answered hnone)
      downloaded := ?_ }
    rw [haccepted, ← hs.downloaded]
    rfl
  | dropServerSender hstep =>
    obtain ⟨ops, hrun⟩ := hs.serverSender
    have hdropped := hrun.snoc hstep
    cases hstep with
    | drop => exact { hs with serverSender := ⟨_, hdropped⟩ }
  | downlink chunk hstep => exact hs.downlinkStep hstep
  | @read response c hnext hstep =>
    obtain ⟨ops, hrun⟩ := hs.client
    have hresults : c.Heard fun r => r ∈ s.heard ++ [response] ∧
        r.statusCode ≠ .standard .«continue» := by
      refine (hs.results.mono fun r hr => ⟨List.mem_append_left _ hr.1, hr.2⟩).step hstep ?_
      rintro r heq hfinal
      cases heq
      exact ⟨List.mem_append_right _ (.head _), hfinal⟩
    have hclient := hrun.snoc hstep
    cases hstep with
    | respond =>
      refine { hs with client := ⟨_, hclient⟩, heard := ?_, results := hresults }
      show (s.heard ++ [response]).map .response <+: s.downlink.decoded
      rw [List.map_append]
      obtain ⟨hlt, hget⟩ := List.getElem?_eq_some_iff.mp hnext
      have hnext' := List.concat_get_prefix hs.heard (by rwa [List.length_map])
      simpa [hget] using hnext'

theorem of_run {ops : List (Op URI URIError)} (hsize : size < 2 ^ 32)
    (h : Run Step (start first size duration) ops s) : Linked first size duration s :=
  h.invariant (linked_start first size duration) fun _ _ _ hs hstep => hs.step hsize hstep

end Linked

end Network
end Rtsp
