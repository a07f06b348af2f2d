import Rtsp.Lib.Follows
import Rtsp.Network.Linked

/-!
# Requests arrive

What the client's calls have sent goes through the sender, the sink, the network,
the decoders and the receiver to the handler of the server. Each is a channel
that keeps order, so the whole way is one: the handler gets, in order and once
each, the first of the requests sent, under the numbers that the calls gave them,
and the receiver turns none away (`requests_arrive`).

"The first of the requests sent" and not "the requests sent": at any moment some are on
their way, and a connection that is shut down leaves them there. That all of them arrive
is true once nothing is on its way (`Network.Quiet`), and only then.

Nothing is assumed about the server's service or about how often it is polled. The
limits are assumed of what was written, and the requests are fewer than the numbers.
-/

namespace Rtsp

open Lib

/-- Where nothing but requests is read. -/
theorem Receiver.Trace.messages_eq {URI URIError : Type} {t : Trace URI URIError}
    (h : ∀ m ∈ t.messages, ∃ request, m = .request request) :
    t.messages = t.requests.map .request := by
  unfold messages requests at *
  generalize t.answered = answered at h
  induction answered with
  | nil => rfl
  | cons answer answers ih =>
    cases answer with
    | message m =>
      obtain ⟨request, rfl⟩ := h m (.head _)
      have hrest := ih fun m' hm' => h m' (.tail _ hm')
      exact congrArg (Message.request request :: ·) hrest
    | notReady => exact ih h
    | ended => exact ih h
    | error _ => exact ih h

namespace Network

variable {URI URIError : Type} {s : Network URI URIError}

/-- The request of a call as it arrives under its number, with the length of its body. -/
structure Arrives (s : Network URI URIError) (n : Nat) (e : CSeq × Request URI) : Prop where
  number : s.client.numbers[n]? = some e.1
  request : ∃ request, s.requests[n]? = some request ∧ request.Carried e.2
  hasBody : (e.2.headers.typedGet ContentLength).any (0 < ·.val) = decide (e.2.body ≠ [])

/-- A request under the number that it carries. -/
def Arrives.Numbered (s : Network URI URIError) (n : Nat) (m : Message URI) : Prop :=
  ∃ c request, m = .request request ∧ s.Arrives n (c, request) ∧
    request.headers.typedGet CSeq = some c

variable [RequestURI URI URIError] {first : CSeq} {size : Nat} {duration : Option Nat}

/-- What is queued, dated, encoded and decoded. -/
theorem Queued.arrives {n : Nat} {queued dated : Message URI}
    (hqueued : Queued s.requests s.client.numbers n queued) (hdated : Sender.Dated queued dated)
    (hsendable : dated.Sendable) : Arrives.Numbered s n dated.received := by
  obtain ⟨request, c, hrequest, hnumber, rfl⟩ := hqueued
  obtain ⟨arrived, hreceived, hcarried, hsame⟩ := Request.carried_dated hdated
  refine ⟨c, arrived, hreceived, ⟨hnumber, ⟨request, hrequest, ?_⟩, ?_⟩, hsame.trans ?_⟩
  · exact (request.carried_withCSeq c).trans hcarried
  · exact Request.hasBody_received hreceived hsendable
  · exact CSeq.typedGet_typedInsert request.headers c

namespace Linked

/-- **What the server decodes are the first of the requests sent.** -/
theorem decodes (hs : Linked first size duration s) (hlawful : RequestURI.Lawful URI)
    (hsendable : ∀ m ∈ s.uplink.written, m.Sendable) :
    s.uplink.failed = none ∧
      Follows (Arrives.Numbered s) s.client.sent s.uplink.decoded := by
  obtain ⟨ops, hwire⟩ := hs.uplink
  obtain ⟨pushes, hdelivery⟩ := hs.clientSender
  obtain ⟨hfailed, hdecoded, -⟩ := Wire.decoded_of_run hlawful hwire hsendable
  have haccount : s.clientSender.Account :=
    hdelivery.invariant Delivery.account_start fun _ _ _ hd hstep => hd.step hstep
  have haccepted : Follows Sender.Dated s.clientSender.pushed s.uplink.written := by
    rw [hs.uploaded]
    exact haccount.accepted
  refine ⟨hfailed, ?_⟩
  have hway := ((Follows.of_forall₂ hs.queued).comp haccepted.with_mem).comp
    (Follows.of_map hdecoded)
  refine hway.imp ?_
  rintro n _ ⟨dated, ⟨queued, hqueued, hdated, hwritten⟩, rfl⟩
  exact hqueued.arrives hdated (hsendable dated hwritten)

/-- All that is read is a request. -/
theorem messages (hs : Linked first size duration s) (hlawful : RequestURI.Lawful URI)
    (hsendable : ∀ m ∈ s.uplink.written, m.Sendable) :
    s.server.2.messages = s.server.2.requests.map .request := by
  have hdecodes := (hs.decodes hlawful hsendable).2.of_shorter hs.read
  refine Receiver.Trace.messages_eq fun m hm => ?_
  obtain ⟨i, hi, rfl⟩ := List.getElem_of_mem hm
  obtain ⟨n, -, c, request, hrequest, -⟩ := hdecodes.source (List.getElem?_eq_getElem hi)
  exact ⟨request, hrequest⟩

/-- The requests that the server has read. -/
theorem reads (hs : Linked first size duration s) (hlawful : RequestURI.Lawful URI)
    (hsendable : ∀ m ∈ s.uplink.written, m.Sendable) {i : Nat} {request : Request URI}
    (hi : s.server.2.requests[i]? = some request) :
    ∃ n c, s.client.sent[i]? = some n ∧ s.Arrives n (c, request) ∧
      request.headers.typedGet CSeq = some c := by
  have hdecodes := (hs.decodes hlawful hsendable).2.of_shorter hs.read
  rw [hs.messages hlawful hsendable] at hdecodes
  have hmapped : (s.server.2.requests.map Message.request)[i]? = some (.request request) := by
    rw [List.getElem?_map, hi]
    rfl
  obtain ⟨n, hn, c, request', hrequest, harrives, hnumber⟩ := hdecodes.source hmapped
  cases hrequest
  exact ⟨n, c, hn, harrives, hnumber⟩

/-- **The server reads a counted stream.** -/
theorem counted (hs : Linked first size duration s) (hlawful : RequestURI.Lawful URI)
    (hsendable : ∀ m ∈ s.uplink.written, m.Sendable) (hfew : s.client.sent.length < 10 ^ 9) :
    s.server.2.Counted first where
  numbers i request hi := by
    obtain ⟨ops, hclient⟩ := hs.client
    obtain ⟨n, c, hn, harrives, hnumber⟩ := hs.reads hlawful hsendable hi
    -- The call in this place has been given the number of the place.
    have hissued : s.client.issued[i]? = some n := by
      rw [Exchange.issued, List.getElem?_append_left (List.getElem?_eq_some_iff.mp hn).1, hn]
    have hplace := (Exchange.matches_run hclient).numbered.issued i n hissued
    rw [harrives.number] at hplace
    rw [hnumber, hplace]
  few := by
    refine Nat.lt_of_le_of_lt ?_ hfew
    cases hlast : s.server.2.requests.length with
    | zero => exact Nat.zero_le _
    | succ i =>
      have hi : i < s.server.2.requests.length := by rw [hlast]; exact Nat.lt_succ_self i
      obtain ⟨n, -, hn, -⟩ := hs.reads hlawful hsendable (List.getElem?_eq_getElem hi)
      exact (List.getElem?_eq_some_iff.mp hn).1
  errors e he := by
    have hfailed := (hs.decodes hlawful hsendable).1
    rcases hs.errors e he with rfl | rfl | h
    · rfl
    · rfl
    · rw [hfailed] at h
      cases h

/-- **What the handler gets are the first of the requests sent.** -/
theorem follows (hs : Linked first size duration s) (hlawful : RequestURI.Lawful URI)
    (hsendable : ∀ m ∈ s.uplink.written, m.Sendable) (hfew : s.client.sent.length < 10 ^ 9) :
    Follows s.Arrives s.client.sent s.handler.arrived := by
  have hcounted := hs.counted hlawful hsendable hfew
  have hsequence := hs.server.sequence hcounted
  have hforwarded := hsequence.forwarded hcounted hs.server.books
  rw [hs.arrived]
  refine Follows.of_shorter (Follows.of_source fun i e he => ?_) hforwarded
  rw [hsequence.accepted, List.getElem?_mapIdx] at he
  obtain ⟨request, hrequest, rfl⟩ := Option.map_eq_some_iff.mp he
  obtain ⟨more, hmore⟩ := hsequence.handled
  have hread : s.server.2.requests[i]? = some request := by
    rw [← hmore, List.getElem?_append_left (List.getElem?_eq_some_iff.mp hrequest).1, hrequest]
  obtain ⟨n, c, hn, harrives, hnumber⟩ := hs.reads hlawful hsendable hread
  have hplace := hcounted.numbers i request hread
  rw [hnumber] at hplace
  exact ⟨n, hn, Option.some.inj hplace ▸ harrives⟩

end Linked

end Network
end Rtsp
