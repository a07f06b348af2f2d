import Rtsp.Network.Requests

/-!
# Responses return

What the handler of the server enqueues goes back through the other sender, the
other sink, the network and the decoders to the client's response receiver, which
gives it to the future that waits under its number. So whatever a call of the
client returns is what the handler of the server answered last to the request of
that very call (`answers_return`).

The future has the response by its number, and the server has answered by the number of
the request; that the two are the same request is because no number is used twice, and
this is where the bound of 10^9 requests comes in.

Continue responses come back as well, any number of them, in front of the final one. A
call does not return them, so they are not in the result, but they are in the stream,
and "the last that the handler enqueued about the request" is said with them in mind.

It is safety only: a response that is returned is the right one. Whether there is one is
for `Network.Quiet`.
-/

namespace Rtsp

open Lib

namespace RequestHandler

variable {URI URIError : Type} [RequestURI URI URIError] {x : CSeq × Request URI}
  {events : List (Event URI)} {response : Response}

theorem InService.waits (h : InService x events) (hmem : .enqueued response ∈ events) :
    response.statusCode = .standard .«continue» := by
  cases h with
  | called n _ =>
    rcases List.mem_cons.mp hmem with heq | hmem
    · cases heq
    · rw [Event.enqueued.inj (List.eq_of_mem_replicate hmem)]
      rfl

/-- A response that does not tell to wait is the last of all about its request. -/
theorem Served.final (h : Served x events) (hmem : .enqueued response ∈ events)
    (hfinal : response.statusCode ≠ .standard .«continue») :
    events.getLast? = some (.enqueued response) := by
  cases h with
  | rejected _ =>
    rw [List.mem_singleton.mp hmem]
    rfl
  | responded last hservice =>
    rcases List.mem_append.mp hmem with hmem | hmem
    · exact absurd (hservice.waits hmem) hfinal
    · rw [List.mem_singleton.mp hmem]
      exact List.getLast?_concat

/-- The `i`-th request that the handler is done with, and the last response about it. -/
structure Account.Ends (k : Account URI) (i : Nat) (e : CSeq × Request URI)
    (final : Response) : Prop where
  done : k.done[i]? = some e
  served : ∃ about, k.served[i]? = some about ∧ Served e about ∧
    about.getLast? = some (.enqueued final)

/-- **A final response is the last about one of the requests done with.** -/
theorem Account.Right.final {k : Account URI} {r : RequestHandler URI}
    {arrived : List (CSeq × Request URI)} (hk : k.Right r arrived events)
    (hmem : .enqueued response ∈ events)
    (hfinal : response.statusCode ≠ .standard .«continue») :
    ∃ (i : Nat) (e : CSeq × Request URI), arrived[i]? = some e ∧ k.Ends i e response ∧
      Carries response e.1 := by
  have hdone : .enqueued response ∈ k.served.flatten := by
    rw [hk.events, List.mem_append, List.mem_append] at hmem
    rcases hmem with (hmem | hmem) | hmem
    · exact hmem
    · cases hserving : k.serving with
      | none =>
        rw [hk.idle hserving] at hmem
        cases hmem
      | some x => exact absurd ((hk.serving x hserving).waits hmem) hfinal
    · split at hmem
      · cases List.mem_singleton.mp hmem
      · cases hmem
  obtain ⟨about, habout, hmem⟩ := List.mem_flatten.mp hdone
  obtain ⟨i, hi, rfl⟩ := List.getElem_of_mem habout
  have hi' : i < k.done.length := hk.done.length_eq ▸ hi
  have hserved : Served k.done[i] k.served[i] := hk.done.get hi' hi
  have hends : k.Ends i k.done[i] response := ⟨List.getElem?_eq_getElem hi', _,
    List.getElem?_eq_getElem hi, hserved, hserved.final hmem hfinal⟩
  refine ⟨i, k.done[i], ?_, hends, hserved.carries hmem⟩
  rw [hk.arrived, List.append_assoc, List.getElem?_append_left hi', List.getElem?_eq_getElem hi']

/-- There is a right account of every session. -/
theorem Session.accountable_run {duration : Option Nat} {ops : List (Session.Op URI)}
    {s : Session URI} (h : Run Session.Step (Session.new duration) ops s) :
    Accountable s.handler s.arrived s.events := by
  refine h.invariant (I := fun s => Accountable s.handler s.arrived s.events) ?_
    fun _ _ _ hs hstep => hstep.accountable hs
  exact ⟨⟨[], [], none, [], false⟩, rfl, .nil, nofun, fun _ => rfl, rfl, rfl,
    fun _ => ⟨rfl, rfl⟩, nofun⟩

end RequestHandler

namespace Network

variable {URI URIError : Type} [RequestURI URI URIError] {first : CSeq} {size : Nat}
  {duration : Option Nat} {s : Network URI URIError}

/-- A response as it is enqueued, and as it is read. -/
structure Returns (enqueued response : Response) : Prop where
  carried : enqueued.Carried response
  number : SameCSeq enqueued.headers response.headers

/-- What is promised of the messages so far: they are within the default limits of a decoder, and
    there are fewer requests than numbers. -/
structure WithinLimits (s : Network URI URIError) : Prop where
  up : ∀ m ∈ s.uplink.written, m.Sendable
  down : ∀ m ∈ s.downlink.written, m.Sendable
  few : s.client.sent.length < 10 ^ 9

namespace Linked

/-- **What the client reads are the first of the responses enqueued.** -/
theorem hears (hs : Linked first size duration s) (hlawful : RequestURI.Lawful URI)
    (hsendable : ∀ m ∈ s.downlink.written, m.Sendable) (hreplies : s.server.2.replies = []) :
    Follows Returns s.responses s.heard := by
  obtain ⟨ops, hwire⟩ := hs.downlink
  obtain ⟨pushes, hdelivery⟩ := hs.serverSender
  obtain ⟨-, hdecoded, -⟩ := Wire.decoded_of_run hlawful hwire hsendable
  have haccount : s.serverSender.Account :=
    hdelivery.invariant Delivery.account_start fun _ _ _ hd hstep => hd.step hstep
  have haccepted : Follows Sender.Dated (s.responses.map .response) s.downlink.written := by
    rw [hs.downloaded, ← hs.answered hreplies]
    exact haccount.accepted
  have hway := (haccepted.comp (Follows.of_map hdecoded)).of_shorter hs.heard
  refine Follows.of_source fun j response hj => ?_
  have hmapped : (s.heard.map (@Message.response URI))[j]? = some (.response response) := by
    rw [List.getElem?_map, hj]
    rfl
  obtain ⟨m, hm, dated, hdated, hreceived⟩ := hway.source hmapped
  rw [List.getElem?_map] at hm
  obtain ⟨enqueued, henqueued, rfl⟩ := Option.map_eq_some_iff.mp hm
  obtain ⟨arrived, harrived, hcarried, hsame⟩ := Response.carried_dated hdated
  cases hreceived.trans harrived
  exact ⟨enqueued, henqueued, hcarried, hsame⟩

/-- The call that a final response goes to by its number. -/
theorem caller (hs : Linked first size duration s) (hlawful : RequestURI.Lawful URI)
    (hup : ∀ m ∈ s.uplink.written, m.Sendable) (hfew : s.client.sent.length < 10 ^ 9)
    {i n : Nat} {e : CSeq × Request URI} (he : s.handler.arrived[i]? = some e)
    (hn : n ∈ s.client.sent) (hnumber : s.client.numbers[n]? = some e.1) :
    s.client.sent[i]? = some n ∧ s.Arrives n e := by
  obtain ⟨ops, hclient⟩ := hs.client
  obtain ⟨m, hm, harrives⟩ := (hs.follows hlawful hup hfew).source he
  have hmem : m ∈ s.client.sent := List.mem_of_getElem? hm
  have hsame : n = m := (Exchange.matches_run hclient).numbered.unique hfew
    (List.mem_append_left _ hn) (List.mem_append_left _ hmem)
    (hnumber.trans harrives.number.symm)
  subst hsame
  exact ⟨hm, harrives⟩

/-- The handler has a right account, and there was nothing for the receiver to reply to. -/
theorem accountable (hs : Linked first size duration s) :
    RequestHandler.Accountable s.handler.handler s.handler.arrived s.handler.events := by
  obtain ⟨polls, hhandler⟩ := hs.handler
  exact RequestHandler.Session.accountable_run hhandler

theorem replies (hs : Linked first size duration s) (hlawful : RequestURI.Lawful URI)
    (hlimits : s.WithinLimits) : s.server.2.replies = [] :=
  (hs.server.sequence (hs.counted hlawful hlimits.up hlimits.few)).replies

/-- **Where a final response that was read comes from.** -/
theorem origin (hs : Linked first size duration s) (hlawful : RequestURI.Lawful URI)
    (hlimits : s.WithinLimits) {k : RequestHandler.Account URI}
    (hk : k.Right s.handler.handler s.handler.arrived s.handler.events) {response : Response}
    (hheard : response ∈ s.heard) (hfinal : response.statusCode ≠ .standard .«continue») :
    ∃ (i : Nat) (e : CSeq × Request URI) (final : Response), s.handler.arrived[i]? = some e ∧
      k.Ends i e final ∧ final.Carried response ∧
      response.headers.typedGet CSeq = some e.1 := by
  obtain ⟨j, hj, rfl⟩ := List.getElem_of_mem hheard
  obtain ⟨enqueued, henqueued, hreturns⟩ :=
    (hs.hears hlawful hlimits.down (hs.replies hlawful hlimits)).source
      (List.getElem?_eq_getElem hj)
  have hevent : .enqueued enqueued ∈ s.handler.events := by
    obtain ⟨event, hevent, hsome⟩ := List.mem_filterMap.mp (List.mem_of_getElem? henqueued)
    cases event with
    | enqueued response =>
      cases hsome
      exact hevent
    | called => cases hsome
    | fired => cases hsome
  rw [hreturns.carried.statusCode] at hfinal
  obtain ⟨i, e, harrived, hends, hcarries⟩ := hk.final hevent hfinal
  exact ⟨i, e, enqueued, harrived, hends, hreturns.carried, hreturns.number.trans hcarries⟩

/-- **A final response that was read is the answer to the request under its number.** -/
theorem answer (hs : Linked first size duration s) (hlawful : RequestURI.Lawful URI)
    (hlimits : s.WithinLimits) {k : RequestHandler.Account URI}
    (hk : k.Right s.handler.handler s.handler.arrived s.handler.events) {n : Nat}
    {response : Response} (hheard : response ∈ s.heard)
    (hfinal : response.statusCode ≠ .standard .«continue») (hn : n ∈ s.client.sent)
    (hnumber : s.client.IsFor n response) :
    ∃ i e final, s.client.sent[i]? = some n ∧ s.Arrives n e ∧ k.Ends i e final ∧
      final.Carried response := by
  obtain ⟨i, e, final, harrived, hends, hcarried, hget⟩ :=
    hs.origin hlawful hlimits hk hheard hfinal
  obtain ⟨c, hnumber, hget'⟩ := hnumber
  have hsame : c = e.1 := Option.some.inj (hget'.symm.trans hget)
  obtain ⟨hi, harrives⟩ := hs.caller hlawful hlimits.up hlimits.few harrived hn (hsame ▸ hnumber)
  exact ⟨i, e, final, hi, harrives, hends, hcarried⟩

end Linked

end Network
end Rtsp
