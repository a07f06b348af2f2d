import Rtsp.Network.Quiet
import Rtsp.Server

/-!
# The server of the library

A server whose connections have the service of `server.rs`, which answers at once.
What its handler enqueues is then fixed by the request that was sent: it is turned
away, or it is answered by what the service makes of it, and of what it carries the
service only looks at what arrives as it was sent (`call_carried`).

The service looks at the method, at the URI and at one header (`Accept-Ranges`), and in
front of it the handler looks at the URI, the body and the `Content-Type`. None of these
is written on the way. So it can be said of the request as it was sent what it will be
answered, though it arrives changed.

Two more things have to be shown before the answer can be followed back. It must be
within the limits of the client's decoder (`sendable_reply`), which for `Public` depends
on how a set of methods is iterated, a parameter with a hypothesis; and the call must
return, which is up to `URI::normalize` alone and a hypothesis here.
-/

namespace Rtsp

open Lib Decoder Syntax

/-! ## What was sent is answered -/

namespace ConnectionService

variable [LinkedHashSetOps] {URI URIError : Type} [RequestURI URI URIError]
  {uris : ServiceURI URI} {sent arrived : Request URI}

/-- What the server makes of a request: it is turned away, or the service is called. -/
def answer (uris : ServiceURI URI) (request : Request URI) : Rust Response :=
  if RequestURI.isRtspu request.uri then .ok NOT_IMPLEMENTED_RESPONSE
  else if request.body ≠ [] ∧ request.headers.containsKey (.standard .contentType) = false then
    .ok BAD_REQUEST_RESPONSE
  else call uris request

/-- The service does not see what the library writes. -/
theorem call_carried (h : sent.Carried arrived) : call uris arrived = call uris sent := by
  have hranges : arrived.headers.typedTryGet AcceptRanges = sent.headers.typedTryGet AcceptRanges :=
    HeaderMap.typedTryGet_of_own h.headers (h := .acceptRanges) rfl rfl
  unfold call handleMethodOptions handleMethodSetup
  dsimp only
  rw [h.uri, h.method, hranges]

/-- **What arrives is answered as what was sent.** -/
theorem reply_carried {service : Request URI → Response}
    (hservice : ∀ request, call uris request = .ok (service request)) (h : sent.Carried arrived)
    (hbody : (arrived.headers.typedGet ContentLength).any (0 < ·.val) =
      decide (arrived.body ≠ [])) :
    answer uris sent = .ok (RequestHandler.reply service arrived) := by
  have htype := HeaderMap.containsKey_of_own h.headers (h := .contentType) rfl
  unfold answer RequestHandler.reply RequestHandler.rejection
  rw [hbody, h.uri, h.body, htype, ← call_carried h, hservice]
  split
  · rfl
  · by_cases hturned : sent.body ≠ [] ∧ sent.headers.containsKey (.standard .contentType) = false
    · rw [if_pos hturned, if_pos (by simp [hturned])]
      rfl
    · rw [if_neg hturned, if_neg (by simpa using hturned)]
      rfl

/-- Whatever the service makes is made of the URI that was normalized. -/
theorem call_answered {request : Request URI} {response : Response}
    (h : call uris request = .ok response) : ∃ asterisk, response = answered asterisk request := by
  cases hnormalize : uris.normalize request.uri with
  | error panic =>
    rw [call, hnormalize] at h
    cases h
  | ok uri =>
    rw [call_eq hnormalize] at h
    cases h
    exact ⟨_, rfl⟩

/-- What the service does not make is turned away. -/
theorem answer_cases {request : Request URI} {response : Response}
    (h : answer uris request = .ok response) :
    response = NOT_IMPLEMENTED_RESPONSE ∨ response = BAD_REQUEST_RESPONSE ∨
      ∃ asterisk, response = answered asterisk request := by
  unfold answer at h
  split at h
  · cases h
    exact .inl rfl
  · split at h
    · cases h
      exact .inr (.inl rfl)
    · exact .inr (.inr (call_answered h))

/-- Nobody is ever told to wait. -/
theorem answer_final {request : Request URI} {response : Response}
    (h : answer uris request = .ok response) : response.statusCode ≠ .standard .«continue» := by
  rcases answer_cases h with rfl | rfl | ⟨asterisk, rfl⟩
  · exact nofun
  · exact nofun
  · exact answered_final asterisk request

/-- A success lists the supported methods. -/
theorem answer_public (hops : LinkedHashSetOps.Lawful) {request : Request URI}
    {response : Response} (h : answer uris request = .ok response)
    (hok : response.statusCode = .standard .ok) :
    response.headers.typedTryGet Public = .ok (some supported) := by
  rcases answer_cases h with rfl | rfl | ⟨asterisk, rfl⟩
  · cases hok
  · cases hok
  · exact answered_public hops hok

end ConnectionService

/-! ## What is answered can be sent -/

namespace HeaderMap

/-- At most so many headers, each within the limits. -/
structure Short (count : Nat) (m : HeaderMap) : Prop where
  names : ∀ e ∈ m.entries, e.1.canonicalName.length ≤ 100
  values : ∀ e ∈ m.entries, e.2.text.length ≤ 1998
  starts : ∀ e ∈ m.entries, StartsWithText e.2.text
  count : m.valuesLen ≤ count

variable {m : HeaderMap} {count : Nat} {h : StandardHeader} {value : HeaderValue}

theorem short_empty : empty.Short 0 := ⟨nofun, nofun, nofun, Nat.le_refl _⟩

/-- What is written over may be one header more. -/
theorem Short.replace (hm : m.Short count) (hname : h.canonicalName.length ≤ 100)
    (hlength : value.text.length ≤ 1998) (hstarts : StartsWithText value.text) :
    ((m.remove (.standard h)).append (.standard h) value).Short (count + 1) := by
  have hkey := HeaderName.eqv_standard.mp ((m.remove (.standard h)).key_eqv (.standard h))
  have hentries : ∀ e ∈ ((m.remove (.standard h)).append (.standard h) value).entries,
      e ∈ m.entries ∨ e = (.standard h, value) := by
    intro e he
    rw [append_entries, hkey] at he
    exact (List.mem_append.mp he).imp (fun he => (List.mem_filter.mp he).1) List.mem_singleton.mp
  refine ⟨fun e he => ?_, fun e he => ?_, fun e he => ?_, ?_⟩
  · rcases hentries e he with he | rfl
    · exact hm.names e he
    · exact hname
  · rcases hentries e he with he | rfl
    · exact hm.values e he
    · exact hlength
  · rcases hentries e he with he | rfl
    · exact hm.starts e he
    · exact hstarts
  · rw [valuesLen, append_entries, List.length_append, List.length_singleton]
    exact Nat.succ_le_succ ((List.length_filter_le _ _).trans hm.count)

/-- A number is short. -/
theorem Short.number (hm : m.Short count) (c : CSeq) : (m.typedInsert c).Short (count + 1) := by
  have hlength : (toDecimal c.val).length ≤ 9 :=
    toDecimal_length_le (by decide) (Nat.lt_of_le_of_lt c.le_max (by decide))
  refine hm.replace (by decide) (hlength.trans (by decide)) fun b hb => ?_
  have hdigit := isDigit_of_mem_toDecimal _ b (List.mem_of_mem_head? hb)
  have htoken : isToken [b] = true := by simp [isToken, isTokenChar, hdigit]
  exact isSpaceOrTab_of_isToken htoken b (.head _)

theorem Short.sendable (hm : m.Short count) (hcount : count ≤ 63) : Sendable m [] where
  names := hm.names
  values := hm.values
  starts := hm.starts
  count := ((List.length_filter_le _ _).trans hm.count).trans hcount
  body := Nat.zero_le _

end HeaderMap

/-- A date that may be sent. -/
structure HeaderValue.IsShort (date : HeaderValue) : Prop where
  length : date.text.length ≤ 1998
  starts : StartsWithText date.text

namespace ConnectionService

/-- A response with few headers can be sent under any number. -/
theorem sendable_answerOf {URI URIError : Type} [RequestURI URI URIError] {date : HeaderValue}
    {headers : HeaderMap} {count : Nat} (hheaders : headers.Short count) (hcount : count ≤ 61)
    (hdate : date.IsShort) (status : StandardStatus) (cseq : CSeq) :
    (Sender.insertDate date
      (.response ((answerOf status headers).withCSeq cseq) : Message URI)).Sendable := by
  have hphrase : status.phrase.length ≤ 50 := by cases status <;> decide
  have hall := (hheaders.number cseq).replace (h := .date) (by decide) hdate.length hdate.starts
  exact ⟨hphrase, fun p hp => Option.some.inj hp, hall.sendable (by omega)⟩

variable [LinkedHashSetOps] {URI URIError : Type} [RequestURI URI URIError]
  {uris : ServiceURI URI} {service : Request URI → Response} {date : HeaderValue}

theorem short_supported (hops : LinkedHashSetOps.Lawful) :
    (HeaderMap.empty.typedInsert supported).Short 1 := by
  have htext : join (supported.methods.elements.map Method.asStr) = ascii "OPTIONS, SETUP" := by
    rw [supported_elements hops]
    rfl
  refine HeaderMap.short_empty.replace (by decide) ?_ ?_
  · show (join _).length ≤ 1998
    rw [htext]
    decide
  · show StartsWithText (join _)
    rw [htext]
    exact fun b hb => by cases hb; rfl

theorem short_acceptRanges : (HeaderMap.empty.typedInsert AcceptRanges.new).Short 1 :=
  HeaderMap.short_empty.replace (by decide) (Nat.zero_le _) fun _ hb => by cases hb

/-- **What the server answers can be sent.** -/
theorem sendable_reply (hops : LinkedHashSetOps.Lawful)
    (hservice : ∀ request, call uris request = .ok (service request)) (hdate : date.IsShort)
    (request : Request URI) (cseq : CSeq) : (Sender.insertDate date
      (.response ((RequestHandler.reply service request).withCSeq cseq) :
        Message URI)).Sendable := by
  have hempty : ∀ status, (Sender.insertDate date
      (.response ((answerOf status .empty).withCSeq cseq) : Message URI)).Sendable :=
    fun status => sendable_answerOf HeaderMap.short_empty (Nat.zero_le _) hdate status cseq
  unfold RequestHandler.reply RequestHandler.rejection
  split
  · exact hempty .notImplemented
  · split
    · exact hempty .badRequest
    · obtain ⟨asterisk, hanswered⟩ := call_answered (hservice request)
      rw [Option.getD_none, hanswered]
      unfold answered
      split
      · split
        · exact sendable_answerOf (short_supported hops) (by decide) hdate .ok cseq
        · exact hempty .notFound
      · split
        · exact sendable_answerOf short_acceptRanges (by decide) hdate _ cseq
        · exact hempty .badRequest
      · exact hempty .notImplemented

end ConnectionService

/-! ## The handler of the server -/

namespace RequestHandler.Prompt

variable {URI URIError : Type} [RequestURI URI URIError] {service : Request URI → Response}
  {s : Session URI}

theorem arriveAll (hs : Prompt service s) {requests : Forwarded URI}
    (h : requests = [] ∨ s.handler.incomingEnded = false) :
    Prompt service (s.arriveAll requests) := by
  obtain ⟨done, fired, harrived, hevents, hrunning, hfinished⟩ := hs.events
  refine ⟨hs.idle, done, fired, ?_, hevents, hrunning, fun hfired => ?_⟩
  · show s.arrived ++ requests = done ++ (s.handler.incoming ++ requests)
    rw [harrived, List.append_assoc]
  · obtain ⟨hincoming, hended, hevent⟩ := hfinished hfired
    have hnone : requests = [] := h.resolve_right (by rw [hended]; exact nofun)
    refine ⟨?_, hended, hevent⟩
    show s.handler.incoming ++ requests = []
    rw [hincoming, hnone, List.append_nil]

/-- A response is the answer to a request that has arrived. -/
theorem enqueued (hs : Prompt service s) {response : Response}
    (hmem : .enqueued response ∈ s.events) :
    ∃ (i : Nat) (e : CSeq × Request URI), s.arrived[i]? = some e ∧
      response = (reply service e.2).withCSeq e.1 := by
  obtain ⟨done, fired, harrived, hevents, -⟩ := hs.events
  rw [hevents, List.mem_append] at hmem
  rcases hmem with hmem | hmem
  · obtain ⟨e, he, hmem⟩ := List.mem_flatMap.mp hmem
    obtain ⟨i, hi, rfl⟩ := List.getElem_of_mem he
    refine ⟨i, done[i], ?_, ?_⟩
    · rw [harrived, List.getElem?_append_left hi, List.getElem?_eq_getElem hi]
    · rcases List.mem_append.mp hmem with hmem | hmem
      · split at hmem
        · cases List.mem_singleton.mp hmem
        · cases hmem
      · exact Event.enqueued.inj (List.mem_singleton.mp hmem)
  · split at hmem
    · cases List.mem_singleton.mp hmem
    · cases hmem

end RequestHandler.Prompt

namespace Network

variable {URI URIError : Type} [RequestURI URI URIError] {service : Request URI → Response}
  {first : CSeq} {size : Nat} {duration : Option Nat} {s s' : Network URI URIError}
  {op : Op URI URIError}

/-- The steps of two peers where the service answers at once. -/
def PromptStep (service : Request URI → Response) (s : Network URI URIError)
    (op : Op URI URIError) (s' : Network URI URIError) : Prop :=
  Step s op s' ∧
    ∀ env, op = .serve env → env.service = RequestHandler.answersOf service s.handler.handler

theorem PromptStep.prompt (h : PromptStep service s op s')
    (hs : RequestHandler.Prompt service s.handler) :
    RequestHandler.Prompt service s'.handler := by
  obtain ⟨hstep, hservice⟩ := h
  cases hstep with
  | receive _ _ _ _ hincoming _ => exact hs.arriveAll hincoming
  | endIncoming _ hended => exact hs.step ⟨hended, nofun⟩
  | serve hpoll _ _ _ =>
    refine hs.step ⟨hpoll, fun env heq => ?_⟩
    cases heq
    exact hservice _ rfl
  | _ => exact hs

theorem prompt_of_run {ops : List (Op URI URIError)}
    (h : Run (PromptStep service) (start first size duration) ops s) :
    RequestHandler.Prompt service s.handler :=
  h.invariant (I := fun s => RequestHandler.Prompt service s.handler) (.new service duration)
    fun _ _ _ hs hstep => hstep.prompt hs

variable [LinkedHashSetOps] {uris : ServiceURI URI}

/-- **A response under the number of a call is the answer to its request.** -/
theorem Linked.served (hs : Linked first size duration s)
    (hprompt : RequestHandler.Prompt service s.handler) (hlawful : RequestURI.Lawful URI)
    (hlimits : s.WithinLimits)
    (hservice : ∀ request, ConnectionService.call uris request = .ok (service request))
    {n : Nat} {enqueued : Response} (hmem : enqueued ∈ s.responses) (hn : n ∈ s.client.sent)
    (hnumber : s.client.IsFor n enqueued) :
    ∃ request answer, s.requests[n]? = some request ∧
      ConnectionService.answer uris request = .ok answer ∧ answer.Carried enqueued := by
  obtain ⟨event, hevent, hresponse⟩ := List.mem_filterMap.mp hmem
  cases event with
  | called => cases hresponse
  | fired => cases hresponse
  | enqueued =>
    cases hresponse
    obtain ⟨i, e, he, rfl⟩ := hprompt.enqueued hevent
    obtain ⟨c, hc, hget⟩ := hnumber
    have hsame : e.1 = c := Option.some.inj ((CSeq.typedGet_typedInsert _ _).symm.trans hget)
    subst hsame
    obtain ⟨-, harrives⟩ := hs.caller hlawful hlimits.up hlimits.few he hn hc
    obtain ⟨request, hrequest, hcarried⟩ := harrives.request
    exact ⟨request, _, hrequest, ConnectionService.reply_carried hservice hcarried harrives.hasBody,
      Response.carried_withCSeq _ _⟩

end Network
end Rtsp
