import Rtsp.Connection.Serving.Account

/-!
# Requests are served in order

At any point of any session there is a right account of what has been done: for each
request in order of arrival all that belongs to it, from the call of the service to the
one final response, and the shutdown event at the very end (`served_inOrder`).
Everything that is sent about a request carries its number, and the next poll returns.

The service is free. It may answer at once, never, or with an error; it may be called
again only when it is done, since the handler serves one request at a time. When its
timer expires depends on the runtime, and so does how often.

Responses are queued with the sender here. That they are written, and in this order, is
for the sender and the connection to show.
-/

namespace Rtsp

open Lib

namespace RequestHandler

variable {URI URIError : Type}

section Requests

variable [RequestURI URI URIError]

namespace Session

/-- **A step of a session keeps its account right.** -/
theorem Step.accountable {s s' : Session URI} {op : Op URI} (hstep : Step s op s')
    (h : Accountable s.handler s.arrived s.events) :
    Accountable s'.handler s'.arrived s'.events := by
  cases hstep with
  | arrive cseq request hopen =>
    obtain ⟨k, hk⟩ := h
    refine ⟨k, ?_, hk.done, hk.serving, hk.idle, hk.events, hk.servicedRequest, hk.running, ?_⟩
    · rw [hk.arrived]
      simp
    · -- The channel has ended before the handler has.
      intro hfired
      rw [(hk.finished hfired).2.2.1] at hopen
      cases hopen
  | endIncoming =>
    obtain ⟨k, hk⟩ := h
    refine ⟨k, hk.arrived, hk.done, hk.serving, hk.idle, hk.events, hk.servicedRequest,
      hk.running, ?_⟩
    intro hfired
    obtain ⟨hnone, hincoming, -, hevent⟩ := hk.finished hfired
    exact ⟨hnone, hincoming, rfl, hevent⟩
  | poll hopen hpoll =>
    have hturns := poll_turns hpoll
    rw [hopen] at hturns
    exact hturns.accountable (by simpa using h)

/-- **Requests are served in order, each with exactly one final response.** At any point of
    any session there is a right account of what has been done; all that is sent about a
    request carries its number; and the next poll returns, as long as the runtime keeps its
    timers. -/
theorem served_inOrder {duration : Option Nat} {ops : List (Op URI)} {s : Session URI}
    (hrun : Run Step (Session.new duration) ops s) :
    (∃ k : Account URI, k.Right s.handler s.arrived s.events) ∧
      (∀ (x : CSeq × Request URI) events, Served x events ∨ InService x events →
        ∀ response, .enqueued response ∈ events → Carries response x.1) ∧
      ∀ env : Answers, .shutdown ∉ env.timer → ∃ out, s.handler.poll env = .ok out := by
  refine ⟨?_, ?_, fun env hanswers => poll_returns hanswers s.handler⟩
  · refine hrun.invariant (I := fun s => Accountable s.handler s.arrived s.events) ?_
      fun _ _ _ h hstep => hstep.accountable h
    exact ⟨⟨[], [], none, [], false⟩, rfl, .nil, nofun, fun _ => rfl, rfl, rfl,
      fun _ => ⟨rfl, rfl⟩, nofun⟩
  · rintro x events (hserved | hservice) response hmem
    · exact hserved.carries hmem
    · exact hservice.carries hmem

/-- A request, and a service that takes its time for it and then fails. -/
def request : Request AsteriskURI := ⟨[], .empty, .standard .setup, .asterisk, .rtsp2_0, rfl⟩

def waiting : Answers := ⟨true, [.notReady, .notReady], [.expired, .notReady]⟩

def failing : Answers := ⟨true, [.error], []⟩

/-- The service is called, the request is told to wait, and then that the server failed;
    behind it the handler shuts down. -/
theorem served_inOrder_failing :
    let cseq : CSeq := ⟨7, by decide⟩
    ∃ k : Account AsteriskURI, k.Right ⟨false, some 100, [], true, false, none, false⟩
      [(cseq, request)]
      [.called cseq request, .enqueued (CONTINUE_RESPONSE.withCSeq cseq),
        .enqueued (INTERNAL_SERVER_ERROR_RESPONSE.withCSeq cseq), .fired] := by
  let cseq : CSeq := ⟨7, by decide⟩
  let arrived : Session AsteriskURI :=
    ⟨⟨false, some 100, [(cseq, request)], true, true, none, true⟩, [(cseq, request)], []⟩
  let waited : Session AsteriskURI := ⟨⟨true, some 100, [], true, true, some cseq, true⟩,
    [(cseq, request)],
    [.called cseq request, .enqueued (CONTINUE_RESPONSE.withCSeq cseq)]⟩
  have harrived : Run Step (Session.new (some 100)) [.arrive cseq request, .endIncoming] arrived :=
    .snoc (.snoc .start (.arrive cseq request rfl)) .endIncoming
  have hwaited : Step arrived (.poll waiting) waited := .poll rfl rfl
  have hfailed : Step waited (.poll failing) ⟨⟨false, some 100, [], true, false, none, false⟩,
      [(cseq, request)], waited.events ++
        [.enqueued (INTERNAL_SERVER_ERROR_RESPONSE.withCSeq cseq), .fired]⟩ := .poll rfl rfl
  exact (served_inOrder ((harrived.snoc hwaited).snoc hfailed)).1

end Session

end Requests
end RequestHandler
end Rtsp
