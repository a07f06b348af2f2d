import Rtsp.Connection.Serving.Turns
import Rtsp.Lib.Trans
import Mathlib.Data.List.Forall2

/-!
# The account of a session

The events of a session in order are a flat list: calls of the service, responses that
were queued, and the shutdown event. An `Account` divides it among the requests. It is
right if its requests are those that have arrived, in that order, and the events are
those of the requests that are done with, one after the other, then of the one in
service, and at the very end the shutdown event.

To say it so, rather than by counting responses, is what makes "in order" and "exactly
one" the same statement: `Served` has one final response in it, and `InService` has
none.

`Session` keeps what has arrived and what has happened, for the statement's sake. Its
steps have the sender open. Once the sender is gone, nobody gets a response and there is
nothing to account for; the handler goes on, and what it does then is in `Turn` but not
here.
-/

namespace Rtsp

open Lib

namespace RequestHandler

variable {URI URIError : Type}

/-- A handler with the requests that have arrived, and all that it has done. -/
structure Session (URI : Type) where
  handler : RequestHandler URI
  arrived : List (CSeq × Request URI)
  events : List (Event URI)

namespace Session

/-- What happens to a handler: requests arrive until the receiver lets the channel go, and
    it is polled. -/
inductive Op (URI : Type) where
  | arrive (cseq : CSeq) (request : Request URI)
  | endIncoming
  | poll (env : Answers)

def new (continueWaitDuration : Option Nat) : Session URI := ⟨.new continueWaitDuration, [], []⟩

/-- The steps of a session, as long as the sender is there. -/
inductive Step [RequestURI URI URIError] : Session URI → Op URI → Session URI → Prop where
  | arrive {s : Session URI} (cseq : CSeq) (request : Request URI) :
      s.handler.incomingEnded = false →
      Step s (.arrive cseq request)
        { s with
          handler := { s.handler with incoming := s.handler.incoming ++ [(cseq, request)] }
          arrived := s.arrived ++ [(cseq, request)] }
  | endIncoming {s : Session URI} :
      Step s .endIncoming { s with handler := { s.handler with incomingEnded := true } }
  | poll {s : Session URI} {env : Answers} {a h t} : env.senderOpen = true →
      s.handler.poll env = .ok (a, h, t) →
      Step s (.poll env) { s with handler := h, events := s.events ++ t }

end Session

/-! ## What is done for a request -/

/-- A response that carries a sequence number, and no other. -/
def Carries (response : Response) (cseq : CSeq) : Prop :=
  response.headers.typedGet CSeq = some cseq

theorem carries_withCSeq (response : Response) (cseq : CSeq) :
    Carries (response.withCSeq cseq) cseq :=
  CSeq.typedGet_typedInsert response.headers cseq

section Requests

variable [RequestURI URI URIError]

/-- All about a request in service: the call, and any number of 100 (Continue) responses. -/
inductive InService : CSeq × Request URI → List (Event URI) → Prop where
  | called {cseq request} (n : Nat) : rejection request = none →
      InService (cseq, request) (.called cseq request ::
        List.replicate n (.enqueued (CONTINUE_RESPONSE.withCSeq cseq)))

/-- All about a request that is done with: its rejection, or what was done in service and
    the final response. -/
inductive Served : CSeq × Request URI → List (Event URI) → Prop where
  | rejected {cseq request response} : rejection request = some response →
      Served (cseq, request) [.enqueued (response.withCSeq cseq)]
  | responded {cseq request events} (response : Response) : InService (cseq, request) events →
      Served (cseq, request) (events ++ [.enqueued (response.withCSeq cseq)])

/-- A request in service may be told once more to wait. -/
theorem InService.continue {x : CSeq × Request URI} {events : List (Event URI)}
    (h : InService x events) :
    InService x (events ++ [.enqueued (CONTINUE_RESPONSE.withCSeq x.1)]) := by
  cases h with
  | called n hrejection =>
    rw [List.cons_append, ← List.replicate_succ']
    exact .called (n + 1) hrejection

theorem InService.carries {x : CSeq × Request URI} {events : List (Event URI)}
    (h : InService x events) {response : Response} (hmem : .enqueued response ∈ events) :
    Carries response x.1 := by
  cases h with
  | @called cseq request n _ =>
    rcases List.mem_cons.mp hmem with heq | hmem
    · cases heq
    · rw [Event.enqueued.inj (List.eq_of_mem_replicate hmem)]
      exact carries_withCSeq _ cseq

/-- **All that is sent about a request carries its number.** -/
theorem Served.carries {x : CSeq × Request URI} {events : List (Event URI)}
    (h : Served x events) {response : Response} (hmem : .enqueued response ∈ events) :
    Carries response x.1 := by
  cases h with
  | @rejected cseq request response' _ =>
    rw [Event.enqueued.inj (List.mem_singleton.mp hmem)]
    exact carries_withCSeq _ cseq
  | @responded cseq request events final hservice =>
    rcases List.mem_append.mp hmem with hmem | hmem
    · exact hservice.carries hmem
    · rw [Event.enqueued.inj (List.mem_singleton.mp hmem)]
      exact carries_withCSeq _ cseq

/-! ## The account of a session -/

/-- What the events of a session are, request by request. -/
structure Account (URI : Type) where
  done : List (CSeq × Request URI)
  served : List (List (Event URI))
  serving : Option (CSeq × Request URI)
  current : List (Event URI)
  fired : Bool

/-- **An account is right**: its requests, and those still in the channel, are the ones that
    arrived; and the events are those of the requests done with, of the one in service, and
    the shutdown event once there is nothing left to do. -/
structure Account.Right (k : Account URI) (r : RequestHandler URI)
    (arrived : List (CSeq × Request URI)) (events : List (Event URI)) : Prop where
  arrived : arrived = k.done ++ k.serving.toList ++ r.incoming
  done : List.Forall₂ Served k.done k.served
  serving : ∀ x, k.serving = some x → InService x k.current
  idle : k.serving = none → k.current = []
  events : events = k.served.flatten ++ k.current ++ if k.fired then [.fired] else []
  servicedRequest : r.servicedRequest = k.serving.map (·.1)
  running : k.fired = false → r.senderHandle = true ∧ r.txShutdownEvent = true
  finished : k.fired = true → k.serving = none ∧ r.incoming = [] ∧ r.incomingEnded = true ∧
    r.txShutdownEvent = false

variable {r r' : RequestHandler URI} {arrived : List (CSeq × Request URI)}
  {e t t' : List (Event URI)}

theorem sendResponse_of_running (hr : r.senderHandle = true) (cseq : CSeq) (response : Response) :
    sendResponse true cseq response (r, t) = (r, t ++ [.enqueued (response.withCSeq cseq)]) := by
  rw [sendResponse, if_pos hr, if_pos rfl]

namespace Account.Right

variable {k : Account URI}

/-- With a request in service, or one to come, the handler is running. -/
theorem running_of_serving (h : k.Right r arrived e) {cseq : CSeq}
    (hs : r.servicedRequest = some cseq) : k.fired = false := by
  apply Bool.eq_false_iff.mpr
  intro hfired
  rw [h.servicedRequest, (h.finished hfired).1] at hs
  cases hs

theorem running_of_incoming (h : k.Right r arrived e) {x : CSeq × Request URI}
    {incoming : List (CSeq × Request URI)} (hs : r.incoming = x :: incoming) :
    k.fired = false := by
  apply Bool.eq_false_iff.mpr
  intro hfired
  rw [(h.finished hfired).2.1] at hs
  cases hs

/-- The request in service. -/
theorem exists_serving (h : k.Right r arrived e) {cseq : CSeq}
    (hs : r.servicedRequest = some cseq) :
    ∃ request, k.serving = some (cseq, request) ∧ InService (cseq, request) k.current := by
  rw [h.servicedRequest] at hs
  obtain ⟨⟨cseq', request⟩, hserving, rfl⟩ := Option.map_eq_some_iff.mp hs
  exact ⟨request, hserving, h.serving _ hserving⟩

theorem serving_eq_none (h : k.Right r arrived e) (hs : r.servicedRequest = none) :
    k.serving = none := by
  rw [h.servicedRequest] at hs
  exact Option.map_eq_none_iff.mp hs

/-- The timer does not matter to the account. -/
theorem timer (h : k.Right r arrived e) (b : Bool) :
    k.Right { r with continueTimer := b } arrived e :=
  ⟨h.arrived, h.done, h.serving, h.idle, h.events, h.servicedRequest, h.running, h.finished⟩

/-- The request in service is told to wait. -/
theorem «continue» (h : k.Right r arrived e) {x : CSeq × Request URI} (hx : k.serving = some x) :
    Account.Right
      { k with current := k.current ++ [.enqueued (CONTINUE_RESPONSE.withCSeq x.1)] } r arrived
      (e ++ [.enqueued (CONTINUE_RESPONSE.withCSeq x.1)]) := by
  have hrunning : k.fired = false := by
    apply h.running_of_serving
    rw [h.servicedRequest, hx]
    rfl
  refine ⟨h.arrived, h.done, ?_, ?_, ?_, h.servicedRequest, h.running, h.finished⟩
  · intro y hy
    obtain rfl : x = y := Option.some.inj (hx.symm.trans hy)
    exact (h.serving x hx).continue
  · intro hnone
    rw [show k.serving = none from hnone] at hx
    cases hx
  · rw [h.events]
    simp [hrunning]

/-- The request in service gets its final response. -/
theorem respond (h : k.Right r arrived e) {x : CSeq × Request URI} (hx : k.serving = some x)
    (response : Response) (b : Bool) :
    Account.Right
      { k with
        done := k.done ++ [x]
        served := k.served ++ [k.current ++ [.enqueued (response.withCSeq x.1)]]
        serving := none
        current := [] }
      { r with continueTimer := b, servicedRequest := none } arrived
      (e ++ [.enqueued (response.withCSeq x.1)]) := by
  have hrunning : k.fired = false := by
    apply h.running_of_serving
    rw [h.servicedRequest, hx]
    rfl
  have hlast : Served x (k.current ++ [.enqueued (response.withCSeq x.1)]) :=
    .responded response (h.serving x hx)
  refine ⟨?_, ?_, nofun, fun _ => rfl, ?_, rfl, h.running, ?_⟩
  · rw [h.arrived, hx]
    simp
  · exact List.rel_append h.done (.cons hlast .nil)
  · rw [h.events]
    simp [hrunning]
  · intro hfired
    rw [show k.fired = true from hfired] at hrunning
    cases hrunning

/-- The next request is rejected. -/
theorem reject (h : k.Right r arrived e) {x : CSeq × Request URI}
    {incoming : List (CSeq × Request URI)} {response : Response} (hs : r.servicedRequest = none)
    (hx : r.incoming = x :: incoming) (hrejected : rejection x.2 = some response) :
    Account.Right
      { k with
        done := k.done ++ [x]
        served := k.served ++ [[.enqueued (response.withCSeq x.1)]] }
      { r with incoming } arrived (e ++ [.enqueued (response.withCSeq x.1)]) := by
  have hrunning := h.running_of_incoming hx
  have hnone := h.serving_eq_none hs
  refine ⟨?_, ?_, h.serving, h.idle, ?_, h.servicedRequest, h.running, ?_⟩
  · rw [h.arrived, hx, hnone]
    simp
  · exact List.rel_append h.done (.cons (.rejected hrejected) .nil)
  · rw [h.events, h.idle hnone]
    simp [hrunning]
  · intro hfired
    rw [show k.fired = true from hfired] at hrunning
    cases hrunning

/-- The service is called with the next request. -/
theorem call (h : k.Right r arrived e) {x : CSeq × Request URI}
    {incoming : List (CSeq × Request URI)} (hs : r.servicedRequest = none)
    (hx : r.incoming = x :: incoming) (hrejection : rejection x.2 = none) (b : Bool) :
    Account.Right { k with serving := some x, current := [.called x.1 x.2] }
      { r with continueTimer := b, incoming, servicedRequest := some x.1 } arrived
      (e ++ [.called x.1 x.2]) := by
  have hrunning := h.running_of_incoming hx
  have hnone := h.serving_eq_none hs
  refine ⟨?_, h.done, ?_, nofun, ?_, rfl, h.running, ?_⟩
  · rw [h.arrived, hx, hnone]
    simp
  · intro y hy
    obtain rfl : x = y := Option.some.inj hy
    exact .called 0 hrejection
  · rw [h.events, h.idle hnone]
    simp [hrunning]
  · intro hfired
    rw [show k.fired = true from hfired] at hrunning
    cases hrunning

/-- The handler shuts down. -/
theorem shutdown (h : k.Right r arrived e) (hs : r.servicedRequest = none)
    (hincoming : r.incoming = []) (hended : r.incomingEnded = true) :
    Account.Right { k with fired := true }
      { r with
        continueTimer := false, senderHandle := false, servicedRequest := none
        txShutdownEvent := false } arrived (e ++ if r.txShutdownEvent then [.fired] else []) := by
  have hnone := h.serving_eq_none hs
  refine ⟨h.arrived, h.done, h.serving, h.idle, ?_, ?_, nofun, ?_⟩
  · -- The event is sent once.
    rw [h.events]
    cases hfired : k.fired with
    | false => simp [(h.running hfired).2]
    | true => simp [(h.finished hfired).2.2.2]
  · rw [hnone]
    rfl
  · exact fun _ => ⟨hnone, hincoming, hended, rfl⟩

end Account.Right

/-- There is a right account. -/
def Accountable (r : RequestHandler URI) (arrived : List (CSeq × Request URI))
    (events : List (Event URI)) : Prop := ∃ k : Account URI, k.Right r arrived events

/-- **A turn keeps the account right**, as long as the sender is there. -/
theorem Turn.accountable {s s' : State URI} (hturn : Turn true s s')
    (h : Accountable s.1 arrived (e ++ s.2)) : Accountable s'.1 arrived (e ++ s'.2) := by
  obtain ⟨k, hk⟩ := h
  cases hturn with
  | @expire r t r' t' cseq hs _ hsent =>
    obtain ⟨request, hserving, -⟩ := hk.exists_serving hs
    rw [sendResponse_of_running (hk.running (hk.running_of_serving hs)).1] at hsent
    cases hsent
    rw [resetContinueTimer_eq, ← List.append_assoc]
    exact ⟨_, (hk.continue hserving).timer _⟩
  | @shed r t => exact ⟨k, hk.timer false⟩
  | @respond r t cseq response hs =>
    obtain ⟨request, hserving, -⟩ := hk.exists_serving hs
    rw [RequestHandler.respond,
      sendResponse_of_running (hk.running (hk.running_of_serving hs)).1]
    dsimp only
    rw [← List.append_assoc]
    exact ⟨_, hk.respond hserving response false⟩
  | @reject r t cseq request incoming response hs hincoming hrejected =>
    have hopen := (hk.running (hk.running_of_incoming hincoming)).1
    rw [sendResponse_of_running (r := { r with incoming }) hopen, ← List.append_assoc]
    exact ⟨_, hk.reject hs hincoming hrejected⟩
  | @call r t cseq request incoming hs hincoming hrejection =>
    rw [callService, resetContinueTimer_eq, ← List.append_assoc]
    exact ⟨_, hk.call hs hincoming hrejection _⟩
  | @shutdown r t hs hincoming hended =>
    have hevents : (RequestHandler.shutdown (r, t)).2 =
        t ++ if r.txShutdownEvent then [.fired] else [] := by
      cases h : r.txShutdownEvent <;> simp [RequestHandler.shutdown, h]
    rw [hevents, ← List.append_assoc]
    exact ⟨_, hk.shutdown hs hincoming hended⟩

theorem Turns.accountable {s s' : State URI} (hturns : Turns true s s')
    (h : Accountable s.1 arrived (e ++ s.2)) : Accountable s'.1 arrived (e ++ s'.2) := by
  induction hturns with
  | refl => exact h
  | tail _ hturn ih => exact hturn.accountable ih

end Requests
end RequestHandler
end Rtsp
