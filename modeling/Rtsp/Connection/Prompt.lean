import Rtsp.Connection.Serving

/-!
# A service that answers at once

Some services return futures that are ready from the start. With such a one a poll
of the request handler works off all requests in its channel: it leaves none in
service, never tells anybody to wait, and what it has done is fixed by the
requests alone (`Prompt.of_run`).

The requirement is on the answers of each poll: the request that is in service, and each
one taken after it, is answered by the service's response to that very request. Nothing
else is asked of the run. Requests arrive when they like, polls may be as few as they
like, the channel may end at any time.

With this the handler has no state worth speaking of between two polls, and its account
is a function of the requests it has taken. `Network.Served` would have to carry the
general account through the network otherwise; services that take their time are covered
by `Connection.Serving`, and there the account is of another kind.
-/

namespace Rtsp

open Lib

namespace RequestHandler

variable {URI URIError : Type} [RequestURI URI URIError]

/-- What is answered to a request: the rejection, or the answer of the service. -/
def reply (service : Request URI → Response) (request : Request URI) : Response :=
  (rejection request).getD (service request)

/-- All that is done about a request. -/
def about (service : Request URI → Response) (e : CSeq × Request URI) : List (Event URI) :=
  (if (rejection e.2).isNone then [.called e.1 e.2] else []) ++
    [.enqueued ((reply service e.2).withCSeq e.1)]

/-- The answers in one poll: at first nothing is in service, and then the request before. -/
def answersOf (service : Request URI → Response) (h : RequestHandler URI) : List ServiceAnswer :=
  .notReady :: h.incoming.map fun e => .ready (service e.2)

variable {service : Request URI → Response} {env : Answers} {h : RequestHandler URI}
  {t : List (Event URI)}

/-- The response to the request in service, if there is one. -/
def responded (service : Request URI → Response) (served : Option (CSeq × Request URI)) :
    List (Event URI) :=
  served.toList.map fun e => .enqueued ((service e.2).withCSeq e.1)

/-- The request in service is answered. -/
theorem pollServicedRequest_prompt {answer : ServiceAnswer}
    {served : Option (CSeq × Request URI)}
    (hanswer : ∀ e, served = some e → answer = .ready (service e.2))
    (hopen : env.senderOpen = true) (hhandle : h.senderHandle = true)
    (hserved : h.servicedRequest = served.map (·.1)) :
    ∃ timer, pollServicedRequest env answer (h, t) =
      .ok (.ready (), { h with continueTimer := timer, servicedRequest := none },
        t ++ responded service served) := by
  obtain ⟨timer, duration, incoming, ended, handle, serviced, event⟩ := h
  obtain rfl : serviced = served.map (·.1) := hserved
  obtain rfl : handle = true := hhandle
  unfold pollServicedRequest
  cases served with
  | none =>
    refine ⟨timer, ?_⟩
    simp [responded]
  | some e =>
    refine ⟨false, ?_⟩
    rw [hanswer e rfl, hopen]
    rfl

/-- What a poll comes to when there is nothing left to do. -/
def finish (s : State URI) : Async Unit × State URI :=
  if s.1.incomingEnded then (.ready (), shutdown s) else (.notReady, s)

/-- **The loop works off the channel.** -/
theorem pollLoop_prompt {incoming : List (CSeq × Request URI)} {answer : ServiceAnswer}
    {served : Option (CSeq × Request URI)}
    (hanswer : ∀ e, served = some e → answer = .ready (service e.2))
    (hopen : env.senderOpen = true) (hhandle : h.senderHandle = true)
    (hserved : h.servicedRequest = served.map (·.1)) (hincoming : h.incoming = incoming) :
    ∃ timer, pollLoop env (answer :: incoming.map fun e => .ready (service e.2)) incoming (h, t) =
      .ok (finish ({ h with continueTimer := timer, incoming := [], servicedRequest := none },
        t ++ responded service served ++ incoming.flatMap (about service))) := by
  induction incoming generalizing answer served h t with
  | nil =>
    obtain ⟨timer, hpolled⟩ := pollServicedRequest_prompt (t := t) hanswer hopen hhandle hserved
    refine ⟨timer, ?_⟩
    rw [List.map_nil, pollLoop, List.head?_cons, Option.getD_some, hpolled, ok_bind,
      List.flatMap_nil, List.append_nil, finish, ← hincoming]
    dsimp only
    split
    · rfl
    · rfl
  | cons e incoming ih =>
    obtain ⟨timer, hpolled⟩ := pollServicedRequest_prompt (t := t) hanswer hopen hhandle hserved
    rw [List.map_cons, pollLoop, List.head?_cons, Option.getD_some, hpolled, ok_bind,
      List.tail_cons, List.flatMap_cons]
    dsimp only
    rw [processRequest_eq]
    cases hrejection : rejection e.2 with
    | some response =>
      -- The answer that would be there for it is not asked for.
      obtain ⟨timer', hloop⟩ := @ih
        { h with continueTimer := timer, servicedRequest := none, incoming }
        (t ++ responded service served ++ [.enqueued (response.withCSeq e.1)])
        (.ready (service e.2)) none (fun e h => absurd h.symm (Option.some_ne_none e))
        hhandle rfl rfl
      refine ⟨timer', ?_⟩
      dsimp only
      rw [hopen, sendResponse_of_running
        (r := { h with continueTimer := timer, servicedRequest := none, incoming }) hhandle, hloop]
      simp [about, reply, hrejection, responded]
    | none =>
      obtain ⟨timer', hloop⟩ := @ih
        { h with
          continueTimer := timer || h.continueWaitDuration.isSome, incoming
          servicedRequest := some e.1 }
        (t ++ responded service served ++ [.called e.1 e.2])
        (.ready (service e.2)) (some e) (fun _ heq => by cases heq; rfl) hhandle rfl rfl
      refine ⟨timer', ?_⟩
      rw [callService, resetContinueTimer_eq, hloop]
      simp [about, reply, hrejection, responded]

/-- With nothing in service and nothing in the channel there is nothing to do. -/
theorem pollLoop_idle (hidle : h.servicedRequest = none) (answers : List ServiceAnswer) :
    pollLoop env answers [] (h, t) = .ok (finish (h, t)) := by
  have hpolled : pollServicedRequest env (answers.head?.getD .notReady) (h, t) =
      .ok (.ready (), h, t) := by
    unfold pollServicedRequest
    dsimp only
    rw [hidle]
  rw [pollLoop, hpolled, ok_bind, finish]
  dsimp only
  split
  · rfl
  · rfl

/-- The end of a poll: the handler shuts down once the channel has ended. -/
theorem finish_snd (h : RequestHandler URI) (t : List (Event URI)) :
    (finish (h, t)).2 = if h.incomingEnded then
      ({ h with
        continueTimer := false, senderHandle := false, servicedRequest := none
        txShutdownEvent := false }, t ++ if h.txShutdownEvent then [.fired] else [])
      else (h, t) := by
  have hfired : (shutdown (h, t)).2 = t ++ if h.txShutdownEvent then [.fired] else [] := by
    rw [shutdown]
    dsimp only
    split
    · rfl
    · exact (List.append_nil t).symm
  rw [← hfired, finish]
  dsimp only
  split
  · rfl
  · rfl

/-! ## Sessions -/

/-- The steps of a session whose service answers at once. -/
def Session.PromptStep (service : Request URI → Response) (s : Session URI) (op : Session.Op URI)
    (s' : Session URI) : Prop :=
  Session.Step s op s' ∧ ∀ env, op = .poll env → env.service = answersOf service s.handler

/-- What holds of it between two polls: nothing is in service, and what has been done is what
    there was to do about the requests that have left the channel. -/
structure Prompt (service : Request URI → Response) (s : Session URI) : Prop where
  idle : s.handler.servicedRequest = none
  events : ∃ done fired, s.arrived = done ++ s.handler.incoming ∧
    s.events = done.flatMap (about service) ++ (if fired then [.fired] else []) ∧
    (fired = false → s.handler.senderHandle = true ∧ s.handler.txShutdownEvent = true) ∧
    (fired = true → s.handler.incoming = [] ∧ s.handler.incomingEnded = true ∧
      s.handler.txShutdownEvent = false)

namespace Prompt

variable {s s' : Session URI}

theorem new (service : Request URI → Response) (duration : Option Nat) :
    Prompt service (Session.new duration) where
  idle := rfl
  events := ⟨[], false, rfl, rfl, fun _ => ⟨rfl, rfl⟩, nofun⟩

/-- **A poll answers everything that is in the channel.** -/
theorem poll (hs : Prompt service s) {a : Async Unit} {h : RequestHandler URI}
    {t : List (Event URI)} (hopen : env.senderOpen = true)
    (hservice : env.service = answersOf service s.handler)
    (hpoll : s.handler.poll env = .ok (a, h, t)) :
    h.incoming = [] ∧ Prompt service { s with handler := h, events := s.events ++ t } := by
  obtain ⟨done, fired, harrived, hevents, hrunning, hfinished⟩ := hs.events
  cases fired with
  | true =>
    obtain ⟨hincoming, hended, hevent⟩ := hfinished rfl
    rw [RequestHandler.poll, hincoming, pollLoop_idle hs.idle] at hpoll
    have hlast := congrArg Prod.snd (Except.ok.inj hpoll)
    rw [finish_snd, if_pos hended, hevent, if_neg Bool.false_ne_true, List.append_nil] at hlast
    cases hlast
    refine ⟨hincoming, rfl, done, true, harrived, ?_, nofun, fun _ => ⟨hincoming, hended, rfl⟩⟩
    rw [hevents]
    exact List.append_nil _
  | false =>
    obtain ⟨hhandle, hevent⟩ := hrunning rfl
    obtain ⟨timer, hloop⟩ := @pollLoop_prompt _ _ _ service env s.handler [] s.handler.incoming
      .notReady none (fun e h => absurd h.symm (Option.some_ne_none e)) hopen hhandle hs.idle rfl
    rw [RequestHandler.poll, hservice, answersOf, hloop] at hpoll
    have hlast := congrArg Prod.snd (Except.ok.inj hpoll)
    rw [finish_snd] at hlast
    dsimp only at hlast
    have hdone : (done ++ s.handler.incoming).flatMap (about service) =
        done.flatMap (about service) ++ s.handler.incoming.flatMap (about service) :=
      List.flatMap_append
    by_cases hended : s.handler.incomingEnded = true
    · rw [if_pos hended, if_pos hevent] at hlast
      cases hlast
      refine ⟨rfl, rfl, done ++ s.handler.incoming, true, ?_, ?_, nofun,
        fun _ => ⟨rfl, hended, rfl⟩⟩
      · rw [harrived, List.append_nil]
      · rw [hevents, hdone]
        simp [responded]
    · rw [if_neg hended] at hlast
      cases hlast
      refine ⟨rfl, rfl, done ++ s.handler.incoming, false, ?_, ?_,
        fun _ => ⟨hhandle, hevent⟩, nofun⟩
      · rw [harrived, List.append_nil]
      · rw [hevents, hdone]
        simp [responded]

theorem step {op : Session.Op URI} (hs : Prompt service s)
    (h : Session.PromptStep service s op s') : Prompt service s' := by
  obtain ⟨hstep, hservice⟩ := h
  cases hstep with
  | arrive cseq request hopen =>
    obtain ⟨done, fired, harrived, hevents, hrunning, hfinished⟩ := hs.events
    refine ⟨hs.idle, done, fired, ?_, hevents, hrunning, fun hfired => ?_⟩
    · rw [harrived, List.append_assoc]
    · rw [(hfinished hfired).2.1] at hopen
      cases hopen
  | endIncoming =>
    obtain ⟨done, fired, harrived, hevents, hrunning, hfinished⟩ := hs.events
    refine ⟨hs.idle, done, fired, harrived, hevents, hrunning, fun hfired => ?_⟩
    obtain ⟨hincoming, -, hevent⟩ := hfinished hfired
    exact ⟨hincoming, rfl, hevent⟩
  | poll hopen hpoll => exact (hs.poll hopen (hservice _ rfl) hpoll).2

/-- **What a service that answers at once leads to**: at any point of any session nothing is in
    service, and the requests that have left the channel have been answered in order, each with
    one response and no word to wait. -/
theorem of_run {duration : Option Nat} {ops : List (Session.Op URI)}
    (h : Run (Session.PromptStep service) (Session.new duration) ops s) : Prompt service s :=
  h.invariant (new service duration) fun _ _ _ hs hstep => hs.step hstep

end Prompt

end RequestHandler
end Rtsp
