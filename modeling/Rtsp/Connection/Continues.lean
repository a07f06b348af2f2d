import Rtsp.Connection.Exchange

/-!
# What a Continue hides

`SendRequest::poll`, whole. A Continue makes it go on with the receiving half of
another channel. That half may hold a message already: a final response, word
that there is none, or the next Continue. `poll_request` does not look: the poll
is not ready, though the answer is there, and no half that could wake the task
has been polled in vain. So an answer behind a Continue is found if there is no
Continue (`found_iff`).

The steps of `Connection.Exchange` cut a poll in two, since the response receiver may
come between the look at the channel and the timers. `poll` here is the poll in one
piece, with a record of which halves it has asked and what they have answered. The
record is there for the second thing that goes wrong: a task is woken by the half that
it asked last and in vain, and the half that a Continue brings has not been asked at
all.

How many Continues are in the way is no matter of bad luck with the order. The response
receiver works through all that has arrived without waiting for the future, so whatever
the server sends in one go is piled up like that (`holds_of_responses`).

A timer with no room for it makes a poll return that the request was cancelled, and the
word that no response will come does the same; this is why the condition has a second
part. What is said about wake-ups leaves the timers aside: one of them may wake the task
later, and then it finds what has been there all the time.
-/

namespace Rtsp

open Lib

/-- What `poll_request` returns once it has taken a message. -/
def PendingRequestResponse.answer : PendingRequestResponse → Poll Response OperationError
  | .«continue» _ => .ok .notReady
  | .none => .error .requestCancelled
  | .response r => .ok (.ready r)

/-- A channel holds so many Continues, each in the channel of the one before it, and then a
    message that is none. -/
inductive Channels.Holds (channels : Channels) :
    ReplyChannel → Nat → PendingRequestResponse → Prop where
  | last {c message} : channels c = .filled message → (∀ rx, message ≠ .«continue» rx) →
      Holds channels c 0 message
  | «continue» {c rx n message} : channels c = .filled (.«continue» rx) →
      Holds channels rx n message → Holds channels c (n + 1) message

/-- The message behind the Continues is none itself. -/
theorem Channels.Holds.last_ne {channels : Channels} {c : ReplyChannel} {n : Nat}
    {message : PendingRequestResponse} (h : channels.Holds c n message) :
    ∀ rx, message ≠ .«continue» rx := by
  induction h with
  | last _ hlast => exact hlast
  | «continue» _ _ ih => exact ih

namespace SendRequest

/-! ## A whole poll -/

/-- What a poll returns, and what it has done. -/
structure Polled where
  answer : Poll Response OperationError
  request : SendRequest
  channels : Channels
  /-- What it has queued for the response receiver. -/
  updates : List PendingRequestUpdate
  /-- The receiving halves it has polled, with their answers. -/
  looks : List (ReplyChannel × OneshotAnswer PendingRequestResponse)

/-- `poll`. An error of a timer has cancelled the request before it is returned. -/
def poll (r : SendRequest) (channels : Channels) (maxTimer timer : DelayAnswer) : Rust Polled := do
  let looks := [(r.rxResponse, (channels r.rxResponse).poll.1)]
  let (answer, r, channels) ← r.pollRequest channels
  match answer with
  | .ok (.ready response) => .ok ⟨.ok (.ready response), r, channels, [], looks⟩
  | .error error => .ok ⟨.error error, r, channels, [], looks⟩
  | .ok .notReady =>
    match ← r.pollTimers maxTimer timer with
    | .ok () => .ok ⟨.ok .notReady, r, channels, [], looks⟩
    | .error error =>
      .ok ⟨.error error, r, channels.close r.rxResponse,
        [.removePendingRequest r.sequenceNumber], looks⟩

/-- What the timers make of a poll that has found nothing. -/
def Polled.timed (r : SendRequest) (channels : Channels)
    (looks : List (ReplyChannel × OneshotAnswer PendingRequestResponse)) :
    Except OperationError Unit → Polled
  | .ok () => ⟨.ok .notReady, r, channels, [], looks⟩
  | .error error => ⟨.error error, r, channels.close r.rxResponse,
      [.removePendingRequest r.sequenceNumber], looks⟩

/-- How a poll comes out. -/
inductive Polls (r : SendRequest) (channels : Channels) (maxTimer timer : DelayAnswer) :
    Polled → Prop where
  | found {message} : channels r.rxResponse = .filled message →
      (∀ rx, message ≠ .«continue» rx) →
      Polls r channels maxTimer timer ⟨message.answer, r, channels.put r.rxResponse ⟨true, none⟩,
        [], [(r.rxResponse, .received message)]⟩
  | continued {rx outcome} : channels r.rxResponse = .filled (.«continue» rx) →
      { r with rxResponse := rx, timer := r.timeoutDuration }.pollTimers maxTimer timer =
        .ok outcome →
      Polls r channels maxTimer timer
        (.timed { r with rxResponse := rx, timer := r.timeoutDuration }
          (channels.put r.rxResponse ⟨true, none⟩)
          [(r.rxResponse, .received (.«continue» rx))] outcome)
  | notReady {outcome} : (channels r.rxResponse).complete = false →
      r.pollTimers maxTimer timer = .ok outcome →
      Polls r channels maxTimer timer
        (.timed r channels [(r.rxResponse, .notReady)] outcome)

variable {r : SendRequest} {channels : Channels} {maxTimer timer : DelayAnswer} {p : Polled}
  {rx : ReplyChannel} {n : Nat} {message : PendingRequestResponse}

theorem poll_cases (h : r.poll channels maxTimer timer = .ok p) :
    Polls r channels maxTimer timer p := by
  obtain ⟨⟨answer, r', channels'⟩, hrequest, h⟩ := bind_eq_ok h
  have hlooks := r.pollRequest_cases channels
  rw [hrequest] at hlooks
  cases hlooks with
  | notReady hopen =>
    obtain ⟨outcome, htimers, h⟩ := bind_eq_ok h
    have hpoll : (channels r.rxResponse).poll.1 = .notReady := by simp [Oneshot.poll, hopen]
    rw [hpoll] at h
    obtain rfl : Polled.timed r channels [(r.rxResponse, .notReady)] outcome = p := by
      cases outcome <;> exact Except.ok.inj h
    exact .notReady hopen htimers
  | «continue» hchannel =>
    obtain ⟨outcome, htimers, h⟩ := bind_eq_ok h
    rw [hchannel] at h
    obtain rfl : Polled.timed _ _ [(r.rxResponse, .received _)] outcome = p := by
      cases outcome <;> exact Except.ok.inj h
    exact .continued hchannel htimers
  | none hchannel =>
    rw [hchannel] at h
    cases h
    exact .found hchannel fun _ h => by cases h
  | response hchannel =>
    rw [hchannel] at h
    cases h
    exact .found hchannel fun _ h => by cases h

theorem pollRequest_filled (hchannel : channels r.rxResponse = .filled message)
    (hlast : ∀ rx, message ≠ .«continue» rx) :
    r.pollRequest channels = .ok (message.answer, r, channels.put r.rxResponse ⟨true, none⟩) := by
  unfold pollRequest
  rw [hchannel]
  cases message with
  | «continue» rx => exact absurd rfl (hlast rx)
  | none => rfl
  | response response => rfl

theorem pollRequest_continue (hchannel : channels r.rxResponse = .filled (.«continue» rx)) :
    r.pollRequest channels = .ok (.ok .notReady,
      { r with rxResponse := rx, timer := r.timeoutDuration },
      channels.put r.rxResponse ⟨true, none⟩) := by
  unfold pollRequest
  rw [hchannel]
  rfl

theorem pollRequest_open (hopen : (channels r.rxResponse).complete = false) :
    r.pollRequest channels = .ok (.ok .notReady, r, channels) := by
  simp [pollRequest, Oneshot.poll, hopen]

/-- A message that is there is found. -/
theorem poll_found (hchannel : channels r.rxResponse = .filled message)
    (hlast : ∀ rx, message ≠ .«continue» rx) :
    ∃ p, r.poll channels maxTimer timer = .ok p ∧ p.answer = message.answer := by
  unfold poll
  rw [pollRequest_filled hchannel hlast]
  cases message with
  | «continue» rx => exact absurd rfl (hlast rx)
  | none => exact ⟨_, rfl, rfl⟩
  | response response => exact ⟨_, rfl, rfl⟩

/-! ## The timers

A timer that cannot be set makes a poll return that the request was cancelled,
as the word that there is no response does. -/

/-- A timer of a request that goes on after a Continue cannot be set. -/
def AtCapacity (r : SendRequest) (maxTimer timer : DelayAnswer) : Prop :=
  r.maxTimer.isSome = true ∧ maxTimer = .atCapacity ∨
    (r.maxTimer = none ∨ maxTimer = .notReady) ∧
      r.timeoutDuration.isSome = true ∧ timer = .atCapacity

theorem pollTimers_cancelled_iff :
    { r with rxResponse := rx, timer := r.timeoutDuration }.pollTimers maxTimer timer =
      .ok (.error .requestCancelled) ↔ r.AtCapacity maxTimer timer := by
  obtain ⟨max, c, number, duration, t⟩ := r
  -- Each timer is there or not, and gives one of four answers.
  unfold AtCapacity pollTimers pollMaxTimer pollTimer
  cases max <;> cases maxTimer <;> cases duration <;> cases timer <;>
    simp [pollDelay, bind, Except.bind]

/-! ## What a poll finds -/

/-- Behind a Continue nothing is found. -/
theorem poll_continued_iff (hchannel : channels r.rxResponse = .filled (.«continue» rx))
    (hlast : ∀ rx, message ≠ .«continue» rx) :
    (∃ p, r.poll channels maxTimer timer = .ok p ∧ p.answer = message.answer) ↔
      message = .none ∧ r.AtCapacity maxTimer timer := by
  have htimers_iff := @pollTimers_cancelled_iff r maxTimer timer rx
  rw [← htimers_iff]
  constructor
  · rintro ⟨p, h, hanswer⟩
    cases poll_cases h with
    | found hfilled hnone =>
      have heq := Oneshot.filled_injective (hchannel.symm.trans hfilled)
      exact absurd heq.symm (hnone rx)
    | notReady hopen =>
      rw [hchannel] at hopen
      cases hopen
    | @continued rx' outcome hfilled htimers =>
      have heq := Oneshot.filled_injective (hchannel.symm.trans hfilled)
      cases heq
      -- The timers leave a poll that is not ready, or an error.
      cases message with
      | «continue» rx => exact absurd rfl (hlast rx)
      | none =>
        refine ⟨rfl, ?_⟩
        cases outcome with
        | ok => cases hanswer
        | error error =>
          cases hanswer
          exact htimers
      | response response =>
        cases outcome with
        | ok => cases hanswer
        | error error => cases hanswer
  · rintro ⟨rfl, htimers⟩
    unfold poll
    simp only [pollRequest_continue hchannel, ok_bind, htimers]
    exact ⟨_, rfl, rfl⟩

/-- **What a chain of Continues ends in is found if there is no Continue.** -/
theorem found_iff (h : channels.Holds r.rxResponse n message) :
    (∃ p, r.poll channels maxTimer timer = .ok p ∧ p.answer = message.answer) ↔
      n = 0 ∨ message = .none ∧ r.AtCapacity maxTimer timer := by
  generalize hrx : r.rxResponse = c at h
  cases h with
  | last hchannel hlast =>
    rw [← hrx] at hchannel
    exact ⟨fun _ => .inl rfl, fun _ => poll_found hchannel hlast⟩
  | @«continue» _ rx n _ hchannel hrest =>
    rw [← hrx] at hchannel
    have hlast : ∀ rx, message ≠ .«continue» rx := hrest.last_ne
    rw [poll_continued_iff hchannel hlast]
    constructor
    · exact .inr
    · rintro (hzero | hcapacity)
      · exact absurd hzero (Nat.succ_ne_zero n)
      · exact hcapacity

/-- **A poll that is not ready has polled in vain what it goes on with, unless it took a
    Continue.** -/
theorem looks_iff (h : r.poll channels maxTimer timer = .ok p)
    (hanswer : p.answer = .ok .notReady) :
    (p.request.rxResponse, .notReady) ∈ p.looks ↔
      ∀ rx, channels r.rxResponse ≠ .filled (.«continue» rx) := by
  cases poll_cases h with
  | @found message hchannel hlast =>
    cases message with
    | «continue» rx => exact absurd rfl (hlast rx)
    | none => cases hanswer
    | response response => cases hanswer
  | @continued rx outcome hchannel htimers =>
    cases outcome with
    | error error => cases hanswer
    | ok =>
      constructor
      · intro hmem
        simp [Polled.timed] at hmem
      · intro hnone
        exact absurd hchannel (hnone rx)
  | @notReady outcome hopen htimers =>
    cases outcome with
    | error error => cases hanswer
    | ok =>
      refine ⟨fun _ rx hchannel => ?_, fun _ => List.mem_singleton.mpr rfl⟩
      rw [hchannel] at hopen
      cases hopen

/-- **An answer that is there is found, and a poll in vain is one of the half that is kept,
    unless a Continue is there.** -/
theorem continue_hides_iff (r : SendRequest) (channels : Channels) (maxTimer timer : DelayAnswer) :
    (∀ n message, channels.Holds r.rxResponse n message →
      ((∃ p, r.poll channels maxTimer timer = .ok p ∧ p.answer = message.answer) ↔
        n = 0 ∨ message = .none ∧ r.AtCapacity maxTimer timer)) ∧
    ∀ p, r.poll channels maxTimer timer = .ok p → p.answer = .ok .notReady →
      ((p.request.rxResponse, .notReady) ∈ p.looks ↔
        ∀ rx, channels r.rxResponse ≠ .filled (.«continue» rx)) := by
  constructor
  · intro n message h
    exact found_iff h
  · intro p h hanswer
    exact looks_iff h hanswer

/-- One future has its response, and the other has nothing yet. -/
theorem continue_hides_iff_found :
    let response := Response.ofStatus .ok
    let channels : Channels := Channels.put (fun _ => .new) ⟨0, 0⟩ (.filled (.response response))
    let r : Nat → SendRequest := fun n => .new ⟨n, 0⟩ ⟨7, by decide⟩ ⟨none, none⟩
    (∃ p, (r 0).poll channels .notReady .notReady = .ok p ∧ p.answer = .ok (.ready response)) ∧
      ∃ p, (r 1).poll channels .notReady .notReady = .ok p ∧
        (p.request.rxResponse, .notReady) ∈ p.looks := by
  intro response channels r
  have hholds : channels.Holds (r 0).rxResponse 0 (.response response) := .last rfl nofun
  refine ⟨((continue_hides_iff (r 0) channels .notReady .notReady).1 0 _ hholds).mpr (.inl rfl),
    _, rfl, ?_⟩
  refine ((continue_hides_iff (r 1) channels .notReady .notReady).2 _ rfl rfl).mpr ?_
  intro rx hrx
  cases hrx

end SendRequest

namespace Exchange

variable {s : Exchange} {n : Nat} {r : SendRequest} {maxTimer timer : DelayAnswer}

/-! ## A poll that nothing comes between

Its steps, one after the other, are the whole poll. -/

/-- Where a future is after a poll. -/
def stageAfter : Poll Response OperationError → Stage
  | .ok .notReady => .waiting
  | .ok (.ready _) => .returned
  | .error _ => .returned

/-- What a poll has returned, if it is ready. -/
def resultsAfter (n : Nat) :
    Poll Response OperationError → List (Nat × Except OperationError Response)
  | .ok .notReady => []
  | .ok (.ready response) => [(n, .ok response)]
  | .error error => [(n, .error error)]

def afterPoll (s : Exchange) (n : Nat) (p : SendRequest.Polled) : Exchange :=
  { s with
    requests := Function.update s.requests n (some (p.request, stageAfter p.answer))
    channels := p.channels
    updates := if s.phase = .closed then s.updates else s.updates ++ p.updates
    results := s.results ++ resultsAfter n p.answer }

/-- The steps of a poll from the timers on. -/
theorem run_timers {channels : Channels} {outcome : Except OperationError Unit}
    {looks : List (ReplyChannel × OneshotAnswer PendingRequestResponse)}
    (h : r.pollTimers maxTimer timer = .ok outcome) :
    ∃ ops, Run Step ({ s with channels }.putRequest n r .timers) ops
      (s.afterPoll n (.timed r channels looks outcome)) := by
  have htimers : ({ s with channels }.putRequest n r .timers).requests n = some (r, .timers) :=
    Function.update_self ..
  have htimed := Run.start.snoc (Step.pollTimers maxTimer timer htimers)
  rw [h] at htimed
  cases outcome with
  | ok =>
    refine ⟨[.pollTimers n maxTimer timer], ?_⟩
    simpa [putRequest, afterPoll, SendRequest.Polled.timed, stageAfter, resultsAfter, timed]
      using htimed
  | error error =>
    -- `cancel_request` takes two steps: the removal is queued, then the channel is closed.
    have hremoval := htimed.snoc (.queueRemoval (Function.update_self ..))
    have hclosed := hremoval.snoc (.closeReceiver (Function.update_self ..))
    refine ⟨[.pollTimers n maxTimer timer, .queueRemoval n, .closeReceiver n], ?_⟩
    simpa [putRequest, unboundedSend_eq, closeReceiver, finish, afterPoll,
      SendRequest.Polled.timed, stageAfter, resultsAfter, timed] using hclosed

/-- **A poll that nothing comes between is a run of its steps.** -/
theorem run_poll {p : SendRequest.Polled} (hr : s.requests n = some (r, .waiting))
    (h : r.poll s.channels maxTimer timer = .ok p) : ∃ ops, Run Step s ops (s.afterPoll n p) := by
  have hpoll := Run.start.snoc (Step.poll hr)
  cases SendRequest.poll_cases h with
  | @found message hchannel hlast =>
    rw [SendRequest.pollRequest_filled hchannel hlast] at hpoll
    refine ⟨[.poll n], ?_⟩
    cases message with
    | «continue» rx => exact absurd rfl (hlast rx)
    | none =>
      simpa [looked, finish, putRequest, afterPoll, stageAfter, resultsAfter,
        PendingRequestResponse.answer] using hpoll
    | response response =>
      simpa [looked, finish, putRequest, afterPoll, stageAfter, resultsAfter,
        PendingRequestResponse.answer] using hpoll
  | continued hchannel htimers =>
    rw [SendRequest.pollRequest_continue hchannel] at hpoll
    obtain ⟨ops, htimed⟩ := run_timers htimers
    exact ⟨_, hpoll.append htimed⟩
  | notReady hopen htimers =>
    rw [SendRequest.pollRequest_open hopen] at hpoll
    obtain ⟨ops, htimed⟩ := run_timers htimers
    exact ⟨_, hpoll.append htimed⟩

/-! ## How Continues pile up

The response receiver does not wait for a Continue to be taken: the responses it
reads before the future is polled again are all in the channels by then. -/

variable {cseq : CSeq} {tx : ReplyChannel} {response : Response}

/-- A Continue is put in the channel, and the next one takes its place. -/
theorem respond_continue (hentry : s.receiver.pendingRequests.lookup cseq = some tx)
    (hnew : s.channels tx = .new) (hnumber : response.headers.typedGet CSeq = some cseq)
    (hstatus : response.statusCode = .standard .«continue») :
    (s.respond response).receiver.pendingRequests.lookup cseq = some tx.next ∧
      (s.respond response).channels = s.channels.put tx (.filled (.«continue» tx.next)) := by
  have hopen : s.isClosed tx = false := by rw [isClosed, hnew]; rfl
  have hhandled : s.receiver.handleResponse s.isClosed response =
      ({ s.receiver with pendingRequests := s.receiver.pendingRequests.replace cseq tx.next },
        [(tx, .«continue» tx.next)]) := by
    simp [ResponseReceiver.handleResponse, hnumber, hentry, hstatus, hopen,
      ResponseReceiver.send_of_open]
  rw [respond, hhandled]
  dsimp only
  constructor
  · rw [lookup_replace hentry, if_pos rfl]
  · rw [Channels.deliver_singleton, hnew, Oneshot.send_new]

/-- A final response is put in the channel. -/
theorem respond_final (hentry : s.receiver.pendingRequests.lookup cseq = some tx)
    (hnew : s.channels tx = .new) (hnumber : response.headers.typedGet CSeq = some cseq)
    (hstatus : response.statusCode ≠ .standard .«continue») :
    (s.respond response).channels = s.channels.put tx (.filled (.response response)) := by
  have hopen : s.isClosed tx = false := by rw [isClosed, hnew]; rfl
  have hhandled : (s.receiver.handleResponse s.isClosed response).2 =
      [(tx, .response response)] := by
    simp [ResponseReceiver.handleResponse, hnumber, hentry, hstatus, hopen,
      ResponseReceiver.send_of_open]
  rw [respond, hhandled]
  dsimp only
  rw [Channels.deliver_singleton, hnew, Oneshot.send_new]

/-- **As many Continues as are read before the final response are in its way.** -/
theorem holds_of_responses {continues : List Response}
    (hentry : s.receiver.pendingRequests.lookup cseq = some tx)
    (hnew : ∀ hop, tx.hop ≤ hop → s.channels ⟨tx.request, hop⟩ = .new)
    (hcontinues : ∀ c ∈ continues, c.headers.typedGet CSeq = some cseq ∧
      c.statusCode = .standard .«continue»)
    (hnumber : response.headers.typedGet CSeq = some cseq)
    (hstatus : response.statusCode ≠ .standard .«continue») :
    ((continues ++ [response]).foldl respond s).channels.Holds tx continues.length
        (.response response) ∧
      ∀ c : ReplyChannel, c.hop < tx.hop →
        ((continues ++ [response]).foldl respond s).channels c = s.channels c := by
  induction continues generalizing s tx with
  | nil =>
    have hput := respond_final hentry (hnew tx.hop (Nat.le_refl _)) hnumber hstatus
    simp only [List.nil_append, List.foldl_cons, List.foldl_nil, hput]
    refine ⟨.last (Channels.put_self ..) nofun, fun c hc => ?_⟩
    exact Channels.put_of_ne _ _ fun heq => Nat.lt_irrefl _ (heq ▸ hc)
  | cons first rest ih =>
    obtain ⟨hfirst, hrest⟩ := List.forall_mem_cons.mp hcontinues
    obtain ⟨hnext, hput⟩ :=
      respond_continue hentry (hnew tx.hop (Nat.le_refl _)) hfirst.1 hfirst.2
    -- The channels behind the next one are as new as they were.
    have hnew' : ∀ hop, tx.next.hop ≤ hop →
        (s.respond first).channels ⟨tx.next.request, hop⟩ = .new := by
      intro hop hle
      rw [hput, Channels.put_of_ne _ _ fun heq => ?_]
      · exact hnew hop (Nat.le_of_succ_le hle)
      · exact Nat.lt_irrefl _ (show tx.hop < tx.hop from heq ▸ hle)
    obtain ⟨hholds, hkept⟩ := ih hnext hnew' hrest
    refine ⟨.«continue» ?_ hholds, fun c hc => ?_⟩
    · rw [List.cons_append, List.foldl_cons, hkept tx (Nat.lt_succ_self _), hput,
        Channels.put_self]
    · rw [List.cons_append, List.foldl_cons, hkept c (Nat.lt_succ_of_lt hc), hput]
      exact Channels.put_of_ne _ _ fun heq => Nat.lt_irrefl _ (heq ▸ hc)

/-- The answer to a request without timeouts comes with a Continue before it: the poll has found
    nothing and polls nothing in vain, whatever the timers. -/
theorem answer_hidden : ∃ (first : CSeq) (ops : List Op) (s : Exchange) (r : SendRequest)
    (response : Response), Run Step (start first) ops s ∧ s.requests 0 = some (r, .waiting) ∧
      s.channels.Holds r.rxResponse 1 (.response response) ∧
      ∀ maxTimer timer, ∃ p, r.poll s.channels maxTimer timer = .ok p ∧
        p.answer = .ok .notReady ∧ (p.request.rxResponse, .notReady) ∉ p.looks := by
  let first : CSeq := ⟨7, by decide⟩
  let ops : List Op := [.addPendingRequest noTimeouts, .queueMessage, .startPoll, .handleUpdate,
    .drained, .respond (responseTo first .«continue»), .respond (responseTo first .ok),
    .finishPoll]
  let run := replay exec (start first) ops
  have hrun : Run Step (start first) ops (run.get (by decide +kernel)) :=
    .of_replay (fun _ _ _ => step_of_exec) (Option.some_get _).symm
  have hr : (run.get (by decide +kernel)).requests 0 =
      some (SendRequest.new ⟨0, 0⟩ first noTimeouts, .waiting) := by decide +kernel
  have hcontinue : (run.get (by decide +kernel)).channels ⟨0, 0⟩ =
      .filled (.«continue» ⟨0, 1⟩) := by decide +kernel
  have hresponse : (run.get (by decide +kernel)).channels ⟨0, 1⟩ =
      .filled (.response (responseTo first .ok)) := by decide +kernel
  refine ⟨first, ops, _, _, _, hrun, hr, .«continue» hcontinue (.last hresponse nofun), ?_⟩
  intro maxTimer timer
  unfold SendRequest.poll
  rw [SendRequest.pollRequest_continue hcontinue]
  refine ⟨_, rfl, rfl, ?_⟩
  rw [show (SendRequest.new ⟨0, 0⟩ first noTimeouts).rxResponse = ⟨0, 0⟩ from rfl, hcontinue]
  simp

end Exchange
end Rtsp
