import Rtsp.Connection.Handler
import Mathlib.Logic.Relation

/-!
# The turns of a poll of the handler

A poll of the request handler can do a great deal: send any number of Continue
responses, finish the request in service, reject the next ones and hand one more to the
service. `Turn` lists what it can do in one go, guards included, and `poll_turns` says
that a poll is a series of turns. What is to be shown of a poll is then shown of one
turn.

The relation says less than the code in one respect: a turn may happen whenever its
guard holds, and in which order the code tries them is left out. Nothing shown of turns
depends on it. What a poll *does* do, and not only may, is said in `Connection.Prompt`
for services that answer at once.

That a poll returns is said here as well (`poll_returns`). It panics if the runtime
tells a timer that it has been shut down, so that is excluded; and the start of a timer
adds a duration to `Instant::now()`, which panics if the sum cannot be represented (see
`resetContinueTimer`).
-/

namespace Rtsp

namespace RequestHandler

variable {URI URIError : Type}

/-- The response to a request that never reaches the service. -/
def rejection [RequestURI URI URIError] (request : Request URI) : Option Response :=
  if RequestURI.isRtspu request.uri then some NOT_IMPLEMENTED_RESPONSE
  else if (request.headers.typedGet ContentLength).any (0 < ·.val) &&
      !request.headers.containsKey (.standard .contentType) then some BAD_REQUEST_RESPONSE
  else none

theorem processRequest_eq [RequestURI URI URIError] (senderOpen : Bool) (cseq : CSeq)
    (request : Request URI) (s : State URI) :
    processRequest senderOpen cseq request s = match rejection request with
      | some response => sendResponse senderOpen cseq response s
      | none => callService cseq request s := by
  unfold processRequest rejection
  split
  · rfl
  · cases request.headers.typedGet ContentLength with
    | none => rfl
    | some contentLength =>
      simp only [Option.any_some]
      split <;> rfl

/-- What the handler does in one turn, given whether the sender is there. -/
inductive Turn [RequestURI URI URIError] (senderOpen : Bool) : State URI → State URI → Prop where
  /-- The timer expires, and is set again. -/
  | expire {h t h' t' cseq} : h.servicedRequest = some cseq → h.continueTimer = true →
      sendResponse senderOpen cseq CONTINUE_RESPONSE (h, t) = (h', t') →
      Turn senderOpen (h, t) (h'.resetContinueTimer, t')
  /-- There are too many timers. -/
  | shed {h t} : Turn senderOpen (h, t) ({ h with continueTimer := false }, t)
  /-- The final response to the request in service. -/
  | respond {h t cseq} (response : Response) : h.servicedRequest = some cseq →
      Turn senderOpen (h, t) (respond senderOpen cseq response (h, t))
  | reject {h t cseq request incoming response} : h.servicedRequest = none →
      h.incoming = (cseq, request) :: incoming → rejection request = some response →
      Turn senderOpen (h, t) (sendResponse senderOpen cseq response ({ h with incoming }, t))
  | call {h t cseq request incoming} : h.servicedRequest = none →
      h.incoming = (cseq, request) :: incoming → rejection request = none →
      Turn senderOpen (h, t) (callService cseq request ({ h with incoming }, t))
  | shutdown {h t} : h.servicedRequest = none → h.incoming = [] → h.incomingEnded = true →
      Turn senderOpen (h, t) (shutdown (h, t))

abbrev Turns [RequestURI URI URIError] (senderOpen : Bool) : State URI → State URI → Prop :=
  Relation.ReflTransGen (Turn senderOpen)

section Polls

variable [RequestURI URI URIError]

/-- Sending a response changes the handler in nothing but its handle on the sender. -/
theorem sendResponse_fst (senderOpen : Bool) (cseq : CSeq) (response : Response)
    (h : RequestHandler URI) (t : List (Event URI)) :
    (sendResponse senderOpen cseq response (h, t)).1 =
      { h with senderHandle := h.senderHandle && senderOpen } := by
  obtain ⟨timer, duration, incoming, ended, handle, serviced, event⟩ := h
  unfold sendResponse
  cases handle <;> cases senderOpen <;> rfl

/-- Resetting the timer changes nothing but the timer. -/
theorem resetContinueTimer_eq (h : RequestHandler URI) : h.resetContinueTimer =
    { h with continueTimer := h.continueTimer || h.continueWaitDuration.isSome } := by
  obtain ⟨timer, duration, incoming, ended, handle, serviced, event⟩ := h
  unfold resetContinueTimer
  cases duration <;> simp

/-- Polling the timer is a series of turns, and leaves the request in service. -/
theorem pollContinueTimer_turns {senderOpen : Bool} {cseq : CSeq} {answers : List DelayAnswer}
    {s s' : State URI} {a : Async Unit} (hs : s.1.servicedRequest = some cseq)
    (h : pollContinueTimer senderOpen cseq answers s = .ok (a, s')) :
    Turns senderOpen s s' ∧ s'.1.incoming = s.1.incoming := by
  induction answers generalizing s with
  | nil =>
    unfold pollContinueTimer at h
    split at h <;> cases h <;> exact ⟨.refl, rfl⟩
  | cons answer answers ih =>
    obtain ⟨r, t⟩ := s
    cases answer with
    | expired =>
      unfold pollContinueTimer at h
      dsimp only at h
      split at h
      · next htimer =>
        have hsent := sendResponse_fst senderOpen cseq CONTINUE_RESPONSE r t
        obtain ⟨hturns, hrest⟩ := ih (by simpa [resetContinueTimer_eq, hsent] using hs) h
        refine ⟨.head (.expire hs htimer rfl) hturns, ?_⟩
        rw [hrest]
        simp [resetContinueTimer_eq, hsent]
      · cases h
        exact ⟨.refl, rfl⟩
    | atCapacity =>
      unfold pollContinueTimer at h
      split at h
      · obtain ⟨hturns, hrest⟩ := ih (s := ({ r with continueTimer := false }, t)) hs h
        exact ⟨.head .shed hturns, hrest⟩
      · cases h
        exact ⟨.refl, rfl⟩
    | shutdown =>
      unfold pollContinueTimer at h
      split at h
      · cases h
      · cases h
        exact ⟨.refl, rfl⟩
    | notReady =>
      unfold pollContinueTimer at h
      split at h <;> cases h <;> exact ⟨.refl, rfl⟩

/-- A request in service that is ready is so no longer. -/
theorem pollServicedRequest_turns {env : Answers} {answer : ServiceAnswer} {s s' : State URI}
    {a : Async Unit} (h : pollServicedRequest env answer s = .ok (a, s')) :
    Turns env.senderOpen s s' ∧ s'.1.incoming = s.1.incoming ∧
      (a = .ready () → s'.1.servicedRequest = none) := by
  obtain ⟨r, t⟩ := s
  unfold pollServicedRequest at h
  dsimp only at h
  cases hs : r.servicedRequest with
  | none =>
    rw [hs] at h
    cases h
    exact ⟨.refl, rfl, fun _ => hs⟩
  | some cseq =>
    rw [hs] at h
    have hresponded : ∀ response, .ok (.ready (), respond env.senderOpen cseq response (r, t)) =
        (.ok (a, s') : Rust (Async Unit × State URI)) →
        Turns env.senderOpen (r, t) s' ∧ s'.1.incoming = r.incoming ∧
          (a = .ready () → s'.1.servicedRequest = none) := by
      intro response h
      cases h
      refine ⟨.single (.respond response hs), ?_, fun _ => rfl⟩
      show (sendResponse env.senderOpen cseq response (r, t)).1.incoming = r.incoming
      rw [sendResponse_fst]
    cases answer with
    | ready response => exact hresponded response h
    | error => exact hresponded _ h
    | notReady =>
      obtain ⟨⟨result, s''⟩, htimer, h⟩ := bind_eq_ok h
      obtain ⟨hturns, hincoming⟩ := pollContinueTimer_turns hs htimer
      -- Whatever the timer answered, the poll is not ready.
      cases result <;> cases h <;> exact ⟨hturns, hincoming, nofun⟩

theorem pollLoop_turns {env : Answers} {answers : List ServiceAnswer}
    {incoming : List (CSeq × Request URI)} {s s' : State URI} {a : Async Unit}
    (hs : s.1.incoming = incoming) (h : pollLoop env answers incoming s = .ok (a, s')) :
    Turns env.senderOpen s s' := by
  induction incoming generalizing answers s with
  | nil =>
    obtain ⟨⟨result, r, t⟩, hserviced, h⟩ := bind_eq_ok h
    obtain ⟨hturns, hincoming, hready⟩ := pollServicedRequest_turns hserviced
    cases result with
    | notReady =>
      cases h
      exact hturns
    | ready =>
      dsimp only at h
      split at h
      · next hended =>
        cases h
        exact hturns.tail (.shutdown (hready rfl) (hincoming.trans hs) hended)
      · cases h
        exact hturns
  | cons next incoming ih =>
    obtain ⟨cseq, request⟩ := next
    obtain ⟨⟨result, r, t⟩, hserviced, h⟩ := bind_eq_ok h
    obtain ⟨hturns, hincoming, hready⟩ := pollServicedRequest_turns hserviced
    cases result with
    | notReady =>
      cases h
      exact hturns
    | ready =>
      dsimp only at h
      rw [processRequest_eq] at h
      have hnext := hincoming.trans hs
      cases hrejected : rejection request with
      | some response =>
        rw [hrejected] at h
        refine (hturns.tail (.reject (hready rfl) hnext hrejected)).trans (ih ?_ h)
        rw [sendResponse_fst]
      | none =>
        rw [hrejected] at h
        refine (hturns.tail (.call (hready rfl) hnext hrejected)).trans (ih ?_ h)
        simp [callService, resetContinueTimer_eq]

/-- **A poll of the handler is a series of turns.** -/
theorem poll_turns {r : RequestHandler URI} {env : Answers} {a : Async Unit} {s : State URI}
    (h : r.poll env = .ok (a, s)) : Turns env.senderOpen (r, []) s :=
  pollLoop_turns rfl h

/-! ### Polls return -/

theorem pollContinueTimer_returns (senderOpen : Bool) (cseq : CSeq) {answers : List DelayAnswer}
    (hanswers : .shutdown ∉ answers) (s : State URI) :
    ∃ out, pollContinueTimer senderOpen cseq answers s = .ok out := by
  induction answers generalizing s with
  | nil =>
    unfold pollContinueTimer
    split <;> exact ⟨_, rfl⟩
  | cons answer answers ih =>
    have hrest := ih (List.not_mem_of_not_mem_cons hanswers)
    cases answer with
    | shutdown => exact absurd (.head _) hanswers
    | expired =>
      unfold pollContinueTimer
      dsimp only
      split
      · exact hrest _
      · exact ⟨_, rfl⟩
    | atCapacity =>
      unfold pollContinueTimer
      split
      · exact hrest _
      · exact ⟨_, rfl⟩
    | notReady =>
      unfold pollContinueTimer
      split <;> exact ⟨_, rfl⟩

theorem pollServicedRequest_returns {env : Answers} (hanswers : .shutdown ∉ env.timer)
    (answer : ServiceAnswer) (s : State URI) :
    ∃ out, pollServicedRequest env answer s = .ok out := by
  obtain ⟨r, t⟩ := s
  unfold pollServicedRequest
  dsimp only
  cases r.servicedRequest with
  | none => exact ⟨_, rfl⟩
  | some cseq =>
    cases answer with
    | ready response => exact ⟨_, rfl⟩
    | error => exact ⟨_, rfl⟩
    | notReady =>
      obtain ⟨out, hout⟩ := pollContinueTimer_returns env.senderOpen cseq hanswers (r, t)
      refine ⟨(tryReady out.1 fun _ => .notReady, out.2), ?_⟩
      dsimp only
      rw [hout]
      rfl

/-- **A poll returns**, as long as the runtime keeps its timers. -/
theorem poll_returns {env : Answers} (hanswers : .shutdown ∉ env.timer)
    (r : RequestHandler URI) : ∃ out, r.poll env = .ok out := by
  have hloop : ∀ (incoming : List (CSeq × Request URI)) answers (s : State URI),
      ∃ out, pollLoop env answers incoming s = .ok out := by
    intro incoming
    induction incoming with
    | nil =>
      intro answers s
      obtain ⟨⟨result, s'⟩, hout⟩ :=
        pollServicedRequest_returns hanswers (answers.head?.getD .notReady) s
      rw [pollLoop, hout, ok_bind]
      cases result with
      | notReady => exact ⟨_, rfl⟩
      | ready =>
        dsimp only
        split <;> exact ⟨_, rfl⟩
    | cons next incoming ih =>
      intro answers s
      obtain ⟨⟨result, s'⟩, hout⟩ :=
        pollServicedRequest_returns hanswers (answers.head?.getD .notReady) s
      rw [pollLoop, hout, ok_bind]
      cases result with
      | notReady => exact ⟨_, rfl⟩
      | ready => exact ih _ _
  exact hloop _ _ _

end Polls

end RequestHandler
end Rtsp
