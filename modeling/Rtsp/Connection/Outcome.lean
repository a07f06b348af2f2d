import Rtsp.Connection.Replies

/-!
# A request that is sent has an outcome

A `SendRequest` expects that its channel is not closed without a message. The
response receiver sees to it when it is dropped: it works off the queue, and then
tells everybody who is still waiting. Between the two another thread can queue a
pending request, which is dropped with the queue and not told (`dropped_untold`).
Where that does not happen, every future that has been returned finds a response,
or that its request was cancelled (`outcome`).

To find the outcome may take more than one look, one for each Continue; `resolve` is
`poll_request` called so often, when nothing else happens between. It is not what the
future does by itself (`Connection.Continues`): it says what is there to be found.

The condition is on steps, and there are two things in it. A pending request must not be
queued once the receiver has looked at the queue for the last time. In the code nothing
prevents that, for the handles' end of the queue is closed only when the receiver drops
its own. And no update may take an entry away from another request, which can happen
when numbers have wrapped all the way round.

The condition is enough, and nothing is said to the effect that it is needed at every
step: a run can break it and still be lucky.
-/

namespace Rtsp

open Lib

/-! ## Looking for the outcome -/

namespace SendRequest

/-- What `poll_request` comes to in so many calls, when nothing else happens. -/
def resolve : Nat → SendRequest → Channels → Rust (Poll Response OperationError)
  | 0, _, _ => .ok (.ok .notReady)
  | k + 1, r, channels =>
    match r.pollRequest channels with
    | .ok (.ok .notReady, r, channels) => resolve k r channels
    | .ok (answer, _, _) => .ok answer
    | .error panic => .error panic

variable {r : SendRequest} {channels : Channels} {n h e : Nat}
  {last : Oneshot PendingRequestResponse}

/-- Each Continue takes a call. -/
theorem resolve_chain (hchain : Chain channels n h e last) (hrx : r.rxResponse = ⟨n, h⟩) :
    ∃ r' channels', r'.rxResponse = ⟨n, e⟩ ∧ channels' ⟨n, e⟩ = last ∧
      ∀ k, resolve (e - h + k) r channels = resolve k r' channels' := by
  obtain ⟨d, rfl⟩ := Nat.exists_eq_add_of_le hchain.le
  induction d generalizing r channels h with
  | zero =>
    refine ⟨r, channels, hrx, hchain.last, fun k => ?_⟩
    rw [Nat.add_zero, Nat.sub_self, Nat.zero_add]
  | succ d ih =>
    have hlt : h < h + (d + 1) := Nat.lt_add_of_pos_right (Nat.succ_pos d)
    have hcontinue : channels r.rxResponse = .filled (.«continue» ⟨n, h + 1⟩) := by
      rw [hrx]
      exact hchain.continues h (Nat.le_refl h) hlt
    have htaken := hchain.take hlt ⟨true, none⟩
    rw [show h + (d + 1) = h + 1 + d by rw [Nat.add_right_comm, Nat.add_assoc]] at htaken ⊢
    obtain ⟨r', channels', hrx', hlast, hsame⟩ :=
      ih (r := { r with rxResponse := ⟨n, h + 1⟩, timer := r.timeoutDuration }) rfl htaken
    refine ⟨r', channels', hrx', hlast, fun k => ?_⟩
    rw [← hsame k, show h + 1 + d - h + k = h + 1 + d - (h + 1) + k + 1 by omega, resolve,
      pollRequest, hcontinue, hrx]
    rfl

/-- A channel in which nothing has happened is looked at in vain. -/
theorem resolve_new (hnew : channels r.rxResponse = .new) (k : Nat) :
    resolve k r channels = .ok (.ok .notReady) := by
  induction k with
  | zero => rfl
  | succ k ih =>
    have hsame : channels.put r.rxResponse .new = channels := by
      rw [← hnew, Channels.put_eq_self]
    rw [resolve, pollRequest, hnew, Oneshot.poll_new]
    dsimp only
    rw [hsame, ih]

/-- A response at the end of the chain is found. -/
theorem resolve_response {response : Response}
    (hchain : Chain channels n h e (.filled (.response response))) (hrx : r.rxResponse = ⟨n, h⟩) :
    resolve (e - h + 1) r channels = .ok (.ok (.ready response)) := by
  obtain ⟨r', channels', hrx', hlast, hsame⟩ := resolve_chain hchain hrx
  rw [hsame, resolve, pollRequest, hrx', hlast]
  rfl

/-- And so is the word that there will be none. -/
theorem resolve_none (hchain : Chain channels n h e (.filled .none))
    (hrx : r.rxResponse = ⟨n, h⟩) :
    resolve (e - h + 1) r channels = .ok (.error .requestCancelled) := by
  obtain ⟨r', channels', hrx', hlast, hsame⟩ := resolve_chain hchain hrx
  rw [hsame, resolve, pollRequest, hrx', hlast]
  rfl

end SendRequest

namespace Exchange

variable {s s' : Exchange}

/-! ## What a step has to mind -/

/-- What the condition on a step is. No pending request is queued between the last look at the
    queue and its closing, unless the message that goes with it is going to be refused; and
    what is queued takes no entry away from another request. -/
def isTimely (s : Exchange) (op : Op) : Bool :=
  (match op with
    | .addPendingRequest _ => decide (s.phase = .cancelling → s.senderOpen = false)
    | _ => true) &&
  (!s.phase.handlesUpdates || s.keepsOthers op)

/-- A step that minds the outcomes. -/
def TimelyStep (s : Exchange) (op : Op) (s' : Exchange) : Prop :=
  Step s op s' ∧ s.isTimely op = true

theorem timelyStep_of_exec (s : Exchange) (op : Op) (s' : Exchange)
    (h : (if s.isTimely op then s.exec op else none) = some s') : TimelyStep s op s' := by
  split at h
  · next htimely => exact ⟨step_of_exec h, htimely⟩
  · cases h

/-- The requests that may be lost: those whose call is going to fail. -/
def Fails (s : Exchange) (n : Nat) : Prop := s.requests n = none ∧ s.senderOpen = false

/-- The future of a request is made when its message has been queued. -/
theorem requests_of_step {op : Op} (h : Step s op s') {n : Nat} (hnone : s.requests n = none)
    (hclosed : s.senderOpen = false) : s'.requests n = none ∧ s'.senderOpen = false := by
  have hput : ∀ {m e₀}, s.requests m = some e₀ → ∀ e,
      Function.update s.requests m (some e) n = none := by
    intro m e₀ he₀ e
    have hne : n ≠ m := by
      rintro rfl
      cases hnone.symm.trans he₀
    rw [Function.update_of_ne hne, hnone]
  cases h with
  | addPendingRequest =>
    split
    · exact ⟨hnone, hclosed⟩
    · exact ⟨hnone, hclosed⟩
  | queueMessage _ _ hopen =>
    rw [hclosed] at hopen
    cases hopen
  | retract =>
    rw [retract, unboundedSend_eq]
    exact ⟨hnone, hclosed⟩
  | closeSender => exact ⟨hnone, rfl⟩
  | poll hr =>
    obtain ⟨e, he⟩ := requests_looked ..
    exact ⟨he ▸ hput hr e, (shared_looked ..).senderOpen.trans hclosed⟩
  | pollTimers _ _ hr => exact ⟨hput hr _, hclosed⟩
  | queueRemoval hr =>
    rw [unboundedSend_eq]
    exact ⟨hput hr _, hclosed⟩
  | closeReceiver hr =>
    obtain ⟨e, he⟩ := requests_closeReceiver ..
    exact ⟨he ▸ hput hr e, (shared_closeReceiver ..).senderOpen.trans hclosed⟩
  | drop hr =>
    obtain ⟨e, he⟩ := requests_drop ..
    exact ⟨he ▸ hput hr e, (shared_drop ..).senderOpen.trans hclosed⟩
  | _ => exact ⟨hnone, hclosed⟩

theorem served_run {first : CSeq} {ops : List Op} (h : Run TimelyStep (start first) ops s) :
    Ledger s ∧ Owned s ∧ Served s s.Fails := by
  refine h.invariant (I := fun s => Ledger s ∧ Owned s ∧ Served s s.Fails)
    ⟨Ledger.start first, Owned.start first, Served.start first _⟩ ?_
  rintro s₁ op s₂ ⟨hledger, howned, hserved⟩ ⟨hstep, htimely⟩
  have hledger₂ := hledger.step hstep
  obtain ⟨hqueue, hkeeps⟩ := Bool.and_eq_true_iff.mp htimely
  have hserved₂ : Served s₂ s₁.Fails := by
    refine hserved.step hledger howned hstep (fun hphase => ?_) fun options hop hphase => ?_
    · simpa [hphase] using hkeeps
    · obtain rfl := hop
      refine ⟨Option.eq_none_iff_forall_ne_some.mpr fun ⟨r, stage⟩ hr => ?_, ?_⟩
      · have hnumber := (hledger.request _ r stage hr).1
        exact Nat.lt_irrefl _ (List.getElem?_eq_some_iff.mp hnumber).1
      · exact of_decide_eq_true hqueue hphase
  exact ⟨hledger₂, howned.step hledger hstep,
    hserved₂.mono fun n _ _ _ hfails => requests_of_step hstep hfails.1 hfails.2⟩

/-! ## The result -/

/-- **A request that is sent gets an outcome.** In every run of timely steps, a future that has
    been returned and not been given its outcome has a channel that is not closed without a
    message, so that looking at it does not panic. Once the response receiver is gone, the
    future finds that the request was cancelled, or a response that came before. -/
theorem outcome {first : CSeq} {ops : List Op} (h : Run TimelyStep (start first) ops s) {n : Nat}
    {r : SendRequest} {stage : Stage} (hr : s.requests n = some (r, stage))
    (hstage : stage.listens = true) :
    ¬ (s.channels r.rxResponse).Canceled ∧
      (∃ looked, r.pollRequest s.channels = .ok looked) ∧
      (s.phase = .closed → ∃ k, r.resolve k s.channels = .ok (.error .requestCancelled) ∨
        ∃ response, response.headers.typedGet CSeq = some r.sequenceNumber ∧
          r.resolve k s.channels = .ok (.ok (.ready response))) := by
  obtain ⟨hledger, howned, hserved⟩ := served_run h
  obtain ⟨e, last, hchain, hend⟩ := hserved n _ _ (.request hr hstage)
  have hrx : r.rxResponse = ⟨n, r.rxResponse.hop⟩ := by rw [← (hledger.request n r stage hr).2]
  have hsent : ¬ s.Fails n := fun hfails => by cases hfails.1.symm.trans hr
  have hlistening : ¬ (s.channels r.rxResponse).Canceled := by
    intro hcanceled
    have hfirst := hchain.first
    rw [← hrx] at hfirst
    rcases hfirst with ⟨-, hlast⟩ | ⟨-, hcontinue⟩
    · rw [hlast] at hcanceled
      cases hend with
      | lost hfails => exact hsent hfails
      | expected => exact Oneshot.not_canceled_new hcanceled
      | late => exact Oneshot.not_canceled_new hcanceled
      | answered => exact Oneshot.not_canceled_filled _ hcanceled
      | told => exact Oneshot.not_canceled_filled _ hcanceled
    · rw [hcontinue] at hcanceled
      exact Oneshot.not_canceled_filled _ hcanceled
  refine ⟨hlistening, ?_, fun hclosed => ⟨e - r.rxResponse.hop + 1, ?_⟩⟩
  · have hlooks := r.pollRequest_cases s.channels
    generalize r.pollRequest s.channels = looked at hlooks ⊢
    cases hlooks with
    | canceled hcanceled => exact absurd hcanceled hlistening
    | _ => exact ⟨_, rfl⟩
  · cases hend with
    | expected hexpected =>
      rw [expected_of_done (by rw [hclosed]; rfl), howned.closed hclosed] at hexpected
      cases hexpected
    | answered hnumber => exact .inr ⟨_, hnumber, SendRequest.resolve_response hchain hrx⟩
    | told => exact .inl (SendRequest.resolve_none hchain hrx)
    | late hfails => exact absurd hfails hsent
    | lost hfails => exact absurd hfails hsent

/-- A request whose pending request is in the queue when the response receiver is dropped. -/
theorem outcome_cancelled : ∃ (s : Exchange) (r : SendRequest),
    s.requests 0 = some (r, .waiting) ∧ s.phase = .closed ∧
      ∃ k, r.resolve k s.channels = .ok (.error .requestCancelled) ∨
        ∃ response, response.headers.typedGet CSeq = some r.sequenceNumber ∧
          r.resolve k s.channels = .ok (.ok (.ready response)) := by
  let ops : List Op := [.addPendingRequest noTimeouts, .startDrop, .queueMessage, .handleUpdate,
    .drained, .cancelEntry ⟨7, by decide⟩, .closeQueue]
  let run := replay (fun s op => if isTimely s op then s.exec op else none)
    (start ⟨7, by decide⟩) ops
  have hrun : Run TimelyStep (start ⟨7, by decide⟩) ops (run.get (by decide +kernel)) :=
    .of_replay timelyStep_of_exec (Option.some_get _).symm
  have hr : (run.get (by decide +kernel)).requests 0 =
      some (SendRequest.new ⟨0, 0⟩ ⟨7, by decide⟩ noTimeouts, .waiting) := by decide +kernel
  have hclosed : (run.get (by decide +kernel)).phase = .closed := by decide +kernel
  exact ⟨_, _, hr, hclosed, (outcome hrun hr rfl).2.2 hclosed⟩

/-- **A pending request that is queued too late is dropped without a word**: after the last look
    at the queue, and before it is closed. -/
theorem dropped_untold : ¬ ∀ first ops s n r, Run Step (start first) ops s →
    s.requests n = some (r, .waiting) → ¬ (s.channels r.rxResponse).Canceled := by
  intro h
  let ops : List Op := [.startDrop, .drained, .addPendingRequest noTimeouts, .closeQueue,
    .queueMessage, .discard]
  let run := replay exec (start ⟨7, by decide⟩) ops
  have hrun : Run Step (start ⟨7, by decide⟩) ops (run.get (by decide +kernel)) :=
    .of_replay (fun _ _ _ => step_of_exec) (Option.some_get _).symm
  have hr : (run.get (by decide +kernel)).requests 0 =
      some (SendRequest.new ⟨0, 0⟩ ⟨7, by decide⟩ noTimeouts, .waiting) := by decide +kernel
  refine h _ _ _ 0 _ hrun hr ?_
  decide +kernel

end Exchange
end Rtsp
