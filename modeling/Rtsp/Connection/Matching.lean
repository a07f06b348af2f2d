import Rtsp.Connection.Matching.Resolved

/-!
# Responses are matched to requests

A future resolves to a response with the number of its request, and once at most
(`Resolved`). As long as no number is used again (`Numbered`), what is queued takes no
entry away from another request, so whoever waits is served. A request that was written
is in the map when responses are read (`Handled`), and the first final response with its
number goes to it (`matched`). Another one that comes before the future has looked finds
no entry (`response_ignored`).

That last point is where the wording matters. The entry of a request goes with its first
final response, and the future may look at the channel much later. "While the future
waits" is therefore not enough for a response to be given to it, and `matched` asks that
it has not been given another one (`SendRequest.Receives`).

Continue responses are followed, not counted: they may come in any number before the
final one, and `Receives` lets the future look as often as it takes.
-/

namespace Rtsp

open Lib

namespace Exchange

variable {s s' : Exchange} {first : CSeq}

/-- What has been sent stays sent. -/
theorem sent_of_step {op : Op} (h : Step s op s') : s.sent.length ≤ s'.sent.length := by
  cases h with
  | addPendingRequest =>
    split
    · exact Nat.le_refl _
    · exact Nat.le_refl _
  | queueMessage =>
    rw [show (s.queueMessage _).sent = s.sent ++ [_] from rfl, List.length_append]
    exact Nat.le_add_right _ _
  | retract =>
    rw [retract, unboundedSend_eq]
  | queueRemoval =>
    rw [unboundedSend_eq]
    exact Nat.le_refl _
  | poll => exact Nat.le_of_eq (congrArg List.length (shared_looked ..).sent.symm)
  | closeReceiver => exact Nat.le_of_eq (congrArg List.length (shared_closeReceiver ..).sent.symm)
  | drop => exact Nat.le_of_eq (congrArg List.length (shared_drop ..).sent.symm)
  | _ => exact Nat.le_refl _

/-- What holds in every run, and what holds as long as the numbers last. -/
structure Matches (first : CSeq) (s : Exchange) : Prop where
  ledger : Ledger s
  owned : Owned s
  numbered : Numbered first s
  handled : Handled s
  resolved : Resolved s
  served : s.sent.length < 10 ^ 9 → Served s fun _ => True

theorem matches_run {ops : List Op} (h : Run Step (start first) ops s) : Matches first s := by
  refine h.invariant ⟨Ledger.start first, Owned.start first, Numbered.start first,
    Handled.start first, Resolved.start first, fun _ => Served.start first _⟩ ?_
  intro s₁ op s₂ hs hstep
  exact {
    ledger := hs.ledger.step hstep
    owned := hs.owned.step hs.ledger hstep
    numbered := hs.numbered.step hs.ledger hstep
    handled := hs.handled.step hs.ledger hstep
    resolved := hs.resolved.step hs.ledger hstep
    served := fun hfew => by
      have hfew₁ := Nat.lt_of_le_of_lt (sent_of_step hstep) hfew
      exact (hs.served hfew₁).step hs.ledger hs.owned hstep
        (fun _ => hs.numbered.keepsOthers hs.ledger hfew₁ hstep) fun _ _ _ => trivial }

/-- A final response for an entry is sent through its channel. -/
theorem respond_channels {c : CSeq} {tx : ReplyChannel} {response : Response}
    (hnumber : response.headers.typedGet CSeq = some c)
    (hfinal : response.statusCode ≠ .standard .«continue»)
    (htx : s.receiver.pendingRequests.lookup c = some tx) (hopen : s.channels tx = .new) :
    (s.respond response).channels = s.channels.put tx (.filled (.response response)) := by
  have hclosed : s.isClosed tx = false := by
    rw [isClosed, hopen]
    rfl
  show s.channels.deliver (s.receiver.handleResponse s.isClosed response).2 = _
  rw [ResponseReceiver.handleResponse, hnumber]
  dsimp only
  rw [htx]
  dsimp only
  rw [if_neg hfinal, ResponseReceiver.send_of_open hclosed, Channels.deliver_singleton, hopen,
    Oneshot.send_new]

/-- **Responses are matched to requests.** In every run that sends fewer requests than there are
    numbers, a future resolves to a response with the number of its request, and once at most.
    A final response that is read after the request with its number was written, while the
    future still waits and has not been given another final response, is given to it. -/
theorem matched {ops : List Op} (h : Run Step (start first) ops s)
    (hfew : s.sent.length < 10 ^ 9) :
    (∀ n response, (n, .ok response) ∈ s.results → ∃ r stage, s.requests n = some (r, stage) ∧
      response.headers.typedGet CSeq = some r.sequenceNumber) ∧
    (s.results.map (·.1)).Nodup ∧
    ∀ n r stage response, s.phase = .reading → n ∈ s.sent.take s.written →
      s.requests n = some (r, stage) → stage.listens = true →
      (∀ response', ¬ r.Receives s.channels response') →
      response.headers.typedGet CSeq = some r.sequenceNumber →
      response.statusCode ≠ .standard .«continue» →
      r.Receives (s.respond response).channels response := by
  have hs := matches_run h
  refine ⟨fun n response hresult => ?_, hs.resolved.once, ?_⟩
  · obtain ⟨r, stage, hr, -⟩ := hs.resolved.ended _ hresult
    obtain ⟨c, hnumber, hget⟩ := hs.resolved.results n response hresult
    rw [(hs.ledger.request n r stage hr).1] at hnumber
    exact ⟨r, stage, hr, hget.trans hnumber.symm⟩
  · intro n r stage response hreading hwritten hr hstage hunanswered hnumber hfinal
    have hphase : s.phase.handlesUpdates = true := by
      rw [hreading]
      rfl
    have hdone : s.phase.handlesUpdates ≠ false := by
      rw [hphase]
      exact nofun
    have hrx : r.rxResponse = ⟨n, r.rxResponse.hop⟩ := by
      rw [← (hs.ledger.request n r stage hr).2]
    obtain ⟨e, last, hchain, hend⟩ := hs.served hfew n _ _ (.request hr hstage)
    cases hend with
    | expected hexpected =>
      rw [expected_of_handles hphase] at hexpected
      -- The update has been handled, so the entry is in the map.
      rcases foldl_word_eq_some hexpected with hmem | ⟨htx, -⟩
      · exact absurd rfl (hs.handled.updates hreading n hwritten _ _ hmem)
      · refine ⟨e - r.rxResponse.hop + 1, ?_⟩
        rw [respond_channels hnumber hfinal htx hchain.last]
        exact SendRequest.resolve_response (hchain.put_last _) hrx
    | answered =>
      exact absurd ⟨_, SendRequest.resolve_response hchain hrx⟩ (hunanswered _)
    | told hphase' => exact absurd hphase' hdone
    | late _ hphase' => exact absurd hphase' hdone
    | lost _ hphase' => exact absurd hphase' hdone

/-- A request is sent under number 7 and written, and the next poll of the response receiver
    has handled its update. -/
def writeFirst : List Op :=
  [.addPendingRequest noTimeouts, .queueMessage, .write, .startPoll, .handleUpdate, .drained]

/-- The response to a request that was written. -/
theorem matched_first : ∃ (s : Exchange) (r : SendRequest), s.requests 0 = some (r, .waiting) ∧
    r.Receives (s.respond (responseTo ⟨7, by decide⟩ .ok)).channels
      (responseTo ⟨7, by decide⟩ .ok) := by
  let run := replay exec (start ⟨7, by decide⟩) writeFirst
  have hrun : Run Step (start ⟨7, by decide⟩) writeFirst (run.get (by decide +kernel)) :=
    .of_replay (fun _ _ _ => step_of_exec) (Option.some_get _).symm
  have hr : (run.get (by decide +kernel)).requests 0 =
      some (SendRequest.new ⟨0, 0⟩ ⟨7, by decide⟩ noTimeouts, .waiting) := by decide +kernel
  have hnew : (run.get (by decide +kernel)).channels ⟨0, 0⟩ = .new := by decide +kernel
  refine ⟨_, _, hr, (matched hrun (by decide +kernel)).2.2 0 _ .waiting _ (by decide +kernel)
    (by decide +kernel) hr rfl ?_ (CSeq.typedGet_typedInsert _ _) nofun⟩
  rintro response ⟨k, hk⟩
  rw [SendRequest.resolve_new hnew] at hk
  cases hk

/-- **Another final response finds no entry**, though the future has not looked at the first
    one yet. -/
theorem response_ignored : ¬ ∀ first ops s, Run Step (start first) ops s →
    s.sent.length < 10 ^ 9 → ∀ n r stage response, s.phase = .reading →
    n ∈ s.sent.take s.written → s.requests n = some (r, stage) → stage.listens = true →
    response.headers.typedGet CSeq = some r.sequenceNumber →
    response.statusCode ≠ .standard .«continue» →
    r.Receives (s.respond response).channels response := by
  intro h
  let ops := writeFirst ++ [.respond (responseTo ⟨7, by decide⟩ .ok)]
  let run := replay exec (start ⟨7, by decide⟩) ops
  have hrun : Run Step (start ⟨7, by decide⟩) ops (run.get (by decide +kernel)) :=
    .of_replay (fun _ _ _ => step_of_exec) (Option.some_get _).symm
  have hr : (run.get (by decide +kernel)).requests 0 =
      some (SendRequest.new ⟨0, 0⟩ ⟨7, by decide⟩ noTimeouts, .waiting) := by decide +kernel
  let second := responseTo ⟨7, by decide⟩ .notFound
  have hfirst : ((run.get (by decide +kernel)).respond second).channels ⟨0, 0⟩ =
      .filled (.response (responseTo ⟨7, by decide⟩ .ok)) := by decide +kernel
  obtain ⟨k, hk⟩ := h _ _ _ hrun (by decide +kernel) 0 _ .waiting second (by decide +kernel)
    (by decide +kernel) hr rfl (CSeq.typedGet_typedInsert _ _) nofun
  cases k with
  | zero => cases hk
  | succ k =>
    rw [SendRequest.resolve, SendRequest.pollRequest, SendRequest.new, hfirst] at hk
    have hsame : responseTo ⟨7, by decide⟩ .ok = second :=
      Async.ready.inj (Except.ok.inj (Except.ok.inj hk))
    revert hsame
    decide +kernel

end Exchange
end Rtsp
