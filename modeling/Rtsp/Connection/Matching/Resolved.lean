import Rtsp.Connection.Matching.Handled

/-!
# What futures have returned

A response that is in a channel has the number of the request that the channel is of,
and so has one that a future has returned; and no future returns twice (`Resolved`).
This is safety only, it needs no bound on the numbers, and it says nothing of *which*
request with a number gets the response.

A future that has returned stays in the state, in one of the stages of `Stage.isOver`.
Rust's rule that a future is not polled once it is ready is part of the steps
(`Exchange.Step.poll` asks for `waiting`), so `once` is about the futures of this crate
and not about their callers.
-/

namespace Rtsp

open Lib

/-- The stages of a future that has been given its outcome, or is about to be gone. -/
def Stage.isOver : Stage → Bool
  | returned | dropped | cancelling none | closing none => true
  | waiting | timers | panicked | cancelling (some _) | closing (some _) => false

/-- The reply channel leads to the response. -/
def SendRequest.Receives (r : SendRequest) (channels : Channels) (response : Response) : Prop :=
  ∃ k, r.resolve k channels = .ok (.ok (.ready response))

namespace Exchange

variable {s s' : Exchange} {first : CSeq}

/-- A response has the number of request `n`. -/
def IsFor (s : Exchange) (n : Nat) (response : Response) : Prop :=
  ∃ c, s.numbers[n]? = some c ∧ response.headers.typedGet CSeq = some c

/-- A response goes to the request with its number, and a future returns once. -/
structure Resolved (s : Exchange) : Prop where
  replies : ∀ c response, (s.channels c).slot = some (.response response) →
    s.IsFor c.request response
  results : ∀ n response, (n, .ok response) ∈ s.results → s.IsFor n response
  ended : ∀ e ∈ s.results, ∃ r stage, s.requests e.1 = some (r, stage) ∧ stage.isOver = true
  once : (s.results.map (·.1)).Nodup

namespace Resolved

theorem start (first : CSeq) : Resolved (start first) where
  replies _ _ h := by cases h
  results := nofun
  ended := nofun
  once := List.nodup_nil

/-- The futures that have returned stay where they are, and no response comes. -/
theorem keep (hs : Resolved s)
    (hslots : ∀ c response, (s'.channels c).slot = some (.response response) →
      (s.channels c).slot = some (.response response))
    (hnumbers : ∀ (n : Nat) c, s.numbers[n]? = some c → s'.numbers[n]? = some c)
    (hresults : s'.results = s.results)
    (hended : ∀ n r stage, s.requests n = some (r, stage) → stage.isOver = true →
      ∃ r stage, s'.requests n = some (r, stage) ∧ stage.isOver = true) : Resolved s' where
  replies c response h := by
    obtain ⟨cseq, hnumber, hget⟩ := hs.replies c response (hslots c response h)
    exact ⟨cseq, hnumbers _ _ hnumber, hget⟩
  results n response h := by
    obtain ⟨cseq, hnumber, hget⟩ := hs.results n response (hresults ▸ h)
    exact ⟨cseq, hnumbers _ _ hnumber, hget⟩
  ended e he := by
    obtain ⟨r, stage, hr, hstage⟩ := hs.ended e (hresults ▸ he)
    exact hended e.1 r stage hr hstage
  once := hresults ▸ hs.once

/-- A future moves on. Once it has returned, it does not go back. -/
theorem putRequest (hs : Resolved s) {n : Nat} {r r' : SendRequest} {stage stage' : Stage}
    (hr : s.requests n = some (r, stage)) {channels : Channels}
    (hslots : ∀ c response, (channels c).slot = some (.response response) →
      (s.channels c).slot = some (.response response))
    (hstage : stage.isOver = true → stage'.isOver = true) :
    Resolved ({ s with channels }.putRequest n r' stage') := by
  refine hs.keep hslots (fun _ _ => id) rfl fun m r₁ stage₁ hr₁ hstage₁ => ?_
  by_cases hm : m = n
  · obtain rfl := hm
    cases hr.symm.trans hr₁
    exact ⟨r', stage', Function.update_self .., hstage hstage₁⟩
  · exact ⟨r₁, stage₁, (Function.update_of_ne hm _ _).trans hr₁, hstage₁⟩

/-- A future returns. -/
theorem finish (hs : Resolved s) {n : Nat} {r : SendRequest} {stage : Stage}
    (hr : s.requests n = some (r, stage)) (hstage : stage.isOver = false) {channels : Channels}
    (hslots : ∀ c response, (channels c).slot = some (.response response) →
      (s.channels c).slot = some (.response response))
    {result : Except OperationError Response}
    (hresult : ∀ response, result = .ok response → s.IsFor n response) :
    Resolved ({ s with channels }.finish n r result) := by
  have hput : Resolved ({ s with channels }.putRequest n r .returned) :=
    hs.putRequest hr hslots fun _ => rfl
  exact {
    replies := hput.replies
    results := fun m response h => by
      rcases List.mem_append.mp h with h | h
      · exact hput.results m response h
      · cases List.mem_singleton.mp h
        exact hresult response rfl
    ended := fun e he => by
      rcases List.mem_append.mp he with he | he
      · exact hput.ended e he
      · rw [List.mem_singleton.mp he]
        exact ⟨r, .returned, Function.update_self .., rfl⟩
    once := by
      rw [show (({ s with channels } : Exchange).finish n r result).results =
        s.results ++ [(n, result)] from rfl, List.map_append, List.nodup_append]
      refine ⟨hs.once, List.nodup_singleton _, fun m hm m' hm' hsame => ?_⟩
      obtain ⟨e, he, rfl⟩ := List.mem_map.mp hm
      obtain ⟨r₁, stage₁, hr₁, hstage₁⟩ := hs.ended e he
      rw [hsame, List.mem_singleton.mp hm', hr] at hr₁
      cases hr₁
      rw [hstage] at hstage₁
      cases hstage₁ }

/-- A message that is taken out of a channel is gone. -/
theorem slot_taken {channels : Channels} {c c' : ReplyChannel} {message : PendingRequestResponse}
    (h : (channels.put c ⟨true, none⟩ c').slot = some message) :
    (channels c').slot = some message := by
  by_cases hc : c' = c
  · rw [hc, Channels.put_self] at h
    cases h
  · rwa [Channels.put_of_ne _ _ hc] at h

theorem looked (hledger : Ledger s) (hs : Resolved s) {n : Nat} {r : SendRequest}
    (hr : s.requests n = some (r, .waiting)) :
    Resolved (s.looked n (r.pollRequest s.channels) r) := by
  have hlooks := r.pollRequest_cases s.channels
  generalize r.pollRequest s.channels = looked at hlooks
  cases hlooks with
  | notReady _ => exact hs.putRequest hr (fun _ _ => id) nofun
  | «continue» _ => exact hs.putRequest hr (fun _ _ => slot_taken) nofun
  | none _ => exact hs.finish hr rfl (fun _ _ => slot_taken) nofun
  | response hresponse =>
    refine hs.finish hr rfl (fun _ _ => slot_taken) fun response heq => ?_
    obtain rfl := Except.ok.inj heq
    rw [← (hledger.request n r _ hr).2]
    exact hs.replies r.rxResponse _ (by rw [hresponse]; rfl)
  | canceled _ => exact hs.putRequest hr (fun _ _ => id) nofun

theorem closeReceiver (hs : Resolved s) {n : Nat} {r : SendRequest}
    {error : Option OperationError} (hr : s.requests n = some (r, .closing error)) :
    Resolved (s.closeReceiver n r error) := by
  cases error with
  | some error => exact hs.finish hr rfl (fun c _ h => Channels.slot_close .. ▸ h) nofun
  | none => exact hs.putRequest hr (fun c _ h => Channels.slot_dropReceiver .. ▸ h) fun _ => rfl

theorem drop (hs : Resolved s) {n : Nat} {r : SendRequest} {stage : Stage}
    (hr : s.requests n = some (r, stage)) : Resolved (s.drop n r) := by
  have hchecks := r.pollIsCancelled_cases s.channels
  unfold Exchange.drop
  generalize r.pollIsCancelled s.channels = checked at hchecks ⊢
  obtain ⟨cancelled, channels⟩ := checked
  cases hchecks with
  | cancelled _ =>
    exact hs.putRequest hr (fun c _ h => Channels.slot_dropReceiver .. ▸ h) fun _ => rfl
  | notReady _ => exact hs.putRequest hr (fun _ _ => id) fun _ => rfl
  | «continue» _ =>
    refine hs.putRequest hr (fun c _ h => slot_taken (c := r.rxResponse) ?_) fun _ => rfl
    exact Channels.slot_dropReceiver .. ▸ h
  | taken _ _ => exact hs.putRequest hr (fun _ _ => slot_taken) fun _ => rfl

/-- A message is sent, if the channel is open. -/
theorem slot_deliver {tx : ReplyChannel} {message : PendingRequestResponse} {c : ReplyChannel}
    {response : Response}
    (h : ((s.channels.deliver (ResponseReceiver.send s.isClosed tx message)) c).slot =
      some (.response response)) :
    (s.channels c).slot = some (.response response) ∨ c = tx ∧ message = .response response := by
  cases hclosed : s.isClosed tx with
  | true =>
    rw [ResponseReceiver.send_of_closed hclosed] at h
    exact .inl h
  | false =>
    rw [ResponseReceiver.send_of_open hclosed, Channels.deliver_singleton,
      Oneshot.send_of_open hclosed] at h
    by_cases hc : c = tx
    · rw [hc, Channels.put_self] at h
      exact .inr ⟨hc, Option.some.inj h⟩
    · rw [Channels.put_of_ne _ _ hc] at h
      exact .inl h

theorem respond (hledger : Ledger s) (hs : Resolved s) (response : Response) :
    Resolved (s.respond response) := by
  have hhandles := s.receiver.handleResponse_cases s.isClosed response
  unfold Exchange.respond
  generalize s.receiver.handleResponse s.isClosed response = handled at hhandles ⊢
  obtain ⟨receiver, ds⟩ := handled
  cases hhandles with
  | ignored _ => exact { hs with }
  | continued _ _ _ hopen =>
    rw [← ResponseReceiver.send_of_open hopen]
    refine hs.keep (fun c response h => ?_) (fun _ _ => id) rfl fun _ r stage hr hstage =>
      ⟨r, stage, hr, hstage⟩
    exact (slot_deliver h).resolve_right nofun
  | @delivered c₀ tx₀ hnumber h₀ _ hopen =>
    rw [← ResponseReceiver.send_of_open hopen]
    exact { hs with
      replies := fun c response' h => by
        rcases slot_deliver h with h | ⟨rfl, heq⟩
        · exact hs.replies c response' h
        · cases heq
          exact ⟨c₀, hledger.entered c₀ _ (.inl h₀), hnumber⟩ }
  | closed _ _ _ => exact { hs with }

/-- **Every step matches responses by their number**, and lets no future return twice. -/
theorem step {op : Op} (hledger : Ledger s) (hs : Resolved s) (h : Step s op s') :
    Resolved s' := by
  cases h with
  | addPendingRequest options =>
    split
    · exact hs
    · refine hs.keep (fun _ _ => id) (fun n c hn => ?_) rfl fun _ r stage hr hstage =>
        ⟨r, stage, hr, hstage⟩
      exact (List.getElem?_append_left (List.getElem?_eq_some_iff.mp hn).1).trans hn
  | @queueMessage call hcall =>
    refine hs.keep (fun _ _ => id) (fun _ _ => id) rfl fun n r stage hr hstage => ?_
    have hne : n ≠ call.request := by
      rintro rfl
      cases (hledger.call call hcall).2.2.symm.trans hr
    exact ⟨r, stage, (Function.update_of_ne hne _ _).trans hr, hstage⟩
  | retract =>
    rw [retract, unboundedSend_eq]
    exact hs.keep (fun c _ h => Channels.slot_dropReceiver .. ▸ h) (fun _ _ => id) rfl
      fun _ r stage hr hstage => ⟨r, stage, hr, hstage⟩
  | @handleUpdate u us _ _ =>
    refine hs.keep (fun c _ h => ?_) (fun _ _ => id) rfl fun _ r stage hr hstage =>
      ⟨r, stage, hr, hstage⟩
    unfold handleUpdate at h
    cases hdisplaced : s.receiver.pendingRequests.lookup u.cseq with
    | none =>
      rw [hdisplaced] at h
      exact h
    | some tx =>
      rw [hdisplaced] at h
      exact Channels.slot_close .. ▸ h
  | respond response => exact hs.respond hledger response
  | cancelEntry =>
    refine hs.keep (fun c _ h => ?_) (fun _ _ => id) rfl fun _ r stage hr hstage =>
      ⟨r, stage, hr, hstage⟩
    exact (slot_deliver h).resolve_right fun h => by cases h.2
  | @discard u us _ _ =>
    refine hs.keep (fun c _ h => ?_) (fun _ _ => id) rfl fun _ r stage hr hstage =>
      ⟨r, stage, hr, hstage⟩
    cases u with
    | addPendingRequest => exact Channels.slot_close .. ▸ h
    | removePendingRequest => exact h
  | poll hr => exact hs.looked hledger hr
  | pollTimers _ _ hr => exact hs.putRequest hr (fun _ _ => id) fun h => by cases h
  | @queueRemoval n r error hr =>
    have hput : Resolved (s.putRequest n r (.closing error)) := by
      refine hs.putRequest hr (fun _ _ => id) ?_
      cases error with
      | none => exact id
      | some error => exact fun h => by cases h
    rw [unboundedSend_eq]
    exact { hput with }
  | closeReceiver hr => exact hs.closeReceiver hr
  | drop hr => exact hs.drop hr
  | _ => exact { hs with }

end Resolved

end Exchange
end Rtsp
