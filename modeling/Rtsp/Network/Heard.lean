import Rtsp.Connection.Matching

/-!
# Responses that were heard

A future returns nothing that the response receiver was not given: what holds of
every final response that is read holds of the responses on their way through the
reply channels and of those returned (`Exchange.Heard`).

It is stated for any property of responses, since what will be wanted of them is where
they come from, and that is not a notion of the client's alone. The property may not
depend on the state; where it does, the result is used at each step again.
-/

namespace Rtsp

open Lib

namespace Exchange

variable {s s' : Exchange} {P Q : Response → Prop}

/-- The responses in the channels and those that futures have returned have a property. -/
structure Heard (P : Response → Prop) (s : Exchange) : Prop where
  slots : ∀ c response, (s.channels c).slot = some (.response response) → P response
  results : ∀ n response, (n, .ok response) ∈ s.results → P response

namespace Heard

theorem start (first : CSeq) (P : Response → Prop) : Heard P (start first) where
  slots _ _ h := by cases h
  results := nofun

theorem mono (hs : Heard P s) (h : ∀ response, P response → Q response) : Heard Q s :=
  ⟨fun c response hc => h response (hs.slots c response hc),
    fun n response hn => h response (hs.results n response hn)⟩

/-- No response comes and no future returns. -/
theorem keep (hs : Heard P s)
    (hslots : ∀ c response, (s'.channels c).slot = some (.response response) →
      (s.channels c).slot = some (.response response))
    (hresults : s'.results = s.results) : Heard P s' :=
  ⟨fun c response h => hs.slots c response (hslots c response h),
    fun n response h => hs.results n response (hresults ▸ h)⟩

/-- A future returns. -/
theorem finish (hs : Heard P s) {n : Nat} {r : SendRequest} {channels : Channels}
    (hslots : ∀ c response, (channels c).slot = some (.response response) →
      (s.channels c).slot = some (.response response))
    {result : Except OperationError Response}
    (hresult : ∀ response, result = .ok response → P response) :
    Heard P ({ s with channels }.finish n r result) where
  slots c response h := hs.slots c response (hslots c response h)
  results m response h := by
    rcases List.mem_append.mp h with h | h
    · exact hs.results m response h
    · cases List.mem_singleton.mp h
      exact hresult response rfl

theorem looked (hs : Heard P s) (n : Nat) (r : SendRequest) :
    Heard P (s.looked n (r.pollRequest s.channels) r) := by
  have hlooks := r.pollRequest_cases s.channels
  generalize r.pollRequest s.channels = looked at hlooks
  cases hlooks with
  | notReady _ => exact hs.keep (fun _ _ => id) rfl
  | «continue» _ => exact hs.keep (fun _ _ => Resolved.slot_taken) rfl
  | none _ => exact hs.finish (fun _ _ => Resolved.slot_taken) nofun
  | response hresponse =>
    refine hs.finish (fun _ _ => Resolved.slot_taken) fun response heq => ?_
    obtain rfl := Except.ok.inj heq
    exact hs.slots r.rxResponse _ (by rw [hresponse]; rfl)
  | canceled _ => exact hs.keep (fun _ _ => id) rfl

theorem closeReceiver (hs : Heard P s) (n : Nat) (r : SendRequest)
    (error : Option OperationError) : Heard P (s.closeReceiver n r error) := by
  cases error with
  | some error => exact hs.finish (fun c _ h => Channels.slot_close .. ▸ h) nofun
  | none => exact hs.keep (fun c _ h => Channels.slot_dropReceiver .. ▸ h) rfl

theorem drop (hs : Heard P s) (n : Nat) (r : SendRequest) : Heard P (s.drop n r) := by
  have hchecks := r.pollIsCancelled_cases s.channels
  unfold Exchange.drop
  generalize r.pollIsCancelled s.channels = checked at hchecks ⊢
  obtain ⟨cancelled, channels⟩ := checked
  cases hchecks with
  | cancelled _ => exact hs.keep (fun c _ h => Channels.slot_dropReceiver .. ▸ h) rfl
  | notReady _ => exact hs.keep (fun _ _ => id) rfl
  | «continue» _ =>
    refine hs.keep (fun c _ h => Resolved.slot_taken (c := r.rxResponse) ?_) rfl
    exact Channels.slot_dropReceiver .. ▸ h
  | taken _ _ => exact hs.keep (fun _ _ => Resolved.slot_taken) rfl

/-- What is handled is heard, unless it tells to wait. -/
theorem respond (hs : Heard P s) {response : Response}
    (hresponse : response.statusCode ≠ .standard .«continue» → P response) :
    Heard P (s.respond response) := by
  have hhandles := s.receiver.handleResponse_cases s.isClosed response
  unfold Exchange.respond
  generalize s.receiver.handleResponse s.isClosed response = handled at hhandles ⊢
  obtain ⟨receiver, ds⟩ := handled
  cases hhandles with
  | ignored _ => exact ⟨hs.slots, hs.results⟩
  | continued _ _ _ hopen =>
    rw [← ResponseReceiver.send_of_open hopen]
    exact hs.keep (fun c response h => (Resolved.slot_deliver h).resolve_right nofun) rfl
  | delivered _ _ hfinal hopen =>
    rw [← ResponseReceiver.send_of_open hopen]
    refine ⟨fun c response' h => ?_, hs.results⟩
    rcases Resolved.slot_deliver h with h | ⟨-, heq⟩
    · exact hs.slots c response' h
    · cases heq
      exact hresponse hfinal
  | closed _ _ _ => exact ⟨hs.slots, hs.results⟩

/-- **Every step returns only what was heard.** -/
theorem step {op : Op} (hs : Heard P s) (h : Step s op s')
    (hop : ∀ response, op = .respond response →
      response.statusCode ≠ .standard .«continue» → P response) : Heard P s' := by
  cases h with
  | addPendingRequest =>
    split
    · exact hs
    · exact hs.keep (fun _ _ => id) rfl
  | retract =>
    rw [retract, unboundedSend_eq]
    exact hs.keep (fun c _ h => Channels.slot_dropReceiver .. ▸ h) rfl
  | @handleUpdate u us _ _ =>
    refine hs.keep (fun c _ h => ?_) rfl
    unfold handleUpdate at h
    cases hdisplaced : s.receiver.pendingRequests.lookup u.cseq with
    | none =>
      rw [hdisplaced] at h
      exact h
    | some tx =>
      rw [hdisplaced] at h
      exact Channels.slot_close .. ▸ h
  | respond response => exact hs.respond (hop response rfl)
  | cancelEntry =>
    exact hs.keep (fun c _ h => (Resolved.slot_deliver h).resolve_right fun h => by cases h.2) rfl
  | @discard u us _ _ =>
    refine hs.keep (fun c _ h => ?_) rfl
    cases u with
    | addPendingRequest => exact Channels.slot_close .. ▸ h
    | removePendingRequest => exact h
  | poll _ => exact hs.looked _ _
  | queueRemoval _ =>
    rw [unboundedSend_eq]
    exact hs.keep (fun _ _ => id) rfl
  | closeReceiver _ => exact hs.closeReceiver _ _ _
  | drop _ _ => exact hs.drop _ _
  | _ => exact hs.keep (fun _ _ => id) rfl

end Heard

end Exchange
end Rtsp
