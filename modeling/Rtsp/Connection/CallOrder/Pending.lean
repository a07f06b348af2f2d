import Rtsp.Connection.CallOrder.Queued

/-!
# What is left with the response receiver

A call that fails must leave nothing behind. It may have queued its pending request
before it found the sender gone, and then it queues the removal as well; but between the
two the entry may have been made, and it is not removed before the update is handled.
"Leaves no entry" can therefore not be said of the entries as they are. It is said of
the entries as they are going to be: `workedOff` is the response receiver once it has
handled everything that is in its queue, and `Pending` says that what it has then
belongs to a call that has not failed.

Responses can come in between, and a response takes an entry away or moves it on to the
next channel of the same request. That is harmless whether it happens before the queue
is worked off or after it (`foldl_handleResponse`), because the queue only adds and
removes entries by number.

`IsPending` holds of a call that has returned with success for good, so entries that
outlive their future are not excluded here. What removes those is the subject of
`Connection.Leaks`.
-/

namespace Rtsp

open Lib

namespace Calls

variable {URI : Type} {s s₁ s' : Calls URI} {n : Nat} {call : HandleCall URI} {c : CSeq}
  {shared : Shared URI}

/-- The response receiver once it has handled what is in the queue. -/
def workedOff (s : Calls URI) (r : ResponseReceiver) : ResponseReceiver :=
  s.shared.updates.foldl ResponseReceiver.handlePendingRequestUpdate r

theorem lookup_foldl (r : ResponseReceiver) (us : List PendingRequestUpdate) (c : CSeq) :
    (us.foldl ResponseReceiver.handlePendingRequestUpdate r).pendingRequests.lookup c =
      us.foldl (Exchange.word c) (r.pendingRequests.lookup c) := by
  induction us generalizing r with
  | nil => rfl
  | cons u us ih =>
    rw [List.foldl_cons, List.foldl_cons, ih,
      ResponseReceiver.lookup_handlePendingRequestUpdate]
    rfl

/-- A response takes an entry away, or hands it on to the next channel of the request. -/
theorem lookup_handleResponse {r : ResponseReceiver} {closed : ReplyChannel → Bool}
    {response : Response} {tx : ReplyChannel}
    (h : (r.handleResponse closed response).1.pendingRequests.lookup c = some tx) :
    ∃ tx₀, r.pendingRequests.lookup c = some tx₀ ∧ tx₀.request = tx.request := by
  have hhandles := r.handleResponse_cases closed response
  generalize r.handleResponse closed response = handled at hhandles h
  obtain ⟨r', ds⟩ := handled
  have herase : ∀ {cseq tx₀}, (r.pendingRequests.erase cseq).lookup c = some tx₀ →
      r.pendingRequests.lookup c = some tx₀ := by
    intro cseq tx₀ h
    by_cases hc : c = cseq
    · rw [hc, AList.lookup_erase] at h
      cases h
    · rwa [AList.lookup_erase_ne hc] at h
  cases hhandles with
  | ignored => exact ⟨tx, h, rfl⟩
  | @continued cseq tx₀ _ hlookup =>
    rw [show (r.pendingRequests.replace cseq tx₀.next).lookup c = _ from lookup_replace hlookup c]
      at h
    split at h
    · next hc =>
      cases h
      exact ⟨tx₀, hc ▸ hlookup, rfl⟩
    · exact ⟨tx, h, rfl⟩
  | delivered => exact ⟨tx, herase h, rfl⟩
  | closed => exact ⟨tx, herase h, rfl⟩

/-- It makes no difference to what the queue enters. -/
theorem foldl_handleResponse {r : ResponseReceiver} {closed : ReplyChannel → Bool}
    {response : Response} {tx : ReplyChannel} {us : List PendingRequestUpdate}
    (h : us.foldl (Exchange.word c)
      ((r.handleResponse closed response).1.pendingRequests.lookup c) = some tx) :
    ∃ tx₀, us.foldl (Exchange.word c) (r.pendingRequests.lookup c) = some tx₀ ∧
      tx₀.request = tx.request := by
  -- What the queue says about `c` counts, and what was there only if it says nothing.
  by_cases habout : ∃ u ∈ us, c = u.cseq
  · obtain ⟨u, hu, hc⟩ := habout
    exact ⟨tx, (Exchange.foldl_word_congr hu hc _ _).trans h, rfl⟩
  · have hall : ∀ u ∈ us, c ≠ u.cseq := fun u hu hc => habout ⟨u, hu, hc⟩
    rw [Exchange.foldl_word_of_ne _ hall] at h
    obtain ⟨tx₀, hlookup, hsame⟩ := lookup_handleResponse h
    exact ⟨tx₀, (Exchange.foldl_word_of_ne _ hall).trans hlookup, hsame⟩

/-- What is entered, or will be, belongs to a call that has not failed. -/
structure Pending (s : Calls URI) : Prop where
  listening : s.receiver.isSome → s.shared.updatesOpen = true
  entered : ∀ r c tx, s.receiver = some r →
    (s.workedOff r).pendingRequests.lookup c = some tx →
    ∃ call, s.calls tx.request = some call ∧ call.stage.IsPending c

theorem workedOff_append {u : PendingRequestUpdate} (r : ResponseReceiver)
    (h : s'.shared.updates = s.shared.updates ++ [u]) :
    s'.workedOff r = (s.workedOff r).handlePendingRequestUpdate u := by
  rw [workedOff, h, List.foldl_append]
  rfl

namespace Pending

/-- What a step of a call has to mind: the entries of the other calls stay. -/
theorem move (hs : Pending s) {stage : CallStage} {lock : Option Nat}
    (hopen : shared.updatesOpen = s.shared.updatesOpen)
    (hentered : ∀ r c tx, s.receiver = some r →
      (shared.updates.foldl ResponseReceiver.handlePendingRequestUpdate r).pendingRequests.lookup c
        = some tx →
      (tx.request = n ∧ stage.IsPending c) ∨
        tx.request ≠ n ∧ (s.workedOff r).pendingRequests.lookup c = some tx) :
    Pending ({ s with shared, lock }.put n call stage) := by
  refine ⟨fun h => hopen.trans (hs.listening h), fun r c tx hr h => ?_⟩
  rcases hentered r c tx hr h with ⟨hn, hstage⟩ | ⟨hn, hold⟩
  · subst hn
    exact ⟨_, put_calls_self .., hstage⟩
  · obtain ⟨call', hcall', hpending⟩ := hs.entered r c tx hr hold
    exact ⟨call', (put_calls_of_ne _ _ _ hn).trans hcall', hpending⟩

/-- A call goes on, and queues no update. -/
theorem still (hs : Pending s) (hcall : s.calls n = some call) {stage : CallStage}
    {lock : Option Nat} (hopen : shared.updatesOpen = s.shared.updatesOpen)
    (hupdates : shared.updates = s.shared.updates)
    (hstage : ∀ c, call.stage.IsPending c → stage.IsPending c) :
    Pending ({ s with shared, lock }.put n call stage) := by
  refine hs.move hopen fun r c tx hr h => ?_
  rw [hupdates] at h
  by_cases hn : tx.request = n
  · obtain ⟨call', hcall', hpending⟩ := hs.entered r c tx hr h
    obtain rfl := Option.some.inj (hcall.symm.trans (hn ▸ hcall'))
    exact .inl ⟨hn, hstage c hpending⟩
  · exact .inr ⟨hn, h⟩

/-- The pending request is queued. -/
theorem register (hs : Pending s) (hcall : s.calls n = some call)
    (hstage : call.stage = .locked c) : Pending (s.register n call c) := by
  have hnone : ∀ c', ¬ call.stage.IsPending c' := fun c' hpending => by
    rw [hstage] at hpending
    exact hpending
  unfold Calls.register
  split
  · next shared hsent =>
    obtain ⟨-, rfl⟩ := Shared.unboundedSend_eq_some hsent
    refine hs.move rfl fun r c' tx hr h => ?_
    rw [List.foldl_append] at h
    rw [List.foldl_cons, List.foldl_nil, ResponseReceiver.lookup_handlePendingRequestUpdate] at h
    split at h
    · next hc =>
      cases h
      exact .inl ⟨rfl, hc.symm⟩
    · refine .inr ⟨?_, h⟩
      rintro rfl
      obtain ⟨call', hcall', hpending⟩ := hs.entered r c' tx hr h
      obtain rfl := Option.some.inj (hcall.symm.trans hcall')
      exact hnone c' hpending
  · exact hs.still hcall rfl rfl fun c' hpending => absurd hpending (hnone c')

/-- The removal is queued behind the pending request, or the response receiver is gone. -/
theorem retract (hs : Pending s) (hcall : s.calls n = some call)
    (hstage : call.stage = .refused c) : Pending (s.retract n call c) := by
  rcases s.shared.retract_cases c with ⟨-, h⟩ | ⟨hclosed, h⟩
  · unfold Calls.retract
    rw [h]
    refine hs.move rfl fun r c' tx hr hlookup => ?_
    rw [List.foldl_append, List.foldl_cons, List.foldl_nil,
      ResponseReceiver.lookup_handlePendingRequestUpdate] at hlookup
    split at hlookup
    · cases hlookup
    -- The call is registered under its own number only, and that entry goes.
    · next hc =>
      refine .inr ⟨?_, hlookup⟩
      rintro rfl
      obtain ⟨call', hcall', hpending⟩ := hs.entered r c' tx hr hlookup
      obtain rfl := Option.some.inj (hcall.symm.trans hcall')
      rw [hstage] at hpending
      exact hc hpending.symm
  · have hgone : s.receiver = none := by
      cases hr : s.receiver with
      | none => rfl
      | some r =>
        have hopen := hs.listening (hr ▸ rfl)
        rw [hclosed] at hopen
        cases hopen
    refine ⟨fun hsome => ?_, fun r _ _ hr => ?_⟩
    · rw [show (s.retract n call c).receiver = none from hgone] at hsome
      cases hsome
    · rw [show (s.retract n call c).receiver = none from hgone] at hr
      cases hr

/-- What happens beside the calls enters nothing. -/
theorem beside (hs : Pending s) (hcalls : s'.calls = s.calls)
    (hopen : s'.receiver.isSome → s.receiver.isSome ∧
      s'.shared.updatesOpen = s.shared.updatesOpen)
    (hentered : ∀ r' c tx, s'.receiver = some r' →
      (s'.workedOff r').pendingRequests.lookup c = some tx →
      ∃ r tx₀, s.receiver = some r ∧ (s.workedOff r).pendingRequests.lookup c = some tx₀ ∧
        tx₀.request = tx.request) : Pending s' := by
  refine ⟨fun h => (hopen h).2.trans (hs.listening (hopen h).1), fun r' c tx hr' h => ?_⟩
  obtain ⟨r, tx₀, hr, hlookup, hsame⟩ := hentered r' c tx hr' h
  rw [hcalls, ← hsame]
  exact hs.entered r c tx₀ hr hlookup

theorem step {op : Op URI} (hs : Pending s) (h : Step s op s') : Pending s' := by
  cases h with
  | @enter n request options hn =>
    refine hs.move rfl fun r c tx hr h => .inr ⟨?_, h⟩
    rintro rfl
    obtain ⟨call', hcall', -⟩ := hs.entered r c tx hr h
    rw [hn] at hcall'
    cases hcall'
  | @check n call hcall hstage =>
    exact hs.still hcall rfl rfl fun c hpending => by rw [hstage] at hpending; cases hpending
  | @acquire n call hcall hstage _ =>
    exact hs.still hcall rfl rfl fun c hpending => by rw [hstage] at hpending; cases hpending
  | register hcall hstage => exact hs.register hcall hstage
  | @place n call c hcall hstage =>
    unfold place
    split
    · next shared hsent =>
      obtain ⟨-, rfl⟩ := Shared.trySendMessage_eq_some hsent
      exact hs.still hcall rfl rfl fun c hpending => by rw [hstage] at hpending; exact hpending
    · exact hs.still hcall rfl rfl fun c hpending => by rw [hstage] at hpending; exact hpending
  | retract hcall hstage => exact hs.retract hcall hstage
  | @increment n call c hcall hstage =>
    exact hs.still hcall rfl rfl fun c hpending => by rw [hstage] at hpending; exact hpending
  | @release n call c hcall hstage =>
    exact hs.still hcall rfl rfl fun c hpending => by rw [hstage] at hpending; exact hpending
  | @fail n call c hcall hstage =>
    exact hs.still hcall rfl rfl fun c hpending => by rw [hstage] at hpending; cases hpending
  | sendResponse response hsent =>
    obtain ⟨-, rfl⟩ := Shared.trySendMessage_eq_some hsent
    exact hs.beside rfl (fun h => ⟨h, rfl⟩) fun r c tx hr h => ⟨r, tx, hr, h, rfl⟩
  | requestRemoval c₀ =>
    rcases s.shared.retract_cases c₀ with ⟨-, h⟩ | ⟨-, h⟩
    · rw [h]
      refine hs.beside rfl (fun h => ⟨h, rfl⟩) fun r c tx hr h => ⟨r, tx, hr, ?_, rfl⟩
      rw [workedOff_append r rfl, ResponseReceiver.lookup_handlePendingRequestUpdate] at h
      split at h
      · cases h
      · exact h
    · rw [h]
      exact hs
  | @handleUpdate r u updates hr hupdates =>
    refine hs.beside rfl (fun _ => ⟨hr ▸ rfl, rfl⟩) fun r' c tx hr' h => ⟨r, tx, hr, ?_, rfl⟩
    cases hr'
    rw [workedOff, hupdates]
    exact h
  | @handleResponse r closed response hr =>
    refine hs.beside rfl (fun _ => ⟨hr ▸ rfl, rfl⟩) fun r' c tx hr' h => ?_
    cases hr'
    rw [workedOff, lookup_foldl] at h
    obtain ⟨tx₀, hlookup, hsame⟩ := foldl_handleResponse h
    exact ⟨r, tx₀, hr, (lookup_foldl ..).trans hlookup, hsame⟩
  | dropReceiver => exact hs.beside rfl nofun nofun
  | @closeUpdates hr =>
    refine hs.beside rfl (fun hsome => ?_) fun r _ _ hr' => ?_
    · rw [show s.receiver = none from hr] at hsome
      cases hsome
    · rw [show s.receiver = none from hr] at hr'
      cases hr'
  | _ => exact hs.beside rfl (fun h => ⟨h, rfl⟩) fun r c tx hr h => ⟨r, tx, hr, h, rfl⟩

end Pending

end Calls
end Rtsp
