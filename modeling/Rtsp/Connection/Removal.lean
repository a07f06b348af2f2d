import Rtsp.Connection.Ledger

/-!
# Removals of pending requests

The response receiver expects that a pending request it is told to remove is in
its map. That is up to the rest: a removal is queued when a future is dropped or
timed out, and what happens to the entry before the removal is handled is up to
the responses that come in. So the expectation holds as long as a removal is
queued only while the request is registered, and no response takes the entry
away ahead of the removal (`removals_known`). A future that is dropped when its
response has been delivered, and not looked at, breaks it
(`removal_unknown`).

The `debug_assert` of the code is on the entry that a removal finds, and an entry is a
matter of the whole queue: what the removal finds depends on the updates in front of it.
`Known` follows one number through the queue, from what is in the map now, and asks at
each removal whether there is something to remove. It is the invariant, and the
assertion is its first case.

Only two kinds of step can break it. Removals are queued, by futures and by calls that
have failed, and entries are taken away, by responses. Each has its condition, on the
state before the step, and `finds_step` says that these are the right ones: whenever a
step breaks it, the invariant is gone.

In a release build nothing is asserted and the removal that finds no entry does nothing.
So what is shown to fail is an expectation of the code about itself, and no request
suffers by it.
-/

namespace Rtsp

open Lib

namespace Exchange

/-! ## The removals in a queue -/

/-- Every removal of `c` in the queue will find an entry, with the one that is there now. -/
def Known (c : CSeq) : Option ReplyChannel → List PendingRequestUpdate → Prop
  | _, [] => True
  | found, u :: us => (u = .removePendingRequest c → found.isSome) ∧ Known c (word c found u) us

theorem known_append {c : CSeq} {found : Option ReplyChannel} {us : List PendingRequestUpdate}
    (u : PendingRequestUpdate) : Known c found (us ++ [u]) ↔
      Known c found us ∧ (u = .removePendingRequest c → (us.foldl (word c) found).isSome) := by
  induction us generalizing found with
  | nil => simp [Known]
  | cons v us ih => simp only [List.cons_append, Known, ih, List.foldl_cons, and_assoc]

/-- It does not matter to whom the entry belongs. -/
theorem known_congr {c : CSeq} {found found' : Option ReplyChannel}
    {us : List PendingRequestUpdate} (hsame : found.isSome = found'.isSome) :
    Known c found us ↔ Known c found' us := by
  induction us generalizing found found' with
  | nil => exact Iff.rfl
  | cons u us ih =>
    have hword : (word c found u).isSome = (word c found' u).isSome := by
      unfold word
      split
      · rfl
      · exact hsame
    rw [Known, Known, hsame, ih hword]

/-- Taking an entry away leaves the removals known unless the next update is the removal. -/
theorem known_none {c : CSeq} {tx : ReplyChannel} {us : List PendingRequestUpdate}
    (h : Known c (some tx) us) : Known c none us ↔
      us.find? (fun u => u.cseq = c) ≠ some (.removePendingRequest c) := by
  induction us with
  | nil => simp [Known]
  | cons u us ih =>
    obtain ⟨-, hrest⟩ := h
    by_cases hu : u.cseq = c
    · rw [List.find?_cons_of_pos (by simpa using hu), Known]
      rw [word, if_pos hu.symm] at hrest ⊢
      cases u with
      | addPendingRequest =>
        refine iff_of_true ⟨fun h => ?_, hrest⟩ fun h => ?_
        all_goals cases h
      | removePendingRequest c' =>
        obtain rfl : c' = c := hu
        exact iff_of_false (fun h => by simpa using h.1 rfl) fun h => h rfl
    · rw [List.find?_cons_of_neg (by simpa using hu), Known]
      rw [word, if_neg (Ne.symm hu)] at hrest ⊢
      rw [← ih hrest]
      refine and_iff_right fun hremove => absurd ?_ hu
      rw [hremove]
      rfl

/-- Every removal in the queue will find its entry. -/
def Finds (s : Exchange) : Prop :=
  ∀ c, Known c (s.receiver.pendingRequests.lookup c) s.updates

/-! ## What a step has to mind -/

/-- What the condition on a step is. A removal is queued only while the request is
    registered; and a response does not take an entry away, because it is final or nobody
    listens any more, when the next update under its number is the removal. -/
def isCareful (s : Exchange) : Op → Bool
  | .queueRemoval n => decide (∀ e ∈ s.requests n, (s.registered e.1.sequenceNumber).isSome)
  | .retract => decide (∀ call ∈ s.call, (s.registered call.sequenceNumber).isSome)
  | .respond response => decide (∀ c ∈ response.headers.typedGet CSeq,
      ∀ tx ∈ s.receiver.pendingRequests.lookup c,
      response.statusCode ≠ .standard .«continue» ∨ s.isClosed tx = true →
      s.updates.find? (fun u => u.cseq = c) ≠ some (.removePendingRequest c))
  | _ => true

variable {s s' : Exchange}

theorem finds_unboundedSend (hphase : s.phase.handlesUpdates = true) (c : CSeq) (hs : Finds s) :
    Finds (s.unboundedSend (.removePendingRequest c)) ↔ (s.registered c).isSome := by
  have hopen : s.phase ≠ .closed := by
    intro hclosed
    rw [hclosed] at hphase
    cases hphase
  rw [unboundedSend, if_neg hopen]
  constructor
  · exact fun h => ((known_append _).mp (h c)).2 rfl
  · intro h c'
    refine (known_append _).mpr ⟨hs c', ?_⟩
    rintro ⟨⟩
    exact h

/-- An entry is taken out of the map. -/
theorem finds_erase {c : CSeq} {tx : ReplyChannel} {channels : Channels} (hs : Finds s)
    (h : s.receiver.pendingRequests.lookup c = some tx) :
    Finds { s with
      receiver := { s.receiver with pendingRequests := s.receiver.pendingRequests.erase c }
      channels } ↔
      s.updates.find? (fun u => u.cseq = c) ≠ some (.removePendingRequest c) := by
  have hknown := hs c
  rw [h] at hknown
  rw [← known_none hknown]
  constructor
  · intro hafter
    have hnone := hafter c
    rwa [show (s.receiver.pendingRequests.erase c).lookup c = none from AList.lookup_erase _ _]
      at hnone
  · intro hnone c'
    show Known c' ((s.receiver.pendingRequests.erase c).lookup c') s.updates
    by_cases hc : c' = c
    · rw [hc, AList.lookup_erase]
      exact hnone
    · rw [AList.lookup_erase_ne hc]
      exact hs c'

theorem finds_respond (response : Response) (hs : Finds s) :
    Finds (s.respond response) ↔ s.isCareful (.respond response) = true := by
  have hhandles := s.receiver.handleResponse_cases s.isClosed response
  rw [isCareful, decide_eq_true_iff]
  unfold respond
  generalize s.receiver.handleResponse s.isClosed response = handled at hhandles ⊢
  obtain ⟨receiver, ds⟩ := handled
  -- The entry under the number of the response, if there is one.
  have hentry : ∀ {c₀ tx₀}, response.headers.typedGet CSeq = some c₀ →
      s.receiver.pendingRequests.lookup c₀ = some tx₀ → ∀ {c tx},
      response.headers.typedGet CSeq = some c →
      s.receiver.pendingRequests.lookup c = some tx → c₀ = c ∧ tx₀ = tx := by
    intro c₀ tx₀ hc₀ h₀ c tx hc h
    obtain rfl : c₀ = c := Option.some.inj (hc₀.symm.trans hc)
    exact ⟨rfl, Option.some.inj (h₀.symm.trans h)⟩
  cases hhandles with
  | ignored hnone =>
    refine iff_of_true hs fun c hc tx h => ?_
    rw [hnone c hc] at h
    cases h
  | @continued c₀ tx₀ hc₀ h₀ hcontinue hopen =>
    refine iff_of_true (fun c => ?_) fun c hc tx h htaken => ?_
    · show Known c ((s.receiver.pendingRequests.replace c₀ tx₀.next).lookup c) s.updates
      rw [lookup_replace h₀]
      by_cases hc : c = c₀
      · rw [if_pos hc]
        exact (known_congr (by rw [hc, h₀]; rfl)).mp (hs c)
      · rw [if_neg hc]
        exact hs c
    · obtain ⟨rfl, rfl⟩ := hentry hc₀ h₀ hc h
      rcases htaken with hfinal | hclosed
      · exact absurd hcontinue hfinal
      · rw [hopen] at hclosed
        cases hclosed
  | @delivered c₀ tx₀ hc₀ h₀ hfinal _ =>
    refine (finds_erase hs h₀).trans ⟨fun hnext c hc tx h _ => ?_, fun h => ?_⟩
    · obtain ⟨rfl, -⟩ := hentry hc₀ h₀ hc h
      exact hnext
    · exact h c₀ hc₀ tx₀ h₀ (.inl hfinal)
  | @closed c₀ tx₀ hc₀ h₀ hclosed =>
    refine (finds_erase hs h₀).trans ⟨fun hnext c hc tx h _ => ?_, fun h => ?_⟩
    · obtain ⟨rfl, -⟩ := hentry hc₀ h₀ hc h
      exact hnext
    · exact h c₀ hc₀ tx₀ h₀ (.inr hclosed)

/-- What a future does to itself does not matter. -/
theorem finds_shared (h : Shared s s') : Finds s' ↔ Finds s := by
  rw [Finds, Finds, h.receiver, h.updates]

/-- **The condition is exact**: as long as updates are handled, it decides whether the
    removals in the queue will still find their entries. -/
theorem finds_step {op : Op} (hphase : s.phase.handlesUpdates = true) (hs : Finds s)
    (h : Step s op s') : Finds s' ↔ s.isCareful op = true := by
  cases h with
  | addPendingRequest options =>
    split
    · exact iff_of_true hs rfl
    · exact iff_of_true (fun c => (known_append _).mpr ⟨hs c, nofun⟩) rfl
  | @retract call hcall =>
    rw [isCareful, decide_eq_true_iff]
    refine (finds_unboundedSend hphase call.sequenceNumber hs).trans ⟨fun h k hk => ?_, fun h => ?_⟩
    · obtain rfl := Option.some.inj (hcall.symm.trans hk)
      exact h
    · exact h call hcall
  | @handleUpdate u us _ hu =>
    refine iff_of_true (fun c => ?_) rfl
    have hknown := hs c
    rw [hu] at hknown
    rw [lookup_handlePendingRequestUpdate]
    exact hknown.2
  | respond response => exact finds_respond response hs
  | cancelEntry hcancelling =>
    rw [hcancelling] at hphase
    cases hphase
  | discard hclosed =>
    rw [hclosed] at hphase
    cases hphase
  | poll => exact iff_of_true ((finds_shared (shared_looked ..)).mpr hs) rfl
  | @queueRemoval n r error hr =>
    rw [isCareful, decide_eq_true_iff]
    refine (finds_unboundedSend hphase r.sequenceNumber hs).trans ⟨fun h e he => ?_, fun h => ?_⟩
    · obtain rfl := Option.some.inj (hr.symm.trans he)
      exact h
    · exact h _ hr
  | closeReceiver => exact iff_of_true ((finds_shared (shared_closeReceiver ..)).mpr hs) rfl
  | drop => exact iff_of_true ((finds_shared (shared_drop ..)).mpr hs) rfl
  | _ => exact iff_of_true hs rfl

/-! ## The result -/

/-- A step that minds the removals. -/
def CarefulStep (s : Exchange) (op : Op) (s' : Exchange) : Prop :=
  Step s op s' ∧ (s.phase.handlesUpdates = true → s.isCareful op = true)

theorem carefulStep_of_exec (s : Exchange) (op : Op) (s' : Exchange)
    (h : (if s.isCareful op then s.exec op else none) = some s') : CarefulStep s op s' := by
  split at h
  · next hcareful => exact ⟨step_of_exec h, fun _ => hcareful⟩
  · cases h

theorem finds_run {first : CSeq} {ops : List Op} (h : Run CarefulStep (start first) ops s) :
    s.phase.handlesUpdates = true → Finds s := by
  refine h.invariant (I := fun s => s.phase.handlesUpdates = true → Finds s)
    (fun _ _ => trivial) fun s₁ op s₂ hs₁ hstep hphase => ?_
  have hbefore := handlesUpdates_of_step hstep.1 hphase
  exact (finds_step hbefore (hs₁ hbefore) hstep.1).mpr (hstep.2 hbefore)

/-- **A removal that is handled finds its entry**, in every run of careful steps. -/
theorem removals_known {first : CSeq} {ops : List Op} {c : CSeq}
    {updates : List PendingRequestUpdate} (h : Run CarefulStep (start first) ops s)
    (hphase : s.phase = .draining ∨ s.phase = .dropping)
    (hu : s.updates = .removePendingRequest c :: updates) :
    (s.receiver.pendingRequests.lookup c).isSome = true := by
  have hhandles : s.phase.handlesUpdates = true := by
    rcases hphase with hdraining | hdropping
    · rw [hdraining]; rfl
    · rw [hdropping]; rfl
  have hknown := finds_run h hhandles c
  rw [hu] at hknown
  exact hknown.1 rfl

/-- A request with number 7 is sent and registered. -/
def register : List Op :=
  [.addPendingRequest noTimeouts, .queueMessage, .startPoll, .handleUpdate, .drained]

/-- The first future is dropped, and the next poll of the response receiver begins. -/
def dropFirst : List Op := [.finishPoll, .drop 0, .queueRemoval 0, .startPoll]

/-- A future that is dropped before there is a response. -/
theorem removals_known_dropped : ∃ s : Exchange,
    s.updates = [.removePendingRequest ⟨7, by decide⟩] ∧
      (s.receiver.pendingRequests.lookup ⟨7, by decide⟩).isSome = true := by
  let run := replay (fun s op => if isCareful s op then s.exec op else none)
    (start ⟨7, by decide⟩) (register ++ dropFirst)
  have hrun : Run CarefulStep (start ⟨7, by decide⟩) (register ++ dropFirst)
      (run.get (by decide +kernel)) :=
    .of_replay carefulStep_of_exec (Option.some_get _).symm
  have hu : (run.get (by decide +kernel)).updates = [.removePendingRequest ⟨7, by decide⟩] := by
    decide +kernel
  exact ⟨_, hu, removals_known hrun (.inl (by decide +kernel)) hu⟩

/-- **A removal can be for a request that is not there**: its final response has been
    delivered when the future is dropped. -/
theorem removal_unknown : ¬ ∀ first ops s c updates, Run Step (start first) ops s →
    s.phase = .draining ∨ s.phase = .dropping →
    s.updates = .removePendingRequest c :: updates →
    (s.receiver.pendingRequests.lookup c).isSome = true := by
  intro h
  let ops := register ++ .respond (responseTo ⟨7, by decide⟩ .ok) :: dropFirst
  let run := replay exec (start ⟨7, by decide⟩) ops
  have hrun : Run Step (start ⟨7, by decide⟩) ops (run.get (by decide +kernel)) :=
    .of_replay (fun _ _ _ => step_of_exec) (Option.some_get _).symm
  have hfound := h _ _ _ ⟨7, by decide⟩ [] hrun (.inl (by decide +kernel)) (by decide +kernel)
  revert hfound
  decide +kernel

end Exchange
end Rtsp
