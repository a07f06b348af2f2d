import Rtsp.Network.Heard

/-!
# Requests that are done with

The response receiver takes out the entry of a request when the final response to
it comes, and nothing enters it again (`Past`). So a future that still listens
then has been given its response, as long as the receiver works.

The entry is gone with the *first* final response, so a second one under the same number
finds nothing and is dropped. Past requests are therefore those that a response was read
for, and not those whose future has returned; the two differ for as long as nobody polls
the future.
-/

namespace Rtsp

open Lib

namespace Exchange

variable {s s' : Exchange} {n : Nat}

/-- Request `n` has been entered, and has no entry any more. -/
structure Past (s : Exchange) (n : Nat) : Prop where
  called : n < s.numbers.length
  gone : ∀ c tx, s.Entered c tx → tx.request ≠ n

/-! ## Entries come from entries -/

/-- An entry is as good as one before, but for the channel it leads to. -/
def Stays (s : Exchange) (tx : ReplyChannel) : Prop :=
  ∃ c tx₀, s.Entered c tx₀ ∧ tx.request = tx₀.request

theorem Stays.of_entered {c : CSeq} {tx : ReplyChannel} (h : s.Entered c tx) : s.Stays tx :=
  ⟨c, tx, h, rfl⟩

/-- The same map and the same queue. -/
theorem Stays.of_shared (hreceiver : s'.receiver = s.receiver) (hupdates : s'.updates = s.updates)
    {c : CSeq} {tx : ReplyChannel} (h : s'.Entered c tx) : s.Stays tx := by
  unfold Entered at h
  rw [hreceiver, hupdates] at h
  exact .of_entered h

theorem stays_unboundedSend (c₀ : CSeq) {c : CSeq} {tx : ReplyChannel}
    (h : (s.unboundedSend (.removePendingRequest c₀)).Entered c tx) : s.Stays tx := by
  rw [unboundedSend_eq] at h
  refine .of_entered (c := c) (h.imp_right fun h => ?_)
  dsimp only at h
  split at h
  · exact h
  · rw [adds_append] at h
    exact (List.mem_append.mp h).resolve_right nofun

theorem stays_handleUpdate {update : PendingRequestUpdate} {updates : List PendingRequestUpdate}
    (hu : s.updates = update :: updates) {c : CSeq} {tx : ReplyChannel}
    (h : (s.handleUpdate update updates).Entered c tx) : s.Stays tx := by
  rcases h with h | h
  · rcases Ledger.lookup_handleUpdate h with ⟨-, rfl⟩ | ⟨-, hbefore⟩
    · refine .of_entered (c := c) (.inr ?_)
      rw [hu, adds_add]
      exact .head _
    · exact .of_entered (.inl hbefore)
  · refine .of_entered (c := c) (.inr ?_)
    rw [hu]
    exact (adds_sublist update updates).subset h

/-- The map has lost an entry. -/
theorem stays_erase {c₀ c : CSeq} {tx : ReplyChannel}
    (h : (s.receiver.pendingRequests.erase c₀).lookup c = some tx) : s.Stays tx := by
  by_cases hc : c = c₀
  · rw [hc, AList.lookup_erase] at h
    cases h
  · rw [AList.lookup_erase_ne hc] at h
    exact .of_entered (.inl h)

theorem stays_respond {response : Response} {c : CSeq} {tx : ReplyChannel}
    (h : (s.respond response).Entered c tx) : s.Stays tx := by
  rcases h with h | h
  · have hhandles := s.receiver.handleResponse_cases s.isClosed response
    unfold Exchange.respond at h
    generalize s.receiver.handleResponse s.isClosed response = handled at hhandles h
    obtain ⟨receiver, ds⟩ := handled
    cases hhandles with
    | ignored _ => exact .of_entered (.inl h)
    | @continued c₀ tx₀ _ h₀ _ _ =>
      have hreplaced := (lookup_replace h₀ c).symm.trans h
      split at hreplaced
      · obtain rfl := Option.some.inj hreplaced
        exact ⟨c₀, tx₀, .inl h₀, rfl⟩
      · exact .of_entered (.inl hreplaced)
    | delivered _ _ _ _ => exact stays_erase h
    | closed _ _ _ => exact stays_erase h
  · exact .of_entered (.inr h)

/-- **An entry comes from one before**, or is that of a new call. -/
theorem stays_of_step {op : Op} (h : Step s op s') {c : CSeq} {tx : ReplyChannel}
    (hentered : s'.Entered c tx) : s.Stays tx ∨ tx.request = s.numbers.length := by
  cases h with
  | addPendingRequest options =>
    split at hentered
    · exact .inl (.of_entered hentered)
    · rcases hentered with hmap | hqueue
      · exact .inl (.of_entered (.inl hmap))
      · rw [show adds (s.addPendingRequest options).updates = adds s.updates ++ adds [_] from
          adds_append _ _] at hqueue
        rcases List.mem_append.mp hqueue with hqueue | hqueue
        · exact .inl (.of_entered (.inr hqueue))
        · cases List.mem_singleton.mp hqueue
          exact .inr rfl
  | retract => exact .inl (stays_unboundedSend _ hentered)
  | handleUpdate _ hu => exact .inl (stays_handleUpdate hu hentered)
  | respond => exact .inl (stays_respond hentered)
  | cancelEntry =>
    rcases hentered with hmap | hqueue
    · exact .inl (stays_erase hmap)
    · exact .inl (.of_entered (.inr hqueue))
  | @discard update updates _ hu =>
    refine .inl (.of_entered (c := c) (hentered.imp_right fun hqueue => ?_))
    rw [hu]
    exact (adds_sublist update updates).subset hqueue
  | poll => exact .inl (.of_shared (shared_looked ..).receiver (shared_looked ..).updates hentered)
  | queueRemoval => exact .inl (stays_unboundedSend _ hentered)
  | closeReceiver =>
    exact .inl (.of_shared (shared_closeReceiver ..).receiver (shared_closeReceiver ..).updates
      hentered)
  | drop => exact .inl (.of_shared (shared_drop ..).receiver (shared_drop ..).updates hentered)
  | _ => exact .inl (.of_entered hentered)

/-- What has been called and sent stays so. -/
theorem calls_of_step {op : Op} (h : Step s op s') :
    s.numbers <+: s'.numbers ∧ s.sent <+: s'.sent := by
  have hshared : ∀ {s'}, Shared s s' → s.numbers <+: s'.numbers ∧ s.sent <+: s'.sent :=
    fun h => ⟨h.numbers ▸ List.prefix_rfl, h.sent ▸ List.prefix_rfl⟩
  cases h with
  | addPendingRequest =>
    split
    · exact ⟨List.prefix_rfl, List.prefix_rfl⟩
    · exact ⟨List.prefix_append _ _, List.prefix_rfl⟩
  | queueMessage => exact ⟨List.prefix_rfl, List.prefix_append _ _⟩
  | retract =>
    rw [retract, unboundedSend_eq]
    exact ⟨List.prefix_rfl, List.prefix_rfl⟩
  | queueRemoval =>
    rw [unboundedSend_eq]
    exact ⟨List.prefix_rfl, List.prefix_rfl⟩
  | poll => exact hshared (shared_looked ..)
  | closeReceiver => exact hshared (shared_closeReceiver ..)
  | drop => exact hshared (shared_drop ..)
  | _ => exact ⟨List.prefix_rfl, List.prefix_rfl⟩

theorem IsFor.of_step {op : Op} {response : Response} (hs : s.IsFor n response)
    (h : Step s op s') : s'.IsFor n response := by
  obtain ⟨c, hc, hget⟩ := hs
  obtain ⟨more, hmore⟩ := (calls_of_step h).1
  refine ⟨c, ?_, hget⟩
  rw [← hmore, List.getElem?_append_left (List.getElem?_eq_some_iff.mp hc).1, hc]

namespace Past

/-- **What is done with stays so.** -/
theorem step {op : Op} (hs : Past s n) (h : Step s op s') : Past s' n where
  called := Nat.lt_of_lt_of_le hs.called (calls_of_step h).1.length_le
  gone c tx hentered hsame := by
    rcases stays_of_step h hentered with ⟨c₀, tx₀, hbefore, hrequest⟩ | hnew
    · exact hs.gone c₀ tx₀ hbefore (hrequest ▸ hsame)
    · exact absurd hs.called (Nat.not_lt.mpr (Nat.le_of_eq (hnew.symm.trans hsame)))

/-- **A request is done with when the final response to it is handled**, once it has been
    written. -/
theorem respond (hledger : Ledger s) (hhandled : s.Handled) (hreading : s.phase = .reading)
    (hwritten : n ∈ s.sent.take s.written) {response : Response} (hnumber : s.IsFor n response)
    (hfinal : response.statusCode ≠ .standard .«continue») : Past (s.respond response) n := by
  obtain ⟨c, hc, hget⟩ := hnumber
  refine ⟨(List.getElem?_eq_some_iff.mp hc).1, fun c' tx hentered hsame => ?_⟩
  have hledger' := hledger.respond response
  rcases hentered with hmap | hqueue
  · -- It could only be entered under its own number, and that entry has been taken out.
    have hown : (s.respond response).numbers[n]? = some c' :=
      hsame ▸ hledger'.entered c' tx (.inl hmap)
    obtain rfl : c' = c := Option.some.inj (hown.symm.trans hc)
    have hhandles := s.receiver.handleResponse_cases s.isClosed response
    unfold Exchange.respond at hmap
    generalize s.receiver.handleResponse s.isClosed response = handled at hhandles hmap
    obtain ⟨receiver, ds⟩ := handled
    cases hhandles with
    | ignored hnone =>
      rw [hnone c' hget] at hmap
      cases hmap
    | continued _ _ hcontinue _ => exact hfinal hcontinue
    | delivered hget' _ _ _ =>
      cases hget.symm.trans hget'
      rw [AList.lookup_erase] at hmap
      cases hmap
    | closed hget' _ _ =>
      cases hget.symm.trans hget'
      rw [AList.lookup_erase] at hmap
      cases hmap
  · exact hhandled.updates hreading n hwritten c' tx hqueue hsame

/-- **Whoever still listens has the response**, as long as the receiver works. -/
theorem receives {first : CSeq} (hs : Past s n) (hmatches : Matches first s)
    (hfew : s.sent.length < 10 ^ 9) (hphase : s.phase.handlesUpdates = true) {r : SendRequest}
    {stage : Stage} (hr : s.requests n = some (r, stage)) (hstage : stage.listens = true) :
    ∃ response c, r.Receives s.channels response ∧
      (s.channels c).slot = some (.response response) ∧ c.request = n := by
  obtain ⟨e, last, hchain, hend⟩ := hmatches.served hfew n _ _ (.request hr hstage)
  have hdone : s.phase.handlesUpdates ≠ false := by
    rw [hphase]
    exact nofun
  have hrx : r.rxResponse = ⟨n, r.rxResponse.hop⟩ := by
    rw [← (hmatches.ledger.request n r stage hr).2]
  cases hend with
  | expected hexpected =>
    rw [expected_of_handles hphase] at hexpected
    exact absurd rfl (hs.gone _ _ (entered_of_registered hexpected))
  | answered =>
    refine ⟨_, ⟨n, e⟩, ⟨_, SendRequest.resolve_response hchain hrx⟩, ?_, rfl⟩
    rw [hchain.last]
    rfl
  | told hphase' => exact absurd hphase' hdone
  | late _ hphase' => exact absurd hphase' hdone
  | lost _ hphase' => exact absurd hphase' hdone

end Past

end Exchange
end Rtsp
