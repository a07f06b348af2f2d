import Rtsp.Connection.Replies.Calls

/-!
# Those who wait, and the steps of the response receiver

The other half of the steps. An update is handled, and what is expected stays as it was,
since it was computed from the queue to begin with; only what the update displaces has
to be looked at, and nobody waits for that (`handleUpdate`). A response is sent to the
last channel of a chain, and makes the chain longer or puts an end to it (`respond`).

Once the connection is dropped, every entry is told that no response will come
(`cancelEntry`), and what is then still in the queue is dropped (`discard`). Here the
requests that may be lost are lost.
-/

namespace Rtsp

open Lib

namespace Exchange

variable {s s' : Exchange}

namespace Served

variable {lossy : Nat → Prop}

/-- Whoever waits for a request that is entered is at the start of a chain that leads to the
    entry, and the entry is expected, or late. -/
theorem of_entered (hledger : Ledger s) (hs : Served s lossy) {n h : Nat} {c c' : CSeq}
    (ha : s.Awaits n h c) {tx : ReplyChannel} (ht : s.Entered c' tx) (hn : tx.request = n) :
    c' = c ∧ Chain s.channels n h tx.hop .new ∧ (s.expected c = some tx ∨
      lossy n ∧ s.phase.handlesUpdates = false ∧ (c, tx) ∈ adds s.updates) := by
  obtain rfl := hn
  have hnew := hledger.chain _ h c ha c' tx ht rfl
  obtain ⟨e, last, hchain, hend⟩ := hs _ h c ha
  obtain ⟨rfl, rfl⟩ := hchain.unique hnew hend.ne_continue
  have hnumber := hledger.entered c' tx ht
  rw [hledger.number ha] at hnumber
  refine ⟨(Option.some.inj hnumber).symm, hnew, ?_⟩
  cases hend with
  | expected h => exact .inl h
  | late hlossy hdone hmem => exact .inr ⟨hlossy, hdone, hmem⟩

/-- The entry that an update displaces is one for which nobody waits. -/
theorem handleUpdate (hledger : Ledger s) (hs : Served s lossy)
    (hphase : s.phase.handlesUpdates = true) {update : PendingRequestUpdate}
    {updates : List PendingRequestUpdate} (hu : s.updates = update :: updates) :
    Served (s.handleUpdate update updates) lossy := by
  have hexpected : ∀ c, (s.handleUpdate update updates).expected c = s.expected c := by
    intro c
    rw [expected_of_handles hphase, expected_of_handles (by exact hphase), registered, registered,
      lookup_handlePendingRequestUpdate, hu]
    rfl
  refine hs.keep (fun _ _ _ => id) (fun n h c ha c₁ hc₁ => ?_) fun n h c _ e last hend => ?_
  · cases hdisplaced : s.receiver.pendingRequests.lookup update.cseq with
    | none => rw [Exchange.handleUpdate, hdisplaced]
    | some tx₀ =>
      rw [Exchange.handleUpdate, hdisplaced]
      refine Channels.close_of_request _ fun heq => ?_
      have hn : tx₀.request = n := heq.symm.trans hc₁
      obtain ⟨hnumber, -, hentry⟩ := hs.of_entered hledger ha (.inl hdisplaced) hn
      have hapart := hledger.apart _ _ hdisplaced
      -- Its request is in the map, so the queue does not hold it, and the update ends it.
      rcases hentry with hentry | ⟨-, hdone, -⟩
      · rw [expected_of_handles hphase, registered, hu, List.foldl_cons] at hentry
        have hsub : (adds updates).Sublist (adds s.updates) := hu ▸ adds_sublist update updates
        rcases foldl_word_eq_some hentry with hmem | ⟨hword, -⟩
        · exact hapart (List.mem_map.mpr ⟨_, hsub.subset hmem, rfl⟩)
        · rw [word, if_pos hnumber.symm] at hword
          refine hapart (List.mem_map.mpr ⟨(update.cseq, tx₀), ?_, rfl⟩)
          rw [hu, adds_cons, hword]
          exact .head _
      · rw [hphase] at hdone
        cases hdone
  · refine hend.congr (fun h => (hexpected c).trans h) id fun hdone => ?_
    rw [hphase] at hdone
    cases hdone

/-- What happens to the entry of one request leaves what is expected of the others. -/
theorem expected_of_ne {c₀ : CSeq} {tx₀ : ReplyChannel} {channels : Channels}
    {pendingRequests : AList fun _ : CSeq => ReplyChannel}
    (h₀ : s.receiver.pendingRequests.lookup c₀ = some tx₀)
    (hother : ∀ c, c ≠ c₀ → pendingRequests.lookup c = s.receiver.pendingRequests.lookup c)
    {n e : Nat} {c : CSeq} (hn : n ≠ tx₀.request) (h : s.expected c = some ⟨n, e⟩) :
    Exchange.expected { s with receiver := { s.receiver with pendingRequests }, channels } c =
      some ⟨n, e⟩ := by
  by_cases hc : c = c₀
  · obtain rfl := hc
    cases hphase : s.phase.handlesUpdates with
    | true =>
      rw [expected_of_handles hphase] at h
      refine (expected_of_handles (by exact hphase) c).trans ?_
      -- The entry of the other request is in the queue still, and the map does not matter.
      rcases foldl_word_eq_some h with hmem | ⟨hfound, -⟩
      · obtain ⟨u, hu, hentry⟩ := List.mem_filterMap.mp hmem
        have hsame : c = u.cseq := by
          cases u with
          | addPendingRequest =>
            cases hentry
            rfl
          | removePendingRequest => cases hentry
        rw [registered, foldl_word_congr hu hsame]
        exact h
      · rw [h₀] at hfound
        exact absurd (congrArg ReplyChannel.request (Option.some.inj hfound)).symm hn
    | false =>
      rw [expected_of_done hphase, h₀] at h
      exact absurd (congrArg ReplyChannel.request (Option.some.inj h)).symm hn
  · unfold Exchange.expected registered at h ⊢
    rwa [show pendingRequests.lookup c = s.receiver.pendingRequests.lookup c from hother c hc]

/-- Something is done with the entry of one request. -/
theorem receive (hledger : Ledger s) (hs : Served s lossy) {c₀ : CSeq} {tx₀ : ReplyChannel}
    {channels : Channels} {pendingRequests : AList fun _ : CSeq => ReplyChannel}
    (h₀ : s.receiver.pendingRequests.lookup c₀ = some tx₀)
    (hother : ∀ c, c ≠ c₀ → pendingRequests.lookup c = s.receiver.pendingRequests.lookup c)
    (hframe : ∀ c : ReplyChannel, c.request ≠ tx₀.request → channels c = s.channels c)
    (hown : ∀ h, Chain s.channels tx₀.request h tx₀.hop .new → s.expected c₀ = some tx₀ →
      ∃ e last, Chain channels tx₀.request h e last ∧
        Ends { s with receiver := { s.receiver with pendingRequests }, channels }
          (lossy tx₀.request) tx₀.request e c₀ last) :
    Served { s with receiver := { s.receiver with pendingRequests }, channels } lossy := by
  intro n h c ha
  by_cases hn : n = tx₀.request
  · obtain ⟨rfl, hchain, hentry⟩ := hs.of_entered hledger ha (.inl h₀) hn.symm
    obtain rfl := hn
    rcases hentry with hexpected | ⟨-, -, hmem⟩
    · exact hown h hchain hexpected
    · exact absurd (List.mem_map.mpr ⟨_, hmem, rfl⟩) (hledger.apart _ _ h₀)
  · obtain ⟨e, last, hchain, hend⟩ := hs n h c ha
    exact ⟨e, last, hchain.congr fun c₁ hc₁ => hframe c₁ (hc₁ ▸ hn),
      hend.congr (expected_of_ne h₀ hother hn) id fun _ => id⟩

/-- The entry of one request is taken out, and its channel is sent a last message. -/
theorem takeOut (hledger : Ledger s) (hs : Served s lossy) {c₀ : CSeq} {tx₀ : ReplyChannel}
    (h₀ : s.receiver.pendingRequests.lookup c₀ = some tx₀) (message : PendingRequestResponse)
    (hends : ∀ s' : Exchange, s'.phase = s.phase →
      Ends s' (lossy tx₀.request) tx₀.request tx₀.hop c₀ (.filled message)) :
    Served { s with
      receiver := { s.receiver with pendingRequests := s.receiver.pendingRequests.erase c₀ }
      channels := s.channels.deliver (ResponseReceiver.send s.isClosed tx₀ message) } lossy := by
  have hother : ∀ c, c ≠ c₀ → (s.receiver.pendingRequests.erase c₀).lookup c =
      s.receiver.pendingRequests.lookup c := fun c hc => AList.lookup_erase_ne hc
  cases hclosed : s.isClosed tx₀ with
  | true =>
    rw [ResponseReceiver.send_of_closed hclosed]
    refine hs.receive hledger h₀ hother (fun _ _ => rfl) fun h hchain _ => ?_
    -- Nobody has closed the channel if there is somebody who waits.
    rw [isClosed, hchain.last] at hclosed
    cases hclosed
  | false =>
    rw [ResponseReceiver.send_of_open hclosed, Channels.deliver_singleton,
      Oneshot.send_of_open hclosed]
    refine hs.receive hledger h₀ hother (fun c hc => Channels.put_of_request _ _ hc) ?_
    exact fun h hchain _ => ⟨tx₀.hop, _, hchain.put_last _, hends _ rfl⟩

theorem respond (hledger : Ledger s) (hs : Served s lossy)
    (hphase : s.phase.handlesUpdates = true) (response : Response) :
    Served (s.respond response) lossy := by
  have hhandles := s.receiver.handleResponse_cases s.isClosed response
  unfold Exchange.respond
  generalize s.receiver.handleResponse s.isClosed response = handled at hhandles ⊢
  obtain ⟨receiver, ds⟩ := handled
  cases hhandles with
  | ignored _ =>
    exact hs.same (fun _ _ _ => id) rfl rfl rfl rfl
  | @continued c₀ tx₀ _ h₀ _ hopen =>
    have hlookup : ∀ c, (s.receiver.pendingRequests.replace c₀ tx₀.next).lookup c =
        if c = c₀ then some tx₀.next else s.receiver.pendingRequests.lookup c :=
      lookup_replace h₀
    rw [Channels.deliver_singleton, Oneshot.send_of_open hopen]
    refine hs.receive hledger h₀ (fun c hc => (hlookup c).trans (if_neg hc))
      (fun c hc => Channels.put_of_request _ _ hc) fun h hchain hexpected => ?_
    refine ⟨tx₀.hop + 1, .new, hchain.extend, .expected ?_⟩
    -- The queue does not hold the request, so it is the map that says what is expected.
    rw [expected_of_handles hphase] at hexpected
    refine (expected_of_handles (by exact hphase) c₀).trans ?_
    rcases foldl_word_eq_some hexpected with hmem | ⟨-, hnone⟩
    · exact absurd (List.mem_map.mpr ⟨_, hmem, rfl⟩) (hledger.apart _ _ h₀)
    · exact (foldl_word_of_ne _ hnone).trans ((hlookup c₀).trans (if_pos rfl))
  | @delivered c₀ tx₀ hnumber h₀ hfinal hopen =>
    have htaken := hs.takeOut hledger h₀ (.response response) fun _ _ => .answered hnumber hfinal
    rwa [ResponseReceiver.send_of_open hopen] at htaken
  | @closed c₀ tx₀ _ h₀ hclosed =>
    have hother : ∀ c, c ≠ c₀ → (s.receiver.pendingRequests.erase c₀).lookup c =
        s.receiver.pendingRequests.lookup c := fun c hc => AList.lookup_erase_ne hc
    refine hs.receive hledger h₀ hother (fun _ _ => rfl) fun h hchain _ => ?_
    rw [isClosed, hchain.last] at hclosed
    cases hclosed

theorem cancelEntry (hledger : Ledger s) (hs : Served s lossy) (hphase : s.phase = .cancelling)
    {c₀ : CSeq} {tx₀ : ReplyChannel} (h₀ : s.receiver.pendingRequests.lookup c₀ = some tx₀) :
    Served (s.cancelEntry c₀ tx₀) lossy := by
  refine hs.takeOut hledger h₀ .none fun s' hsame => .told ?_
  rw [hsame, hphase]
  rfl

/-- What is dropped with the queue is late. -/
theorem discard (hledger : Ledger s) (hs : Served s lossy) (hphase : s.phase = .closed)
    (hnone : ∀ c, s.receiver.pendingRequests.lookup c = none) {update : PendingRequestUpdate}
    {updates : List PendingRequestUpdate} (hu : s.updates = update :: updates) :
    Served (s.discard update updates) lossy := by
  have hdone : s.phase.handlesUpdates = false := by
    rw [hphase]
    rfl
  intro n h c ha
  have hbefore : s.Awaits n h c := ha
  obtain ⟨e, last, hchain, hend⟩ := hs n h c hbefore
  have hexpected : s.expected c ≠ some ⟨n, e⟩ := by
    rw [expected_of_done hdone, hnone]
    exact nofun
  cases update with
  | removePendingRequest c₀ =>
    refine ⟨e, last, hchain, hend.congr (absurd · hexpected) id fun _ hmem => ?_⟩
    rw [hu, adds_remove] at hmem
    exact hmem
  | addPendingRequest c₀ tx₀ =>
    have hentered : s.Entered c₀ tx₀ := .inr (by rw [hu, adds_add]; exact .head _)
    by_cases hn : tx₀.request = n
    · obtain ⟨rfl, hnew, hentry⟩ := hs.of_entered hledger hbefore hentered hn
      obtain rfl := hn
      rcases hentry with hentry | ⟨hlossy, -, -⟩
      · rw [expected_of_done hdone, hnone] at hentry
        cases hentry
      · refine ⟨tx₀.hop, ⟨true, none⟩, ?_, .lost hlossy hdone⟩
        have hclosed : s.channels.close tx₀ = s.channels.put tx₀ ⟨true, none⟩ := by
          rw [Channels.close, show s.channels tx₀ = .new from hnew.last]
          rfl
        show Chain (s.channels.close tx₀) _ _ _ _
        rw [hclosed]
        exact hnew.put_last _
    · refine ⟨e, last, ?_, hend.congr (absurd · hexpected) id fun _ hmem => ?_⟩
      · exact hchain.congr fun c₁ hc₁ =>
          Channels.close_of_request _ (hc₁ ▸ Ne.symm hn)
      · rw [hu, adds_add] at hmem
        rcases List.mem_cons.mp hmem with heq | hmem
        · cases heq
          exact absurd rfl hn
        · exact hmem

end Served
end Exchange
end Rtsp
