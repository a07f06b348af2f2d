import Rtsp.Connection.Ledger.Futures

/-!
# The ledger and the steps of the response receiver

The response receiver takes updates off the queue and entries out of its map, and it
puts an entry back under the same number when a Continue response has come. So entries
go or move on within their request and never change their request (`receive`); and the
channels touched are those of the one request that the step is about (`release`).

That another entry belongs to another request is where the ledger is used on itself:
entries of one request are under one number (`unique`), so a different number, or a
place in the queue behind the map, is a different request (`request_ne`).

When the receiver is dropped, what is left in the map is cancelled entry by entry and
what is left in the queue is thrown away. Those steps are here too, and no different.
-/

namespace Rtsp

open Lib

namespace Exchange

namespace Ledger

variable {s : Exchange}

/-- Entries go, or move on within their request. -/
theorem receive (hs : Ledger s) {receiver : ResponseReceiver}
    {updates : List PendingRequestUpdate} {channels : Channels}
    (hentered : ∀ c tx, ({ s with receiver, updates, channels } : Exchange).Entered c tx →
      ∃ tx₀, s.Entered c tx₀ ∧ tx.request = tx₀.request ∧
        ∀ h, Chain s.channels tx.request h tx₀.hop .new → Chain channels tx.request h tx.hop .new)
    (hdistinct : ((adds updates).map (·.2.request)).Nodup)
    (hapart : ∀ c tx, receiver.pendingRequests.lookup c = some tx →
      tx.request ∉ (adds updates).map (·.2.request))
    (hnext : ∀ c rx, (channels c).slot = some (.«continue» rx) → rx = c.next)
    (huntouched : ∀ c : ReplyChannel, s.numbers.length ≤ c.request → channels c = .new) :
    Ledger { s with receiver, updates, channels } :=
  { hs with
    entered := fun c tx h => by
      obtain ⟨tx₀, h₀, hsame, -⟩ := hentered c tx h
      exact hsame ▸ hs.entered c tx₀ h₀
    distinct := hdistinct
    apart := hapart
    next := hnext
    untouched := huntouched
    chain := fun n h c ha c' tx ht hn => by
      obtain ⟨tx₀, h₀, hsame, hmove⟩ := hentered c' tx ht
      obtain rfl := hn
      exact hmove h (hs.chain _ h c ha c' tx₀ h₀ hsame.symm) }

/-- One entry goes, and something happens to the channels of its request. -/
theorem release (hs : Ledger s) {c₀ : CSeq} {tx₀ : ReplyChannel} (h₀ : s.Entered c₀ tx₀)
    {receiver : ResponseReceiver} {updates : List PendingRequestUpdate} {channels : Channels}
    (hentered : ∀ c tx, ({ s with receiver, updates, channels } : Exchange).Entered c tx →
      s.Entered c tx ∧ tx.request ≠ tx₀.request)
    (hframe : ∀ c : ReplyChannel, c.request ≠ tx₀.request → channels c = s.channels c)
    (hdistinct : ((adds updates).map (·.2.request)).Nodup)
    (hapart : ∀ c tx, receiver.pendingRequests.lookup c = some tx →
      tx.request ∉ (adds updates).map (·.2.request))
    (hnext : ∀ c rx, (channels c).slot = some (.«continue» rx) → rx = c.next) :
    Ledger { s with receiver, updates, channels } := by
  refine hs.receive (fun c tx h => ?_) hdistinct hapart hnext fun c hc => ?_
  · obtain ⟨hbefore, hne⟩ := hentered c tx h
    exact ⟨tx, hbefore, rfl, fun h hchain => hchain.congr fun c hc => hframe c (hc ▸ hne)⟩
  · have hlt := hs.lt_length h₀
    exact (hframe c fun heq => Nat.not_lt.mpr hc (heq ▸ hlt)).trans (hs.untouched c hc)

/-- An entry under another number, or one that is still in the queue, is of another request. -/
theorem request_ne (hs : Ledger s) {c c₀ : CSeq} {tx tx₀ : ReplyChannel}
    (h₀ : s.receiver.pendingRequests.lookup c₀ = some tx₀)
    (h : c ≠ c₀ ∧ s.receiver.pendingRequests.lookup c = some tx ∨ (c, tx) ∈ adds s.updates) :
    s.Entered c tx ∧ tx.request ≠ tx₀.request := by
  rcases h with ⟨hne, h⟩ | h
  · exact ⟨.inl h, fun hsame => hne (hs.unique (.inl h) (.inl h₀) hsame)⟩
  · exact ⟨.inr h, fun hsame => hs.apart c₀ tx₀ h₀ (List.mem_map.mpr ⟨_, h, hsame⟩)⟩

theorem lookup_handleUpdate {update : PendingRequestUpdate} {updates : List PendingRequestUpdate}
    {c : CSeq} {tx : ReplyChannel}
    (h : (s.handleUpdate update updates).receiver.pendingRequests.lookup c = some tx) :
    c = update.cseq ∧ update = .addPendingRequest c tx ∨
      c ≠ update.cseq ∧ s.receiver.pendingRequests.lookup c = some tx := by
  rw [lookup_handlePendingRequestUpdate, word] at h
  by_cases hc : c = update.cseq
  · rw [if_pos hc] at h
    refine .inl ⟨hc, ?_⟩
    cases update with
    | addPendingRequest =>
      cases h
      cases hc
      rfl
    | removePendingRequest => cases h
  · rw [if_neg hc] at h
    exact .inr ⟨hc, h⟩

theorem handleUpdate (hs : Ledger s) {update : PendingRequestUpdate}
    {updates : List PendingRequestUpdate} (hu : s.updates = update :: updates) :
    Ledger (s.handleUpdate update updates) := by
  have hsub : (adds updates).Sublist (adds s.updates) := hu ▸ adds_sublist update updates
  have hadd : ∀ c tx, update = .addPendingRequest c tx →
      (c, tx) ∈ adds s.updates ∧ tx.request ∉ (adds updates).map (·.2.request) := by
    rintro c tx rfl
    have hdistinct := hs.distinct
    rw [hu, adds_add, List.map_cons, List.nodup_cons] at hdistinct
    exact ⟨by rw [hu, adds_add]; exact .head _, hdistinct.1⟩
  have hentered : ∀ c tx, (s.handleUpdate update updates).Entered c tx →
      c ≠ update.cseq ∧ s.receiver.pendingRequests.lookup c = some tx ∨
        (c, tx) ∈ adds s.updates := by
    intro c tx h
    rcases h with h | h
    · rcases lookup_handleUpdate h with ⟨-, hupdate⟩ | hbefore
      · exact .inr (hadd c tx hupdate).1
      · exact .inl hbefore
    · exact .inr (hsub.subset h)
  have hdistinct := hs.distinct.sublist (hsub.map _)
  have hapart : ∀ c tx, (s.handleUpdate update updates).receiver.pendingRequests.lookup c =
      some tx → tx.request ∉ (adds updates).map (·.2.request) := by
    intro c tx h
    rcases lookup_handleUpdate h with ⟨-, hupdate⟩ | ⟨-, hbefore⟩
    · exact (hadd c tx hupdate).2
    · exact fun hmem => hs.apart c tx hbefore ((hsub.map _).subset hmem)
  unfold Exchange.handleUpdate at hentered hapart ⊢
  cases hdisplaced : s.receiver.pendingRequests.lookup update.cseq with
  | none =>
    rw [hdisplaced] at hentered hapart
    refine hs.receive (fun c tx h => ?_) hdistinct hapart hs.next hs.untouched
    exact ⟨tx, (hentered c tx h).imp_left And.right, rfl, fun _ => id⟩
  | some tx₀ =>
    rw [hdisplaced] at hentered hapart
    refine hs.release (.inl hdisplaced) (fun c tx h => hs.request_ne hdisplaced (hentered c tx h))
      (fun c hc => Channels.close_of_request _ hc) hdistinct hapart ?_
    exact fun c rx h => hs.next c rx (Channels.slot_close .. ▸ h)

/-- The entry under a number is taken out, and its channel may be sent a last message. -/
theorem takeOut (hs : Ledger s) {c₀ : CSeq} {tx₀ : ReplyChannel}
    (h₀ : s.receiver.pendingRequests.lookup c₀ = some tx₀) {channels : Channels}
    (hframe : ∀ c : ReplyChannel, c.request ≠ tx₀.request → channels c = s.channels c)
    (hnext : ∀ c rx, (channels c).slot = some (.«continue» rx) → rx = c.next) :
    Ledger { s with
      receiver := { s.receiver with pendingRequests := s.receiver.pendingRequests.erase c₀ }
      channels } := by
  have hlookup : ∀ c tx, (s.receiver.pendingRequests.erase c₀).lookup c = some tx →
      c ≠ c₀ ∧ s.receiver.pendingRequests.lookup c = some tx := by
    intro c tx h
    have hne : c ≠ c₀ := by
      rintro rfl
      rw [AList.lookup_erase] at h
      cases h
    exact ⟨hne, by rwa [AList.lookup_erase_ne hne] at h⟩
  refine hs.release (.inl h₀) (fun c tx h => hs.request_ne h₀ (h.imp_left (hlookup c tx)))
    hframe hs.distinct (fun c tx h => hs.apart c tx (hlookup c tx h).2) hnext

theorem send (hs : Ledger s) {tx : ReplyChannel} {message : PendingRequestResponse}
    (hmessage : ∀ rx, message = .«continue» rx → rx = tx.next)
    (hopen : s.isClosed tx = false) (c rx : ReplyChannel)
    (h : ((s.channels.deliver [(tx, message)]) c).slot = some (.«continue» rx)) :
    rx = c.next := by
  rw [Channels.deliver_singleton, Oneshot.send_of_open hopen] at h
  refine hs.next_put tx (fun rx hrx => ?_) c rx h
  cases hrx
  exact hmessage rx rfl

theorem respond (hs : Ledger s) (response : Response) : Ledger (s.respond response) := by
  have hhandles := s.receiver.handleResponse_cases s.isClosed response
  unfold Exchange.respond
  generalize s.receiver.handleResponse s.isClosed response = handled at hhandles ⊢
  obtain ⟨receiver, ds⟩ := handled
  cases hhandles with
  | ignored _ => exact { hs with }
  | @continued c₀ tx₀ _ h₀ _ hopen =>
    have hlookup : ∀ c, (s.receiver.pendingRequests.replace c₀ tx₀.next).lookup c =
        if c = c₀ then some tx₀.next else s.receiver.pendingRequests.lookup c :=
      lookup_replace h₀
    refine hs.receive (fun c tx h => ?_) hs.distinct (fun c tx h => ?_)
      (hs.send (fun rx hrx => by cases hrx; rfl) hopen) fun c hc => ?_
    · rcases h with h | h
      · rw [hlookup] at h
        by_cases hc : c = c₀
        · -- The entry that has moved on.
          rw [if_pos hc] at h
          obtain rfl := Option.some.inj h
          refine ⟨tx₀, .inl (hc ▸ h₀), rfl, fun h hchain => ?_⟩
          rw [Channels.deliver_singleton, Oneshot.send_of_open hopen]
          exact hchain.extend
        · rw [if_neg hc] at h
          obtain ⟨hbefore, hne⟩ := hs.request_ne h₀ (.inl ⟨hc, h⟩)
          exact ⟨tx, hbefore, rfl, fun _ hchain =>
            hchain.congr fun c hc => Channels.put_of_request _ _ (hc ▸ hne)⟩
      · obtain ⟨hbefore, hne⟩ := hs.request_ne h₀ (.inr h)
        exact ⟨tx, hbefore, rfl, fun _ hchain =>
          hchain.congr fun c hc => Channels.put_of_request _ _ (hc ▸ hne)⟩
    · rw [hlookup] at h
      by_cases hc : c = c₀
      · rw [if_pos hc] at h
        obtain rfl := Option.some.inj h
        exact hs.apart c₀ tx₀ h₀
      · rw [if_neg hc] at h
        exact hs.apart c tx h
    · have hlt := hs.lt_length (.inl h₀)
      have hne : c.request ≠ tx₀.request := fun heq => Nat.not_lt.mpr hc (heq ▸ hlt)
      exact (Channels.put_of_request _ _ hne).trans (hs.untouched c hc)
  | delivered _ h₀ _ hopen =>
    exact hs.takeOut h₀ (fun c hc => Channels.put_of_request _ _ hc) (hs.send nofun hopen)
  | closed _ h₀ _ => exact hs.takeOut h₀ (fun _ _ => rfl) hs.next

theorem cancelEntry (hs : Ledger s) {c₀ : CSeq} {tx₀ : ReplyChannel}
    (h₀ : s.receiver.pendingRequests.lookup c₀ = some tx₀) : Ledger (s.cancelEntry c₀ tx₀) := by
  unfold Exchange.cancelEntry
  cases hclosed : s.isClosed tx₀ with
  | true =>
    rw [ResponseReceiver.send_of_closed hclosed]
    exact hs.takeOut h₀ (fun _ _ => rfl) hs.next
  | false =>
    rw [ResponseReceiver.send_of_open hclosed]
    exact hs.takeOut h₀ (fun c hc => Channels.put_of_request _ _ hc) (hs.send nofun hclosed)

theorem discard (hs : Ledger s) {update : PendingRequestUpdate}
    {updates : List PendingRequestUpdate} (hu : s.updates = update :: updates) :
    Ledger (s.discard update updates) := by
  have hsub : (adds updates).Sublist (adds s.updates) := hu ▸ adds_sublist update updates
  have hdistinct := hs.distinct.sublist (hsub.map _)
  have hapart : ∀ c tx, s.receiver.pendingRequests.lookup c = some tx →
      tx.request ∉ (adds updates).map (·.2.request) :=
    fun c tx h hmem => hs.apart c tx h ((hsub.map _).subset hmem)
  cases update with
  | removePendingRequest =>
    refine hs.receive (fun c tx h => ?_) hdistinct hapart hs.next hs.untouched
    exact ⟨tx, h.imp_right (hsub.subset ·), rfl, fun _ => id⟩
  | addPendingRequest c₀ tx₀ =>
    have hmem : (c₀, tx₀) ∈ adds s.updates := by
      rw [hu, adds_add]
      exact .head _
    have hdropped : tx₀.request ∉ (adds updates).map (·.2.request) := by
      have hnodup := hs.distinct
      rw [hu, adds_add, List.map_cons, List.nodup_cons] at hnodup
      exact hnodup.1
    refine hs.release (.inr hmem) (fun c tx h => ?_) (fun c hc => Channels.close_of_request _ hc)
      hdistinct hapart fun c rx h => hs.next c rx (Channels.slot_close .. ▸ h)
    rcases h with h | h
    · refine ⟨.inl h, fun hsame => hs.apart c tx h (hsame ▸ ?_)⟩
      exact List.mem_map.mpr ⟨_, hmem, rfl⟩
    · exact ⟨.inr (hsub.subset h), fun hsame => hdropped (List.mem_map.mpr ⟨_, h, hsame⟩)⟩

end Ledger

end Exchange
end Rtsp
