import Rtsp.Connection.Ledger

/-!
# No entry is left behind

Every entry of the response receiver has an owner: a call that has not returned,
or a future that will ask for the removal when it is dropped. If the owner is
gone, its removal is in the queue, behind the update that makes the entry
(`Owned`). So nothing is left once every handle and every future is gone and the
queue has been worked off (`pending_owned`).

The owner knows that nothing is left to remove when its channel says that it has
been answered or cancelled: an entry has a channel that has not been used
(`Ledger.chain`).

An entry is made when its update is handled, which can be long after the call has
returned, and even after its future is gone. Therefore the invariant speaks of the
updates as well: an update in the queue that will make an entry has an owner, or the
removal behind it.

The call comes in between. Its pending request is queued before its message, and its
future is there only when both are; up to then nobody but the call knows of the entry.
This is the one case that an entry's owner is no future (`entry_before_future`), and it
does no harm, since the call either makes the future or queues the removal.

A future that is neither polled nor dropped keeps its entry, by the letter of the
result: it is an owner as long as it is there.
-/

namespace Rtsp

open Lib

/-- The stages of a future that has not returned and not asked for the removal. -/
def Stage.unresolved : Stage → Bool
  | waiting | timers | panicked | cancelling _ => true
  | closing _ | returned | dropped => false

namespace Exchange

/-- Request `n` has an owner: the call, or the future it has returned. -/
def Owner (s : Exchange) (n : Nat) : Prop :=
  (∃ call, s.call = some call ∧ call.request = n) ∨
    ∃ r stage, s.requests n = some (r, stage) ∧ stage.unresolved = true

/-- A future that moves on stays an owner, and the others do in any case. -/
theorem Owner.update {s s' : Exchange} {n m : Nat} {r : SendRequest} {stage : Stage}
    (h : s.Owner m) (hcall : s'.call = s.call)
    (hrequests : s'.requests = Function.update s.requests n (some (r, stage)))
    (hstays : m ≠ n ∨ stage.unresolved = true) : s'.Owner m := by
  by_cases hm : m = n
  · refine .inr ⟨r, stage, ?_, hstays.resolve_left fun hne => hne hm⟩
    rw [hrequests, hm, Function.update_self]
  · rcases h with ⟨call, hk, hn⟩ | ⟨r₁, stage₁, hr₁, hstage₁⟩
    · exact .inl ⟨call, hcall ▸ hk, hn⟩
    · exact .inr ⟨r₁, stage₁, by rw [hrequests, Function.update_of_ne hm, hr₁], hstage₁⟩

/-- Every entry has an owner or a removal to come: what is in the map, and what the queue will
    put there. Once the queue has been closed, nothing is entered. -/
structure Owned (s : Exchange) : Prop where
  entries : s.phase ≠ .closed → ∀ c tx, s.receiver.pendingRequests.lookup c = some tx →
    s.Owner tx.request ∨ .removePendingRequest c ∈ s.updates
  queued : s.phase ≠ .closed → ∀ c tx us, .addPendingRequest c tx :: us <:+ s.updates →
    s.Owner tx.request ∨ .removePendingRequest c ∈ us
  closed : s.phase = .closed → ∀ c, s.receiver.pendingRequests.lookup c = none

namespace Owned

variable {s : Exchange}

/-! ## Steps of the calls and the futures -/

/-- The owners of the requests that are entered stay. -/
theorem keep (hs : Owned s) {s' : Exchange} (hreceiver : s'.receiver = s.receiver)
    (hupdates : s'.updates = s.updates) (hphase : s'.phase = s.phase)
    (howner : ∀ c tx, s.Entered c tx → s.Owner tx.request → s'.Owner tx.request) : Owned s' where
  entries hopen c tx h := by
    rw [hreceiver] at h
    rw [hupdates]
    exact (hs.entries (hphase ▸ hopen) c tx h).imp_left (howner c tx (.inl h))
  queued hopen c tx us h := by
    rw [hupdates] at h
    have hmem : (c, tx) ∈ adds s.updates := by
      obtain ⟨before, hbefore⟩ := h
      rw [← hbefore, adds_append, adds_add]
      exact List.mem_append_right _ (.head _)
    exact (hs.queued (hphase ▸ hopen) c tx us h).imp_left (howner c tx (.inr hmem))
  closed hclosed := by
    rw [hreceiver]
    exact hs.closed (hphase ▸ hclosed)

/-- The owner of a request goes once it has queued the removal. -/
theorem unboundedSend (hs : Owned s) (n : Nat) (c : CSeq) {s' : Exchange}
    (hreceiver : s'.receiver = s.receiver)
    (hupdates : s'.updates = (s.unboundedSend (.removePendingRequest c)).updates)
    (hphase : s'.phase = s.phase) (hnumber : ∀ c' tx, s.Entered c' tx → tx.request = n → c' = c)
    (howner : ∀ m, m ≠ n → s.Owner m → s'.Owner m) : Owned s' := by
  by_cases hclosed : s.phase = .closed
  · exact {
      entries := fun hopen => absurd (hphase.trans hclosed) hopen
      queued := fun hopen => absurd (hphase.trans hclosed) hopen
      closed := fun _ => hreceiver ▸ hs.closed hclosed }
  · have hqueue : s'.updates = s.updates ++ [.removePendingRequest c] := by
      rw [hupdates, unboundedSend_eq, if_neg hclosed]
    have hlast : ∀ us : List PendingRequestUpdate,
        .removePendingRequest c ∈ us ++ [.removePendingRequest c] :=
      fun us => List.mem_append_right us (.head _)
    exact {
      entries := fun _ c' tx h => by
        rw [hreceiver] at h
        rw [hqueue]
        by_cases hn : tx.request = n
        · rw [hnumber c' tx (.inl h) hn]
          exact .inr (hlast _)
        · exact (hs.entries hclosed c' tx h).imp (howner _ hn) (List.mem_append_left _)
      queued := fun _ c' tx us h => by
        rw [hqueue] at h
        -- The removal is not what enters the request, so it is at the end of what follows.
        rcases List.suffix_concat_iff.mp h with hnil | ⟨front, hfront, hsuffix⟩
        · cases hnil
        · cases front with
          | nil => cases hfront
          | cons u front =>
            obtain ⟨rfl, rfl⟩ := List.cons.inj hfront
            have hmem : (c', tx) ∈ adds s.updates := by
              obtain ⟨before, hbefore⟩ := hsuffix
              rw [← hbefore, adds_append, adds_add]
              exact List.mem_append_right _ (.head _)
            by_cases hn : tx.request = n
            · rw [hnumber c' tx (.inr hmem) hn]
              exact .inr (hlast _)
            · exact (hs.queued hclosed c' tx front hsuffix).imp (howner _ hn)
                (List.mem_append_left _)
      closed := fun hafter => absurd (hphase.symm.trans hafter) hclosed }

/-- A future that finds its reply, or finds that none will come, is not entered any more. -/
theorem not_entered (hledger : Ledger s) {n : Nat} {r : SendRequest} {stage : Stage}
    (hr : s.requests n = some (r, stage)) (hstage : stage.listens = true)
    (hnew : s.channels r.rxResponse ≠ .new)
    (hcontinue : ∀ rx, s.channels r.rxResponse ≠ .filled (.«continue» rx)) {c : CSeq}
    {tx : ReplyChannel} (h : s.Entered c tx) : tx.request ≠ n := by
  intro hn
  have hfirst := (hledger.chain n _ _ (.request hr hstage) c tx h hn).first
  rw [show (⟨n, r.rxResponse.hop⟩ : ReplyChannel) = r.rxResponse by
    rw [← (hledger.request n r stage hr).2]] at hfirst
  rcases hfirst with ⟨-, hlast⟩ | ⟨-, hlast⟩
  · exact hnew hlast
  · exact hcontinue _ hlast

theorem canceled_ne {channel : Oneshot PendingRequestResponse} (h : channel.Canceled) :
    channel ≠ .new ∧ ∀ rx, channel ≠ .filled (.«continue» rx) := by
  refine ⟨?_, fun rx => ?_⟩
  · rintro rfl
    exact Oneshot.not_canceled_new h
  · rintro rfl
    exact Oneshot.not_canceled_filled _ h

theorem looked (hs : Owned s) (hledger : Ledger s) {n : Nat} {r : SendRequest}
    (hr : s.requests n = some (r, .waiting)) :
    Owned (s.looked n (r.pollRequest s.channels) r) := by
  have hshared := shared_looked s n (r.pollRequest s.channels) r
  refine hs.keep hshared.receiver hshared.updates hshared.phase fun c tx ht howner => ?_
  have hlooks := r.pollRequest_cases s.channels
  generalize r.pollRequest s.channels = looked at hlooks
  cases hlooks with
  | notReady _ => exact howner.update rfl rfl (.inr rfl)
  | «continue» _ => exact howner.update rfl rfl (.inr rfl)
  | none hnone =>
    have hne := not_entered hledger hr rfl (hnone ▸ Oneshot.filled_ne_new)
      (fun rx heq => by cases Oneshot.filled_injective (hnone.symm.trans heq)) ht
    exact howner.update rfl rfl (.inl hne)
  | response hresponse =>
    have hne := not_entered hledger hr rfl (hresponse ▸ Oneshot.filled_ne_new)
      (fun rx heq => by cases Oneshot.filled_injective (hresponse.symm.trans heq)) ht
    exact howner.update rfl rfl (.inl hne)
  | canceled _ => exact howner.update rfl rfl (.inr rfl)

theorem pollTimers (hs : Owned s) {n : Nat} {r : SendRequest}
    (timed : Rust (Except OperationError Unit)) :
    Owned (s.putRequest n r (Exchange.timed timed)) := by
  have hunresolved : (Exchange.timed timed).unresolved = true := by
    rcases timed with _ | (_ | _)
    · rfl
    · rfl
    · rfl
  exact hs.keep rfl rfl rfl fun c tx _ howner => howner.update rfl rfl (.inr hunresolved)

/-- A future that has asked for the removal is no owner any more. -/
theorem closeReceiver (hs : Owned s) (hledger : Ledger s) {n : Nat} {r : SendRequest}
    {error : Option OperationError} (hr : s.requests n = some (r, .closing error)) :
    Owned (s.closeReceiver n r error) := by
  have hshared := shared_closeReceiver s n r error
  refine hs.keep hshared.receiver hshared.updates hshared.phase fun c tx _ howner => ?_
  have hne : tx.request ≠ n := by
    intro hn
    rcases howner with ⟨call, hcall, hcalled⟩ | ⟨r₁, stage₁, hr₁, hstage₁⟩
    · have hnone := (hledger.call call hcall).2.2
      rw [hcalled, hn, hr] at hnone
      cases hnone
    · rw [hn, hr] at hr₁
      cases hr₁
      cases hstage₁
  cases error
  all_goals exact howner.update rfl rfl (.inl hne)

theorem drop (hs : Owned s) (hledger : Ledger s) {n : Nat} {r : SendRequest} {stage : Stage}
    (hr : s.requests n = some (r, stage)) (hstage : stage.isDroppable = true) :
    Owned (s.drop n r) := by
  have hshared := shared_drop s n r
  refine hs.keep hshared.receiver hshared.updates hshared.phase fun c tx ht howner => ?_
  have hchecks := r.pollIsCancelled_cases s.channels
  unfold Exchange.drop
  generalize r.pollIsCancelled s.channels = checked at hchecks ⊢
  obtain ⟨cancelled, channels⟩ := checked
  cases hchecks with
  | cancelled hcanceled =>
    refine howner.update rfl rfl (.inl fun hn => ?_)
    -- The owner is the future itself, which has not returned.
    have hlistens : stage.listens = true := by
      rcases howner with ⟨call, hcall, hcalled⟩ | ⟨r₁, stage₁, hr₁, hstage₁⟩
      · have hnone := (hledger.call call hcall).2.2
        rw [hcalled, hn, hr] at hnone
        cases hnone
      · rw [hn, hr] at hr₁
        cases hr₁
        cases stage with
        | waiting => rfl
        | panicked => rfl
        | returned => cases hstage₁
        | _ => cases hstage
    obtain ⟨hnew, hcontinue⟩ := canceled_ne hcanceled
    exact not_entered hledger hr hlistens hnew hcontinue ht hn
  | notReady _ => exact howner.update rfl rfl (.inr rfl)
  | «continue» _ => exact howner.update rfl rfl (.inr rfl)
  | taken _ _ => exact howner.update rfl rfl (.inr rfl)

/-! ## Steps of the response receiver -/

/-- Entries go from the map, or move on within their request. -/
theorem receive (hs : Owned s) {receiver : ResponseReceiver} {channels : Channels}
    (hphase : s.phase ≠ .closed)
    (hlookup : ∀ c tx, receiver.pendingRequests.lookup c = some tx →
      ∃ tx₀, s.receiver.pendingRequests.lookup c = some tx₀ ∧ tx₀.request = tx.request) :
    Owned { s with receiver, channels } where
  entries hopen c tx h := by
    obtain ⟨tx₀, h₀, hsame⟩ := hlookup c tx h
    have howned := hs.entries hopen c tx₀ h₀
    rwa [hsame] at howned
  queued := hs.queued
  closed hclosed := absurd hclosed hphase

theorem erase (hs : Owned s) (hphase : s.phase ≠ .closed) (c₀ : CSeq) (channels : Channels) :
    Owned { s with
      receiver := { s.receiver with pendingRequests := s.receiver.pendingRequests.erase c₀ }
      channels } := by
  refine hs.receive hphase fun c tx h => ⟨tx, ?_, rfl⟩
  have hne : c ≠ c₀ := by
    rintro rfl
    rw [AList.lookup_erase] at h
    cases h
  rwa [AList.lookup_erase_ne hne] at h

theorem respond (hs : Owned s) (hphase : s.phase ≠ .closed) (response : Response) :
    Owned (s.respond response) := by
  have hhandles := s.receiver.handleResponse_cases s.isClosed response
  unfold Exchange.respond
  generalize s.receiver.handleResponse s.isClosed response = handled at hhandles ⊢
  obtain ⟨receiver, ds⟩ := handled
  cases hhandles with
  | ignored _ => exact hs.receive hphase fun c tx h => ⟨tx, h, rfl⟩
  | @continued c₀ tx₀ _ h₀ _ _ =>
    refine hs.receive hphase fun c tx h => ?_
    rw [lookup_replace h₀] at h
    by_cases hc : c = c₀
    · rw [if_pos hc] at h
      obtain rfl := Option.some.inj h
      exact ⟨tx₀, hc ▸ h₀, rfl⟩
    · rw [if_neg hc] at h
      exact ⟨tx, h, rfl⟩
  | delivered _ _ _ _ => exact hs.erase hphase _ _
  | closed _ _ _ => exact hs.erase hphase _ _

/-- The first update is handled: a removal takes away the entry it was there for. -/
theorem handleUpdate (hs : Owned s) (hphase : s.phase ≠ .closed) {update : PendingRequestUpdate}
    {updates : List PendingRequestUpdate} (hu : s.updates = update :: updates) :
    Owned (s.handleUpdate update updates) where
  entries _ c tx h := by
    rcases Ledger.lookup_handleUpdate h with ⟨-, rfl⟩ | ⟨hne, hbefore⟩
    · exact hs.queued hphase c tx updates (hu ▸ List.suffix_refl _)
    · refine (hs.entries hphase c tx hbefore).imp_right fun hmem => ?_
      rw [hu] at hmem
      rcases List.mem_cons.mp hmem with heq | hmem
      · exact absurd (congrArg PendingRequestUpdate.cseq heq) hne
      · exact hmem
  queued _ c tx us h := by
    have hsuffix : updates <:+ s.updates := hu ▸ List.suffix_cons _ _
    exact hs.queued hphase c tx us (h.trans hsuffix)
  closed hclosed := absurd hclosed hphase

theorem addPendingRequest (hs : Owned s) (options : RequestOptions) (hlock : s.call = none)
    (hphase : s.phase ≠ .closed) : Owned (s.addPendingRequest options) := by
  have howner : ∀ n, s.Owner n → (s.addPendingRequest options).Owner n := by
    intro n h
    rcases h with ⟨call, hcall, -⟩ | h
    · rw [hlock] at hcall
      cases hcall
    · exact .inr h
  exact {
    entries := fun _ c tx h =>
      (hs.entries hphase c tx h).imp (howner _) (List.mem_append_left _)
    queued := fun _ c tx us h => by
      rcases List.suffix_concat_iff.mp h with hnil | ⟨front, hfront, hsuffix⟩
      · cases hnil
      · cases front with
        | nil =>
          cases hfront
          exact .inl (.inl ⟨_, rfl, rfl⟩)
        | cons u front =>
          obtain ⟨rfl, rfl⟩ := List.cons.inj hfront
          exact (hs.queued hphase c tx front hsuffix).imp (howner _) (List.mem_append_left _)
    closed := fun hclosed => absurd hclosed hphase }

/-- The connection's task moves on. -/
theorem move (hs : Owned s) (phase : Phase) (isDone : Bool) (hbefore : s.phase ≠ .closed)
    (hafter : phase ≠ .closed) :
    Owned { s with phase, receiver := { s.receiver with isDone } } where
  entries _ := hs.entries hbefore
  queued _ := hs.queued hbefore
  closed hclosed := absurd hclosed hafter

/-! ## Every step -/

theorem start (first : CSeq) : Owned (start first) where
  entries _ _ _ h := by cases h
  queued _ _ _ _ h := by cases List.suffix_nil.mp h
  closed _ _ := rfl

/-- **Every step leaves the entries owned.** -/
theorem step {s' : Exchange} {op : Op} (hledger : Ledger s) (hs : Owned s) (h : Step s op s') :
    Owned s' := by
  cases h with
  | addPendingRequest options hlock =>
    split
    · exact hs
    · next hopen => exact hs.addPendingRequest options hlock hopen
  | @queueMessage call hcall =>
    refine hs.keep rfl rfl rfl fun c tx _ howner => ?_
    rcases howner with ⟨k, hk, hcalled⟩ | ⟨r, stage, hr, hstage⟩
    · obtain rfl := Option.some.inj (hcall.symm.trans hk)
      rw [← hcalled]
      exact .inr ⟨_, .waiting, Function.update_self .., rfl⟩
    · have hne : tx.request ≠ call.request := by
        intro heq
        rw [heq, (hledger.call call hcall).2.2] at hr
        cases hr
      exact .inr ⟨r, stage, (Function.update_of_ne hne _ _).trans hr, hstage⟩
  | @messageFails call hcall =>
    refine hs.keep rfl rfl rfl fun c tx _ howner => ?_
    rcases howner with ⟨k, hk, hcalled⟩ | howner
    · obtain rfl := Option.some.inj (hcall.symm.trans hk)
      exact .inl ⟨_, rfl, hcalled⟩
    · exact .inr howner
  | @retract call hcall =>
    obtain ⟨-, hnumber, -⟩ := hledger.call call hcall
    refine hs.unboundedSend call.request call.sequenceNumber ?_ rfl ?_ ?_ ?_
    · rw [retract, unboundedSend_eq]
    · rw [retract, unboundedSend_eq]
    · intro c tx ht hn
      have hentered := hledger.entered c tx ht
      rw [hn, hnumber] at hentered
      exact (Option.some.inj hentered).symm
    · intro m hm howner
      rcases howner with ⟨k, hk, hcalled⟩ | howner
      · obtain rfl := Option.some.inj (hcall.symm.trans hk)
        exact absurd hcalled.symm hm
      · rw [retract, unboundedSend_eq]
        exact .inr howner
  | handleUpdate hphase hu =>
    refine hs.handleUpdate (fun hclosed => ?_) hu
    rcases hphase with h | h
    · cases hclosed.symm.trans h
    · cases hclosed.symm.trans h
  | respond response hreading =>
    exact hs.respond (fun hclosed => by cases hclosed.symm.trans hreading) response
  | cancelEntry hcancelling _ =>
    exact hs.erase (fun hclosed => by cases hclosed.symm.trans hcancelling) _ _
  | closeQueue _ hempty =>
    exact {
      entries := fun hopen => absurd rfl hopen
      queued := fun hopen => absurd rfl hopen
      closed := fun _ c => AList.lookup_eq_none.mpr fun hmem => by
        rw [AList.mem_keys, hempty] at hmem
        cases hmem }
  | discard hclosed _ =>
    exact {
      entries := fun hopen => absurd hclosed hopen
      queued := fun hopen => absurd hclosed hopen
      closed := fun _ => hs.closed hclosed }
  | poll hr => exact hs.looked hledger hr
  | pollTimers _ _ _ => exact hs.pollTimers _
  | @queueRemoval n r error hr =>
    obtain ⟨hnumber, -⟩ := hledger.request n r _ hr
    refine hs.unboundedSend n r.sequenceNumber ?_ rfl ?_ ?_ ?_
    · rw [unboundedSend_eq]
      rfl
    · rw [unboundedSend_eq]
      rfl
    · intro c tx ht hn
      have hentered := hledger.entered c tx ht
      rw [hn, hnumber] at hentered
      exact (Option.some.inj hentered).symm
    · intro m hm howner
      rw [unboundedSend_eq]
      exact howner.update rfl rfl (.inl hm)
  | closeReceiver hr => exact hs.closeReceiver hledger hr
  | drop hr hstage => exact hs.drop hledger hr hstage
  | startPoll hidle =>
    exact hs.move .draining s.receiver.isDone (by rw [hidle]; exact fun h => by cases h)
      fun h => by cases h
  | drained _ hphase =>
    refine hs.move _ s.receiver.isDone ?_ ?_
    · rcases hphase with ⟨hdraining, -⟩ | hdropping
      · rw [hdraining]; exact fun h => by cases h
      · rw [hdropping]; exact fun h => by cases h
    · split
      · exact fun h => by cases h
      · exact fun h => by cases h
  | ended _ hdraining =>
    exact hs.move .dropping true (by rw [hdraining]; exact fun h => by cases h) fun h => by cases h
  | finishPoll hreading =>
    exact hs.move .idle s.receiver.isDone (by rw [hreading]; exact fun h => by cases h)
      fun h => by cases h
  | startDrop hphase =>
    refine hs.move .dropping s.receiver.isDone ?_ fun h => by cases h
    rcases hphase with hidle | hreading
    · rw [hidle]; exact fun h => by cases h
    · rw [hreading]; exact fun h => by cases h
  | cloneHandle => exact hs.keep rfl rfl rfl fun _ _ _ => id
  | dropHandle => exact hs.keep rfl rfl rfl fun _ _ _ => id
  | write => exact hs.keep rfl rfl rfl fun _ _ _ => id
  | closeSender => exact hs.keep rfl rfl rfl fun _ _ _ => id

end Owned

/-! ## The result -/

theorem owned_run {first : CSeq} {ops : List Op} {s : Exchange} (h : Run Step (start first) ops s) :
    Ledger s ∧ Owned s :=
  h.invariant (I := fun s => Ledger s ∧ Owned s) ⟨Ledger.start first, Owned.start first⟩
    fun _ _ _ hs hstep => ⟨hs.1.step hstep, hs.2.step hs.1 hstep⟩

/-- The entry under `c` for request `n` belongs to a future that has neither returned nor asked
    for the removal. -/
def Live (s : Exchange) (n : Nat) (c : CSeq) : Prop :=
  ∃ r stage, s.requests n = some (r, stage) ∧ r.sequenceNumber = c ∧ stage.unresolved = true

/-- The entry under `c` for request `n` belongs to a call that has not returned. -/
def Calling (s : Exchange) (n : Nat) (c : CSeq) : Prop :=
  ∃ call, s.call = some call ∧ call.request = n ∧ call.sequenceNumber = c

/-- **Pending requests do not leak.** Each entry belongs to a future or to a call that will see
    to it, or its removal is in the queue. When every handle and every future is gone, and the
    queue has been worked off, none is left. -/
theorem pending_owned {first : CSeq} {ops : List Op} {s : Exchange}
    (h : Run Step (start first) ops s) :
    (∀ c tx, s.receiver.pendingRequests.lookup c = some tx →
      s.Live tx.request c ∨ s.Calling tx.request c ∨ .removePendingRequest c ∈ s.updates) ∧
    (s.sendersGone = true → s.updates = [] → s.receiver.pendingRequests.keys = []) := by
  obtain ⟨hledger, howned⟩ := owned_run h
  have hentries : ∀ c tx, s.receiver.pendingRequests.lookup c = some tx →
      s.Live tx.request c ∨ s.Calling tx.request c ∨ .removePendingRequest c ∈ s.updates := by
    intro c tx htx
    have hopen : s.phase ≠ .closed := by
      intro hclosed
      rw [howned.closed hclosed c] at htx
      cases htx
    have hnumber := hledger.entered c tx (.inl htx)
    rcases howned.entries hopen c tx htx with (⟨call, hcall, hn⟩ | ⟨r, stage, hr, hstage⟩) | hmem
    · refine .inr (.inl ⟨call, hcall, hn, ?_⟩)
      rw [← hn, (hledger.call call hcall).2.1] at hnumber
      exact Option.some.inj hnumber
    · refine .inl ⟨r, stage, hr, ?_, hstage⟩
      rw [(hledger.request _ r stage hr).1] at hnumber
      exact Option.some.inj hnumber
    · exact .inr (.inr hmem)
  refine ⟨hentries, fun hgone hempty => List.eq_nil_iff_forall_not_mem.mpr fun c hmem => ?_⟩
  obtain ⟨tx, htx⟩ := Option.isSome_iff_exists.mp
    (AList.lookup_isSome.mpr (AList.mem_keys.mpr hmem))
  obtain ⟨hhandles, halive⟩ := of_decide_eq_true hgone
  rcases hentries c tx htx with ⟨r, stage, hr, -, hstage⟩ | ⟨call, hcall, -, -⟩ | hremoval
  · -- The future is among those that are said to be gone.
    have hlt : tx.request < s.numbers.length := hledger.lt_length (.inl htx)
    have hdead := List.all_eq_true.mp halive _ (List.mem_range.mpr hlt)
    rw [isAlive, hr] at hdead
    have hdropped : stage = .dropped := by simpa using hdead
    rw [hdropped] at hstage
    cases hstage
  · have hheld := hledger.held
    rw [hcall, hhandles] at hheld
    cases hheld
  · rw [hempty] at hremoval
    cases hremoval

/-- A call whose message could not be queued, and an entry of a future that was dropped. -/
theorem pending_owned_retracted : ∃ s : Exchange,
    s.receiver.pendingRequests.lookup ⟨7, by decide⟩ = some ⟨0, 0⟩ ∧
      (s.Live 0 ⟨7, by decide⟩ ∨ s.Calling 0 ⟨7, by decide⟩ ∨
        .removePendingRequest ⟨7, by decide⟩ ∈ s.updates) := by
  let ops : List Op := [.closeSender, .addPendingRequest noTimeouts, .messageFails, .startPoll,
    .handleUpdate, .retract]
  let run := replay exec (start ⟨7, by decide⟩) ops
  have hrun : Run Step (start ⟨7, by decide⟩) ops (run.get (by decide +kernel)) :=
    .of_replay (fun _ _ _ => step_of_exec) (Option.some_get _).symm
  have hentry : (run.get (by decide +kernel)).receiver.pendingRequests.lookup ⟨7, by decide⟩ =
      some ⟨0, 0⟩ := by decide +kernel
  exact ⟨_, hentry, (pending_owned hrun).1 _ _ hentry⟩

/-- **An entry can be there before its future is**, and without a removal. -/
theorem entry_before_future : ¬ ∀ first ops s c tx, Run Step (start first) ops s →
    s.receiver.pendingRequests.lookup c = some tx →
    s.Live tx.request c ∨ .removePendingRequest c ∈ s.updates := by
  intro h
  let ops : List Op := [.addPendingRequest noTimeouts, .startPoll, .handleUpdate]
  let run := replay exec (start ⟨7, by decide⟩) ops
  have hrun : Run Step (start ⟨7, by decide⟩) ops (run.get (by decide +kernel)) :=
    .of_replay (fun _ _ _ => step_of_exec) (Option.some_get _).symm
  have hnone : (run.get (by decide +kernel)).requests 0 = none := by decide +kernel
  rcases h _ _ _ ⟨7, by decide⟩ ⟨0, 0⟩ hrun (by decide +kernel) with ⟨r, stage, hr, -⟩ | hremoval
  · cases hnone.symm.trans hr
  · revert hremoval
    decide +kernel

end Exchange
end Rtsp
