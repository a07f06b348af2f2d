import Rtsp.Connection.Replies.Ends

/-!
# Those who wait, and the steps of the calls and the futures

What the calls and the futures do to the queue, seen by those who wait for other
requests. A pending request or a removal is queued under a number, and changes what is
expected under that number alone; the step satisfies `keepsOthers`, so nobody else waits
there (`expected_unboundedSend`).

What they do to their own request is simple in comparison. A call that makes a request
becomes one who waits, with an entry that is queued; a future that has looked at a
Continue stands one hop further on the same chain; and a future that is cancelled waits
no longer, and nothing has to be shown of it.
-/

namespace Rtsp

open Lib

namespace Exchange

variable {s s' : Exchange}

namespace Served

variable {lossy : Nat → Prop}

/-- It matters only whether those who wait may be lost. -/
theorem mono {lossy' : Nat → Prop} (hs : Served s lossy)
    (hlossy : ∀ n h c, s.Awaits n h c → lossy n → lossy' n) : Served s lossy' := by
  intro n h c ha
  obtain ⟨e, last, hchain, hend⟩ := hs n h c ha
  refine ⟨e, last, hchain, ?_⟩
  cases hend with
  | expected h => exact .expected h
  | answered hnumber hfinal => exact .answered hnumber hfinal
  | told hdone => exact .told hdone
  | late h hdone hmem => exact .late (hlossy n _ c ha h) hdone hmem
  | lost h hdone => exact .lost (hlossy n _ c ha h) hdone

/-- What a step leaves to those who wait. -/
theorem keep (hs : Served s lossy) (hawaits : ∀ n h c, s'.Awaits n h c → s.Awaits n h c)
    (hframe : ∀ n h c, s'.Awaits n h c →
      ∀ c₁ : ReplyChannel, c₁.request = n → s'.channels c₁ = s.channels c₁)
    (hends : ∀ n h c, s'.Awaits n h c → ∀ e last,
      Ends s (lossy n) n e c last → Ends s' (lossy n) n e c last) : Served s' lossy := by
  intro n h c ha
  obtain ⟨e, last, hchain, hend⟩ := hs n h c (hawaits n h c ha)
  exact ⟨e, last, hchain.congr (hframe n h c ha), hends n h c ha e last hend⟩

/-- A step of the calls or the futures that leaves the channels and the response receiver. -/
theorem same (hs : Served s lossy) (hawaits : ∀ n h c, s'.Awaits n h c → s.Awaits n h c)
    (hchannels : s'.channels = s.channels) (hreceiver : s'.receiver = s.receiver)
    (hupdates : s'.updates = s.updates) (hphase : s'.phase = s.phase) : Served s' lossy := by
  refine hs.keep hawaits (fun _ _ _ _ _ _ => by rw [hchannels]) fun n h c _ e last hend => ?_
  refine hend.congr (fun hbefore => ?_) (fun hdone => hphase ▸ hdone) fun _ hmem => hupdates ▸ hmem
  unfold Exchange.expected registered at hbefore ⊢
  rw [hphase, hupdates, hreceiver]
  exact hbefore

/-- The connection's task moves on. -/
theorem move (hs : Served s lossy) (phase : Phase) (isDone : Bool)
    (hphase : s.phase.handlesUpdates = false → phase.handlesUpdates = false)
    (hexpected : s.phase.handlesUpdates = phase.handlesUpdates ∨ s.updates = []) :
    Served { s with phase, receiver := { s.receiver with isDone } } lossy := by
  refine hs.keep (fun _ _ _ => id) (fun _ _ _ _ _ _ => rfl) fun n h c _ e last hend => ?_
  refine hend.congr (fun hbefore => ?_) hphase fun _ => id
  rcases hexpected with hsame | hempty
  · unfold Exchange.expected at hbefore ⊢
    rw [hsame] at hbefore
    exact hbefore
  · rw [expected_of_empty hempty] at hbefore
    rw [expected_of_empty (by exact hempty)]
    exact hbefore

theorem putRequest (hledger : Ledger s) (hs : Served s lossy) {n : Nat} {r r' : SendRequest}
    {stage stage' : Stage} (hr : s.requests n = some (r, stage)) {channels : Channels}
    (hframe : ∀ c : ReplyChannel, c.request ≠ n → channels c = s.channels c)
    (hown : stage'.listens = true → ∃ e last, Chain channels n r'.rxResponse.hop e last ∧
      Ends s (lossy n) n e r'.sequenceNumber last) :
    Served ({ s with channels }.putRequest n r' stage') lossy := by
  intro m h c ha
  by_cases hm : m = n
  · obtain rfl := hm
    cases ha with
    | @call call hcall hm' =>
      have hnone := (hledger.call call hcall).2.2
      rw [hm', hr] at hnone
      cases hnone
    | @request r₁ stage₁ hr₁ hstage =>
      obtain ⟨rfl, rfl⟩ : r' = r₁ ∧ stage' = stage₁ := by
        simpa [Exchange.putRequest] using hr₁
      obtain ⟨e, last, hchain, hend⟩ := hown hstage
      exact ⟨e, last, hchain, hend.congr id id fun _ => id⟩
  · have hbefore : s.Awaits m h c := by
      have hsame : ({ s with channels }.putRequest n r' stage').requests m = s.requests m :=
        Function.update_of_ne hm _ _
      unfold Awaits at ha ⊢
      rwa [hsame] at ha
    obtain ⟨e, last, hchain, hend⟩ := hs m h c hbefore
    exact ⟨e, last, hchain.congr fun c₁ hc₁ => hframe c₁ (hc₁ ▸ hm),
      hend.congr id id fun _ => id⟩

/-- What a future returns does not matter to the others. -/
theorem finish (hledger : Ledger s) (hs : Served s lossy) {n : Nat} {r : SendRequest}
    {stage : Stage} (hr : s.requests n = some (r, stage)) {channels : Channels}
    (hframe : ∀ c : ReplyChannel, c.request ≠ n → channels c = s.channels c)
    (result : Except OperationError Response) :
    Served ({ s with channels }.finish n r result) lossy := by
  have hput : Served ({ s with channels }.putRequest n r .returned) lossy :=
    hs.putRequest hledger hr hframe nofun
  exact hput.same (fun _ _ _ => id) rfl rfl rfl rfl

theorem looked (hledger : Ledger s) (hs : Served s lossy) {n : Nat} {r : SendRequest}
    (hr : s.requests n = some (r, .waiting)) :
    Served (s.looked n (r.pollRequest s.channels) r) lossy := by
  have hrx := (hledger.request n r _ hr).2
  have hlooks := r.pollRequest_cases s.channels
  have hframe : ∀ (channel : Oneshot PendingRequestResponse) (c : ReplyChannel), c.request ≠ n →
      s.channels.put r.rxResponse channel c = s.channels c :=
    fun channel c hc => Channels.put_of_request _ _ (hrx ▸ hc)
  have hown := hs n _ _ (.request hr rfl)
  generalize r.pollRequest s.channels = looked at hlooks
  cases hlooks with
  | notReady _ => exact hs.putRequest hledger hr (fun _ _ => rfl) fun _ => hown
  | @«continue» rx hcontinue =>
    have hnext : rx = r.rxResponse.next := hledger.next _ rx (by rw [hcontinue]; rfl)
    have hself : r.rxResponse = ⟨n, r.rxResponse.hop⟩ := by rw [← hrx]
    refine hs.putRequest hledger hr (hframe _) fun _ => ?_
    obtain ⟨e, last, hchain, hend⟩ := hown
    have hfirst := hchain.first
    rw [← hself, hcontinue] at hfirst
    rcases hfirst with ⟨-, hlast⟩ | ⟨hlt, -⟩
    · exact absurd hlast.symm (hend.ne_continue rx)
    · have htaken := hchain.take hlt ⟨true, none⟩
      rw [← hself] at htaken
      rw [hnext]
      exact ⟨e, last, htaken, hend⟩
  | none _ => exact hs.finish hledger hr (hframe _) _
  | response _ => exact hs.finish hledger hr (hframe _) _
  | canceled _ => exact hs.putRequest hledger hr (fun _ _ => rfl) fun _ => hown

theorem pollTimers (hledger : Ledger s) (hs : Served s lossy) {n : Nat} {r : SendRequest}
    (hr : s.requests n = some (r, .timers)) (timed : Rust (Except OperationError Unit)) :
    Served (s.putRequest n r (Exchange.timed timed)) lossy :=
  hs.putRequest hledger hr (fun _ _ => rfl) fun _ => hs n _ _ (.request hr rfl)

theorem closeReceiver (hledger : Ledger s) (hs : Served s lossy) {n : Nat} {r : SendRequest}
    {error : Option OperationError} (hr : s.requests n = some (r, .closing error)) :
    Served (s.closeReceiver n r error) lossy := by
  have hrx := (hledger.request n r _ hr).2
  cases error with
  | some error =>
    exact hs.finish hledger hr (fun c hc => Channels.close_of_request _ (hrx ▸ hc)) _
  | none =>
    refine hs.putRequest hledger hr ?_ nofun
    exact fun c hc => Channels.dropReceiver_of_request _ (hrx ▸ hc)

theorem drop (hledger : Ledger s) (hs : Served s lossy) {n : Nat} {r : SendRequest}
    {stage : Stage} (hr : s.requests n = some (r, stage)) : Served (s.drop n r) lossy := by
  obtain ⟨channels, stage', heq, hstage, hframe, -⟩ := hledger.drop_frame hr
  rw [heq]
  refine hs.putRequest hledger hr hframe fun hlistens => ?_
  rw [hstage] at hlistens
  cases hlistens

/-- A removal is queued. It does not take the entry of request `m` away. -/
theorem expected_unboundedSend {n m h e : Nat} {c c' : CSeq} (hm : m ≠ n)
    (hkeeps : s.phase.handlesUpdates = true → s.isTaken n c = false) (ha : s.Awaits m h c')
    (hexpected : s.expected c' = some ⟨m, e⟩) :
    (s.unboundedSend (.removePendingRequest c)).expected c' = some ⟨m, e⟩ := by
  rw [unboundedSend_eq]
  cases hphase : s.phase.handlesUpdates with
  | true =>
    rw [expected_of_handles hphase] at hexpected
    have hopen : s.phase ≠ .closed := by
      intro hclosed
      rw [hclosed] at hphase
      cases hphase
    rw [if_neg hopen]
    refine (expected_of_handles (by exact hphase) c').trans ?_
    rw [registered, List.foldl_append, List.foldl_cons, List.foldl_nil, word, if_neg]
    · exact hexpected
    · rintro rfl
      exact not_taken (hkeeps hphase) hm ha hexpected
  | false =>
    rw [expected_of_done hphase] at hexpected
    exact (expected_of_done (by exact hphase) c').trans hexpected

/-- What is queued by the task of request `n`, which is left out. -/
theorem unboundedSend (hs : Served s lossy) {n : Nat} {c : CSeq}
    (hkeeps : s.phase.handlesUpdates = true → s.isTaken n c = false) {m h : Nat} {c' : CSeq}
    (hm : m ≠ n) (ha : s.Awaits m h c') : ∃ e last, Chain s.channels m h e last ∧
      Ends (s.unboundedSend (.removePendingRequest c)) (lossy m) m e c' last := by
  obtain ⟨e, last, hchain, hend⟩ := hs m h c' ha
  refine ⟨e, last, hchain, hend.congr (expected_unboundedSend hm hkeeps ha) ?_ ?_⟩
  · rw [unboundedSend_eq]
    exact id
  · intro _ hmem
    rw [unboundedSend_eq]
    show (c', (⟨m, e⟩ : ReplyChannel)) ∈ adds (if _ then _ else _)
    split
    · exact hmem
    · exact adds_append _ _ ▸ List.mem_append_left _ hmem

theorem queueRemoval (hledger : Ledger s) (hs : Served s lossy) {n : Nat} {r : SendRequest}
    {error : Option OperationError} (hr : s.requests n = some (r, .cancelling error))
    (hkeeps : s.phase.handlesUpdates = true → s.isTaken n r.sequenceNumber = false) :
    Served ((s.unboundedSend (.removePendingRequest r.sequenceNumber)).putRequest n r
      (.closing error)) lossy := by
  intro m h c ha
  by_cases hm : m = n
  · obtain rfl := hm
    cases ha with
    | @call call hcall hm' =>
      rw [unboundedSend_eq] at hcall
      have hnone := (hledger.call call hcall).2.2
      rw [hm', hr] at hnone
      cases hnone
    | @request r₁ stage₁ hr₁ hstage =>
      obtain ⟨rfl, rfl⟩ : r = r₁ ∧ .closing error = stage₁ := by
        simpa [Exchange.putRequest] using hr₁
      cases hstage
  · have hbefore : s.Awaits m h c := by
      have hsame : ((s.unboundedSend (.removePendingRequest r.sequenceNumber)).putRequest n r
          (.closing error)).requests m = s.requests m := by
        rw [unboundedSend_eq]
        exact Function.update_of_ne hm _ _
      unfold Awaits at ha ⊢
      rw [hsame, unboundedSend_eq] at ha
      exact ha
    obtain ⟨e, last, hchain, hend⟩ := hs.unboundedSend hkeeps hm hbefore
    rw [unboundedSend_eq] at hend ⊢
    exact ⟨e, last, hchain, hend.congr id id fun _ => id⟩

theorem retract (hledger : Ledger s) (hs : Served s lossy) {call : Call}
    (hcall : s.call = some call)
    (hkeeps : s.phase.handlesUpdates = true →
      s.isTaken call.request call.sequenceNumber = false) :
    Served (s.retract call) lossy := by
  have hnone := (hledger.call call hcall).2.2
  intro m h c ha
  unfold Exchange.retract at ha ⊢
  cases ha with
  | call hk => cases hk
  | @request r stage hr hstage =>
    have hbefore : s.requests m = some (r, stage) := by
      rw [unboundedSend_eq] at hr
      exact hr
    have hm : m ≠ call.request := by
      rintro rfl
      cases hnone.symm.trans hbefore
    obtain ⟨e, last, hchain, hend⟩ := hs.unboundedSend hkeeps hm (.request hbefore hstage)
    refine ⟨e, last, ?_, hend.congr id id fun _ => id⟩
    rw [unboundedSend_eq]
    exact hchain.congr fun c₁ hc₁ => Channels.dropReceiver_of_request _ (hc₁ ▸ hm)

theorem addPendingRequest (hledger : Ledger s) (hs : Served s lossy) (options : RequestOptions)
    (hlossy : s.phase.handlesUpdates = false → lossy s.numbers.length)
    (hkeeps : s.phase.handlesUpdates = true →
      s.isTaken s.numbers.length s.sequenceNumber = false) :
    Served (s.addPendingRequest options) lossy := by
  have hregistered : ∀ c, (s.addPendingRequest options).registered c =
      if c = s.sequenceNumber then some ⟨s.numbers.length, 0⟩ else s.registered c := by
    intro c
    rw [registered, Exchange.addPendingRequest, List.foldl_append]
    rfl
  have hlt : ∀ n r stage, s.requests n = some (r, stage) → n < s.numbers.length :=
    fun n r stage h => (List.getElem?_eq_some_iff.mp (hledger.request n r stage h).1).1
  intro n h c ha
  cases ha with
  | call hcall hn =>
    cases hcall
    obtain rfl : s.numbers.length = n := hn
    refine ⟨0, .new, .of_untouched fun c hc => hledger.untouched c (Nat.le_of_eq hc.symm), ?_⟩
    cases hphase : s.phase.handlesUpdates with
    | true =>
      refine .expected ((expected_of_handles (by exact hphase) _).trans ?_)
      rw [hregistered]
      exact if_pos rfl
    | false =>
      refine .late (hlossy hphase) hphase ?_
      rw [show (s.addPendingRequest options).updates = s.updates ++ [_] from rfl, adds_append]
      exact List.mem_append_right _ (.head _)
  | @request r stage hr hstage =>
    have hbefore : s.Awaits n r.rxResponse.hop r.sequenceNumber := .request hr hstage
    obtain ⟨e, last, hchain, hend⟩ := hs n _ _ hbefore
    refine ⟨e, last, hchain, hend.congr (fun hexpected => ?_) id fun _ hmem => ?_⟩
    · cases hphase : s.phase.handlesUpdates with
      | true =>
        rw [expected_of_handles hphase] at hexpected
        rw [expected_of_handles (by exact hphase), hregistered, if_neg]
        · exact hexpected
        · intro hsame
          rw [hsame] at hexpected
          exact not_taken (hkeeps hphase) (Nat.ne_of_lt (hlt n r stage hr)) hbefore hexpected
      | false =>
        rw [expected_of_done hphase] at hexpected
        exact (expected_of_done (s := s.addPendingRequest options) hphase _).trans hexpected
    · exact adds_append _ _ ▸ List.mem_append_left _ hmem

/-- The call returns its future, which waits from then on. -/
theorem queueMessage (hs : Served s lossy) {call : Call} (hcall : s.call = some call) :
    Served (s.queueMessage call) lossy := by
  refine hs.same (fun n h c ha => ?_) rfl rfl rfl rfl
  cases ha with
  | call hnone => cases hnone
  | @request r stage hr hstage =>
    by_cases hn : n = call.request
    · obtain rfl := hn
      obtain ⟨rfl, rfl⟩ : SendRequest.new ⟨call.request, 0⟩ call.sequenceNumber call.options = r ∧
          Stage.waiting = stage := by
        simpa [Exchange.queueMessage, Exchange.putRequest] using hr
      exact .call hcall rfl
    · exact .request ((Function.update_of_ne hn _ _).symm.trans hr) hstage

theorem messageFails (hs : Served s lossy) {call : Call} (hcall : s.call = some call) :
    Served { s with call := some { call with failed := true } } lossy := by
  refine hs.same (fun n h c ha => ?_) rfl rfl rfl rfl
  cases ha with
  | call hk hn =>
    cases hk
    exact .call (k := call) hcall hn
  | request hr hstage => exact .request hr hstage

end Served
end Exchange
end Rtsp
