import Rtsp.Connection.CallOrder.Pending

/-!
# The order of the requests

However the calls of `send_request_with_options` are interleaved, on however many
handles, the requests are queued with consecutive numbers, each behind its pending
request, and a call that returns an error has left the number as it was and no entry
(`requests_consecutive`). The three invariants this rests on are about the lock
(`Locking`), the queues (`Queued`) and the entries (`Pending`), each in a module of its
own; `Orderly` is the three together, and the induction over a run is done once, for it.

The numbers are consecutive modulo 10^9, the first one being any number at all, as
`CSeq::random` may give any. Nothing here says that the numbers of two requests differ;
that is so for as long as fewer than 10^9 are queued, and is used in `Matching`.

Of a call that fails the theorem says that the number after it has let go of the lock is
the number from before it took it. For that the whole stretch in between has to be
looked at, in which other tasks take steps too, and so `hasRead_step` says that no step
makes a call forget what it has read.

The order is that of the queue of the sender. That the messages leave in this order is a
theorem about the sender (`delivered_in_order`), and that a server takes the requests in
this order is one about two peers (`requests_arrive`).
-/

namespace Rtsp

open Lib

namespace Calls

variable {URI : Type} {s s₁ s' : Calls URI} {n : Nat} {call : HandleCall URI} {c : CSeq}
  {shared : Shared URI}

/-! ## The number a call has read -/

theorem hasRead_put {m : Nat} {call₀ : HandleCall URI} {stage : CallStage}
    (hcall₀ : s.calls m = some call₀)
    (hstage : call₀.stage.HasRead c → stage.HasRead c) (hcall : s.calls n = some call)
    (hread : call.stage.HasRead c) (hcalls : s'.calls = (s.put m call₀ stage).calls) :
    ∃ call', s'.calls n = some call' ∧ call'.stage.HasRead c := by
  rw [hcalls]
  by_cases hnm : n = m
  · subst hnm
    obtain rfl := Option.some.inj (hcall₀.symm.trans hcall)
    exact ⟨_, put_calls_self .., hstage hread⟩
  · exact ⟨call, (put_calls_of_ne _ _ _ hnm).trans hcall, hread⟩

/-- No step makes a call read another number. -/
theorem hasRead_step {op : Op URI} (h : Step s op s') (hcall : s.calls n = some call)
    (hread : call.stage.HasRead c) : ∃ call', s'.calls n = some call' ∧ call'.stage.HasRead c := by
  cases h with
  | @enter m request options hm =>
    have hnm : n ≠ m := by
      rintro rfl
      rw [hm] at hcall
      cases hcall
    exact ⟨call, (put_calls_of_ne _ _ _ hnm).trans hcall, hread⟩
  | check hm hstage =>
    exact hasRead_put hm (by rw [hstage]; exact nofun) hcall hread rfl
  | acquire hm hstage _ =>
    exact hasRead_put hm (by rw [hstage]; exact nofun) hcall hread rfl
  | register hm hstage =>
    unfold register
    split <;> exact hasRead_put hm (by rw [hstage]; exact id) hcall hread rfl
  | place hm hstage =>
    unfold place
    split <;> exact hasRead_put hm (by rw [hstage]; exact id) hcall hread rfl
  | retract hm hstage => exact hasRead_put hm (by rw [hstage]; exact id) hcall hread rfl
  | increment hm hstage => exact hasRead_put hm (by rw [hstage]; exact id) hcall hread rfl
  | release hm _ =>
    refine hasRead_put hm ?_ hcall hread rfl
    exact fun _ => trivial
  | fail hm _ =>
    refine hasRead_put hm ?_ hcall hread rfl
    exact fun _ => trivial
  | _ => exact ⟨call, hcall, hread⟩

/-! ## The result -/

structure Orderly (first : CSeq) (s : Calls URI) : Prop where
  locking : Locking first s
  queued : Queued first s
  pending : Pending s

theorem orderly_start (first : CSeq) : Orderly first (start first : Calls URI) where
  locking :=
    { holder := fun n => iff_of_false nofun fun ⟨_, h, _⟩ => by cases h
      current := fun _ _ _ h => by cases h
      next := first.ahead_zero.symm }
  queued :=
    { numbered := fun _ _ _ h => by cases h
      nodup := List.nodup_nil
      registered := fun _ _ _ h => by cases h
      announced := fun before _ _ _ h => by cases before <;> cases h }
  pending :=
    { listening := fun _ => rfl
      entered := fun r c tx hr h => by cases hr; cases h }

theorem orderly_run {first : CSeq} {ops : List (Op URI)} (h : Run Step (start first) ops s) :
    Orderly first s :=
  h.invariant (orderly_start first) fun _ _ _ hs hstep =>
    ⟨hs.locking.step hstep, hs.queued.step hs.locking hstep, hs.pending.step hstep⟩

/-- A call that fails leaves the number as it was when it took the lock. -/
theorem sequenceNumber_of_failed {first : CSeq} {ops ops' : List (Op URI)} {s₂ s₃ : Calls URI}
    {error : OperationError} (h : Run Step (start first) ops s) (hacquire : Step s (.acquire n) s₁)
    (hrun : Run Step s₁ ops' s₂) (hrelease : Step s₂ (.release n) s₃)
    (hcall : s₃.calls n = some call) (hfailed : call.stage = .returned (.error error)) :
    s₃.shared.sequenceNumber = s.shared.sequenceNumber := by
  have hread : ∃ call, s₂.calls n = some call ∧
      call.stage.HasRead s.shared.sequenceNumber := by
    refine hrun.invariant (I := fun s' => ∃ call, s'.calls n = some call ∧
      call.stage.HasRead s.shared.sequenceNumber) ?_ fun _ _ _ ⟨_, hn, hread⟩ hstep =>
        hasRead_step hstep hn hread
    cases hacquire with
    | acquire _ _ _ => exact ⟨_, put_calls_self .., rfl⟩
  have hlocking : Locking first s₂ :=
    (orderly_run (((h.snoc hacquire).append hrun))).locking
  obtain ⟨call', hcall', hread⟩ := hread
  cases hrelease with
  | release hn =>
    rw [show (s₂.release n _ _).calls n = _ from put_calls_self ..] at hcall
    cases hcall
    cases hfailed
  | @fail _ call₂ c hn hstage =>
    obtain rfl := Option.some.inj (hn.symm.trans hcall')
    rw [hstage] at hread
    have hc := hlocking.current n call₂ c hn (hstage ▸ rfl)
    exact hc.trans hread

/-- **The requests are numbered one after the other, however the calls are interleaved**: in
    the order of the queue, over whatever number the caller has set, each behind its pending
    request. A call that fails has queued no request, leaves no entry, and leaves the number as
    it was. -/
theorem requests_consecutive {first : CSeq} {ops : List (Op URI)}
    (h : Run Step (start first) ops s) :
    (∀ i n request, s.shared.requests[i]? = some (n, request) → ∃ call, s.calls n = some call ∧
      request = { call.request with
        headers := call.request.headers.typedInsert (first.ahead i) } ∧
      request.headers.getAll (.standard .cSeq) = [.ofNumber ((first.val + i) % 1000000000)]) ∧
    (s.shared.requests.map (·.1)).Nodup ∧
    (∀ before n request after,
      s.shared.pushed = before ++ .message (.request n request) :: after →
      ∃ c, request.headers.typedGet CSeq = some c ∧
        .update (.addPendingRequest c ⟨n, 0⟩) ∈ before) ∧
    (s.lock = none → s.shared.sequenceNumber = first.ahead s.shared.requests.length) ∧
    (∀ n call error, s.calls n = some call → call.stage = .returned (.error error) →
      n ∉ s.shared.requests.map (·.1) ∧
      ∀ r c tx, s.receiver = some r →
        (s.workedOff r).pendingRequests.lookup c = some tx → tx.request ≠ n) ∧
    ∀ n ops' s₁ s₂ s₃ call error, Step s (.acquire n) s₁ → Run Step s₁ ops' s₂ →
      Step s₂ (.release n) s₃ → s₃.calls n = some call →
      call.stage = .returned (.error error) →
      s₃.shared.sequenceNumber = s.shared.sequenceNumber := by
  obtain ⟨hlocking, hqueued, hpending⟩ := orderly_run h
  refine ⟨fun i n request hi => ?_, hqueued.nodup, hqueued.announced, fun hlock => ?_,
    fun n call error hcall hfailed => ⟨?_, fun r c tx hr hentered hn => ?_⟩, ?_⟩
  · obtain ⟨call, hcall, -, hrequest⟩ := hqueued.numbered i n request hi
    refine ⟨call, hcall, hrequest, ?_⟩
    rw [hrequest]
    exact CSeq.getAll_typedInsert _ _
  · have hnext := hlocking.next
    rwa [next_free hlock] at hnext
  · exact hqueued.not_mem hcall (hfailed ▸ rfl)
  · obtain ⟨call', hcall', hpends⟩ := hpending.entered r c tx hr hentered
    obtain rfl := Option.some.inj (hcall.symm.trans (hn ▸ hcall'))
    rw [hfailed] at hpends
    exact hpends
  · intro n ops' s₁ s₂ s₃ call error hacquire hrun hrelease hcall hfailed
    exact sequenceNumber_of_failed h hacquire hrun hrelease hcall hfailed

/-- A request to which the caller has given a number. -/
def options : Request AsteriskURI :=
  ⟨[], HeaderMap.empty.typedInsert (⟨7, by decide⟩ : CSeq), .standard .options, .asterisk,
    .rtsp2_0, rfl⟩

/-- One call sends its request, and the next finds that the sender is gone. -/
theorem requests_consecutive_two : ∃ s : Calls AsteriskURI,
    s.shared.requests.map (·.1) = [0] ∧ s.shared.sequenceNumber = ⟨0, by decide⟩ ∧
      (∀ request, s.shared.requests[0]? = some (0, request) →
        request.headers.getAll (.standard .cSeq) = [.ofNumber 999999999]) ∧
      ∀ r c tx, s.receiver = some r →
        (s.workedOff r).pendingRequests.lookup c = some tx → tx.request ≠ 1 := by
  obtain ⟨s₁, hfirst⟩ := returns_sendRequestWithOptions (n := 0)
    (s := (start ⟨999999999, by decide⟩ : Calls AsteriskURI)) rfl rfl options ⟨none, none⟩
  let s₂ : Calls AsteriskURI := { s₁ with shared := { s₁.shared with senderOpen := false } }
  obtain ⟨s₃, hsecond⟩ := returns_sendRequestWithOptions (n := 1) (s := s₂)
    (hfirst.others 1 (by decide)) hfirst.lock options ⟨none, none⟩
  obtain ⟨ops₁, hrun₁⟩ := hfirst.run
  obtain ⟨ops₂, hrun₂⟩ := hsecond.run
  obtain ⟨hnumbered, -, -, hnext, hfailures, -⟩ :=
    requests_consecutive ((hrun₁.snoc .closeSender).append hrun₂)
  have hshared : s₂.shared = { s₁.shared with senderOpen := false } := rfl
  rw [hfirst.shared] at hshared
  have hthird := hsecond.shared
  rw [hshared] at hthird
  obtain ⟨call, hcall, hresult⟩ := hsecond.result
  rw [hshared] at hresult
  refine ⟨s₃, ?_, ?_, fun request hrequest => ?_, (hfailures 1 call .closed hcall hresult).2⟩
  · rw [hthird]
    rfl
  · rw [hnext hsecond.lock, hthird]
    rfl
  · obtain ⟨-, -, -, hnumber⟩ := hnumbered 0 0 request hrequest
    exact hnumber

end Calls
end Rtsp
