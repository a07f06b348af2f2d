import Rtsp.Connection.CallOrder.Locking

/-!
# What is in the queues

The requests in the queue of the sender carry the numbers from the first one on, in the
order of the queue, and each comes behind the update that announces it to the response
receiver (`Announced`).

Requests and updates are in two queues, and the code promises nothing about one of them
relative to the other but the order in which it pushes. The model therefore has one
history of pushes for both, `pushed`, from which the requests are taken, and `Announced`
is a statement about prefixes of that history. This is what makes the announcement early
enough: whoever takes the request off its queue does so after it was pushed, and by then
the update is there to be handled. Whether it has been handled is up to the receiver and
not known here.

`Queued.place` is the one step that matters, and the only one that needs `Locking`: the
number that the call read is still due. Everything else leaves the requests alone
(`move`, `still`, `beside`).
-/

namespace Rtsp

open Lib

namespace Calls

variable {URI : Type} {s s₁ s' : Calls URI} {n : Nat} {call : HandleCall URI} {c : CSeq}
  {shared : Shared URI}

/-- Every request in the queue comes behind its pending request. -/
def Announced (pushed : List (Push URI)) : Prop :=
  ∀ before n request after, pushed = before ++ .message (.request n request) :: after →
    ∃ c, request.headers.typedGet CSeq = some c ∧
      .update (.addPendingRequest c ⟨n, 0⟩) ∈ before

theorem Announced.append {pushed : List (Push URI)} {p : Push URI} (h : Announced pushed)
    (hp : ∀ n request, p = .message (.request n request) →
      ∃ c, request.headers.typedGet CSeq = some c ∧
        .update (.addPendingRequest c ⟨n, 0⟩) ∈ pushed) : Announced (pushed ++ [p]) := by
  intro before n request after heq
  -- A request that is not the last push was there before.
  rcases List.eq_nil_or_concat after with rfl | ⟨after, q, rfl⟩
  · obtain ⟨rfl, hlast⟩ := List.append_inj' heq rfl
    exact hp n request (List.cons.inj hlast).1
  · rw [List.concat_eq_append, ← List.cons_append, ← List.append_assoc] at heq
    exact h before n request after (List.append_inj' heq rfl).1

/-- The requests are numbered in the order of the queue, and each has a call of its own. -/
structure Queued (first : CSeq) (s : Calls URI) : Prop where
  numbered : ∀ i n request, s.shared.requests[i]? = some (n, request) →
    ∃ call, s.calls n = some call ∧ call.stage.hasPlaced = true ∧
      request = call.request.withCSeq (first.ahead i)
  nodup : (s.shared.requests.map (·.1)).Nodup
  /-- A call queues its pending request before anything else. -/
  registered : ∀ n call c, s.calls n = some call → call.stage = .registered c →
    .update (.addPendingRequest c ⟨n, 0⟩) ∈ s.shared.pushed
  announced : Announced s.shared.pushed

namespace Queued

variable {first : CSeq}

/-- A call goes on without a request. -/
theorem move (hs : Queued first s) {stage : CallStage} {lock : Option Nat}
    (hcall : ∀ call', s.calls n = some call' → call'.request = call.request ∧
      (call'.stage.hasPlaced = true → stage.hasPlaced = true))
    (hrequests : shared.requests = s.shared.requests)
    (hpushed : ∀ p ∈ s.shared.pushed, p ∈ shared.pushed)
    (hregistered : ∀ c, stage = .registered c →
      .update (.addPendingRequest c ⟨n, 0⟩) ∈ shared.pushed)
    (hannounced : Announced shared.pushed) :
    Queued first ({ s with shared, lock }.put n call stage) := by
  refine ⟨fun i m request hi => ?_, ?_, fun m call' c hm hstage => ?_, hannounced⟩
  · obtain ⟨call', hm, hplaced, hrequest⟩ := hs.numbered i m request (hrequests ▸ hi)
    by_cases hmn : m = n
    · subst hmn
      obtain ⟨hsame, hstays⟩ := hcall call' hm
      exact ⟨_, put_calls_self .., hstays hplaced, hsame ▸ hrequest⟩
    · exact ⟨call', (put_calls_of_ne _ _ _ hmn).trans hm, hplaced, hrequest⟩
  · show (shared.requests.map (·.1)).Nodup
    rw [hrequests]
    exact hs.nodup
  · by_cases hmn : m = n
    · subst hmn
      rw [put_calls_self] at hm
      cases hm
      exact hregistered c hstage
    · rw [put_calls_of_ne _ _ _ hmn] at hm
      exact hpushed _ (hs.registered m call' c hm hstage)

/-- A call goes on, and nothing is queued. -/
theorem still (hs : Queued first s) (hcall : s.calls n = some call) {stage : CallStage}
    {lock : Option Nat} (hpushed : shared.pushed = s.shared.pushed)
    (hstage : call.stage.hasPlaced = true → stage.hasPlaced = true)
    (hregistered : ∀ c, stage ≠ .registered c) :
    Queued first ({ s with shared, lock }.put n call stage) := by
  refine hs.move (fun call' hcall' => ?_) ?_ (fun p hp => hpushed ▸ hp)
    (fun c hc => absurd hc (hregistered c)) (hpushed ▸ hs.announced)
  · obtain rfl := Option.some.inj (hcall.symm.trans hcall')
    exact ⟨rfl, hstage⟩
  · rw [Shared.requests, Shared.requests, hpushed]

/-- What happens beside the calls queues no request. -/
theorem beside (hs : Queued first s) (hcalls : s'.calls = s.calls)
    (hpushed : s'.shared.pushed = s.shared.pushed ∨
      ∃ p, s'.shared.pushed = s.shared.pushed ++ [p] ∧ p.request? = none) : Queued first s' := by
  have hrequests : s'.shared.requests = s.shared.requests := by
    rcases hpushed with hsame | ⟨p, hp, hnone⟩
    · rw [Shared.requests, Shared.requests, hsame]
    · rw [Shared.requests_push hp, hnone]
      exact List.append_nil _
  refine ⟨fun i n request hi => ?_, ?_, fun n call c hn hstage => ?_, ?_⟩
  · rw [hcalls]
    exact hs.numbered i n request (hrequests ▸ hi)
  · rw [hrequests]
    exact hs.nodup
  · rw [hcalls] at hn
    have hmem := hs.registered n call c hn hstage
    rcases hpushed with hsame | ⟨p, hp, -⟩
    · exact hsame ▸ hmem
    · exact hp ▸ List.mem_append_left _ hmem
  · rcases hpushed with hsame | ⟨p, hp, hnone⟩
    · exact hsame ▸ hs.announced
    · rw [hp]
      refine hs.announced.append fun n request hrequest => ?_
      rw [hrequest] at hnone
      cases hnone

/-- A call whose request is not queued has none in the queue. -/
theorem not_mem (hs : Queued first s) (hcall : s.calls n = some call)
    (hplaced : call.stage.hasPlaced = false) : n ∉ s.shared.requests.map (·.1) := by
  intro hmem
  obtain ⟨⟨m, request⟩, he, rfl⟩ := List.mem_map.mp hmem
  obtain ⟨i, hi⟩ := List.mem_iff_getElem?.mp he
  obtain ⟨call', hcall', hplaced', -⟩ := hs.numbered i m request hi
  obtain rfl := Option.some.inj (hcall.symm.trans hcall')
  rw [hplaced] at hplaced'
  cases hplaced'

/-- The request of the call that has the lock is queued. -/
theorem place (hs : Queued first s) (hlocking : Locking first s) (hcall : s.calls n = some call)
    (hstage : call.stage = .registered c) : Queued first (s.place n call c) := by
  unfold Calls.place
  split
  · next shared hsent =>
    have hrequests := Shared.requests_trySendMessage hsent
    obtain ⟨-, rfl⟩ := Shared.trySendMessage_eq_some hsent
    obtain ⟨hc, hnext⟩ := hlocking.number (c := c) hcall (hstage ▸ rfl) (hstage ▸ rfl)
    refine ⟨fun i m request hi => ?_, ?_, fun m call' c' hm hregistered => ?_, ?_⟩
    · rw [put_shared, hrequests] at hi
      rcases Nat.lt_or_ge i s.shared.requests.length with hlt | hge
      · rw [List.getElem?_append_left hlt] at hi
        obtain ⟨call', hm, hplaced, hrequest⟩ := hs.numbered i m request hi
        by_cases hmn : m = n
        · subst hmn
          obtain rfl := Option.some.inj (hcall.symm.trans hm)
          exact ⟨_, put_calls_self .., rfl, hrequest⟩
        · exact ⟨call', (put_calls_of_ne _ _ _ hmn).trans hm, hplaced, hrequest⟩
      · -- The new request is the last one, and its number is the one that is due.
        rw [List.getElem?_append_right hge] at hi
        obtain ⟨hlast, hrequest⟩ := List.getElem?_eq_some_iff.mp hi
        obtain rfl : i = s.shared.requests.length := by
          simp only [Push.request?, Option.toList_some, List.length_singleton] at hlast
          omega
        simp only [Push.request?, Option.toList_some, List.getElem_singleton] at hrequest
        cases hrequest
        refine ⟨_, put_calls_self .., rfl, ?_⟩
        rw [← hnext, hc]
    · rw [put_shared, hrequests, List.map_append]
      refine List.nodup_append.mpr ⟨hs.nodup, List.nodup_singleton _, fun m hm m' hm' => ?_⟩
      obtain rfl : m' = n := List.mem_singleton.mp hm'
      rintro rfl
      exact hs.not_mem hcall (hstage ▸ rfl) hm
    · by_cases hmn : m = n
      · subst hmn
        rw [put_calls_self] at hm
        cases hm
        cases hregistered
      · rw [put_calls_of_ne _ _ _ hmn] at hm
        exact List.mem_append_left _ (hs.registered m call' c' hm hregistered)
    · refine hs.announced.append fun m request hrequest => ?_
      cases hrequest
      exact ⟨c, Request.typedGet_withCSeq _ _, hs.registered n call c hcall hstage⟩
  · refine hs.still hcall rfl (fun h => ?_) fun c' h => ?_
    · rw [hstage] at h
      cases h
    · cases h

theorem step {op : Op URI} (hs : Queued first s) (hlocking : Locking first s)
    (h : Step s op s') : Queued first s' := by
  cases h with
  | @enter n request options hn =>
    refine hs.move (fun call' hcall' => ?_) rfl (fun _ hp => hp) nofun hs.announced
    rw [hn] at hcall'
    cases hcall'
  | @check n call hcall hstage =>
    exact hs.still hcall rfl (by rw [hstage]; exact nofun) (by split <;> exact nofun)
  | @acquire n call hcall hstage _ => exact hs.still hcall rfl (by rw [hstage]; exact nofun) nofun
  | @register n call c hcall hstage =>
    unfold register
    split
    · next shared hsent =>
      have hrequests := Shared.requests_unboundedSend hsent
      obtain ⟨-, rfl⟩ := Shared.unboundedSend_eq_some hsent
      refine hs.move (fun call' hcall' => ?_) hrequests (fun _ => List.mem_append_left _)
        (fun c' hc' => ?_) (hs.announced.append nofun)
      · obtain rfl := Option.some.inj (hcall.symm.trans hcall')
        exact ⟨rfl, by rw [hstage]; exact nofun⟩
      · cases hc'
        exact List.mem_append_right _ (.head _)
    · exact hs.still hcall rfl (by rw [hstage]; exact nofun) nofun
  | place hcall hstage => exact hs.place hlocking hcall hstage
  | @retract n call c hcall hstage =>
    refine hs.move (fun call' hcall' => ?_) (s.shared.requests_retract c) (fun p hp => ?_) nofun ?_
    · obtain rfl := Option.some.inj (hcall.symm.trans hcall')
      exact ⟨rfl, by rw [hstage]; exact nofun⟩
    · rcases s.shared.pushed_retract c with h | h
      · rw [h]
        exact List.mem_append_left _ hp
      · rw [h]
        exact hp
    · rcases s.shared.pushed_retract c with h | h
      · rw [h]
        exact hs.announced.append nofun
      · rw [h]
        exact hs.announced
  | @increment n call c hcall hstage => exact hs.still hcall rfl (fun _ => rfl) nofun
  | @release n call c hcall hstage => exact hs.still hcall rfl (fun _ => rfl) nofun
  | @fail n call c hcall hstage => exact hs.still hcall rfl (by rw [hstage]; exact nofun) nofun
  | sendResponse response hsent =>
    obtain ⟨-, rfl⟩ := Shared.trySendMessage_eq_some hsent
    exact hs.beside rfl (.inr ⟨_, rfl, rfl⟩)
  | requestRemoval c =>
    refine hs.beside rfl ?_
    rcases s.shared.pushed_retract c with h | h
    · exact .inr ⟨_, h, rfl⟩
    · exact .inl h
  | _ => exact hs.beside rfl (.inl rfl)

end Queued

end Calls
end Rtsp
