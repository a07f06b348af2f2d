import Rtsp.Connection.Calls
import Rtsp.Connection.Ledger
import Rtsp.Connection.Line

/-!
# The lock of the sequence number

`send_request_with_options` reads the number, queues two things, and writes the number
back incremented, all behind one mutex. `Locking` is what the mutex buys: the stages
from `locked` to `failing` are those of one call at most, and while a call is in one of
them nobody else changes the number it has read.

The number is behind the requests for one moment, between the queueing of a request and
the increment. `next` is stated so that this moment does not show: it is the number of
the lock, or the one after it if the call that has the lock has queued its request. That
number is the first one counted up once for every request in the queue, always, and this
is the form in which the invariant can be preserved step by step.

A call that is given up half way is not treated: the function is no future, and once it
has the lock it runs to its end. Nor is a poisoned lock. It takes a panic between the
read and the write to poison it, and what could panic there is the conversion of the
request (`into`, `as_ref`), which is the caller's and is taken to return.
-/

namespace Rtsp

open Lib

namespace Calls

variable {URI : Type} {s s₁ s' : Calls URI} {n : Nat} {call : HandleCall URI} {c : CSeq}
  {shared : Shared URI}

/-- The number that the next request to be queued gets. -/
def next (s : Calls URI) : CSeq :=
  match s.lock.bind s.calls with
  | some call => if call.stage.isPlaced then s.shared.sequenceNumber.wrappingIncrement
    else s.shared.sequenceNumber
  | none => s.shared.sequenceNumber

/-- One call at most is in between, and the numbers have gone as far as the requests. -/
structure Locking (first : CSeq) (s : Calls URI) : Prop where
  holder : ∀ n, s.lock = some n ↔ ∃ call, s.calls n = some call ∧ call.stage.holdsLock = true
  current : ∀ n call c, s.calls n = some call → call.stage.current = some c →
    s.shared.sequenceNumber = c
  next : s.next = first.ahead s.shared.requests.length

theorem CallStage.holdsLock_of_current {stage : CallStage} {c : CSeq}
    (h : stage.current = some c) : stage.holdsLock = true := by
  cases stage <;> first | rfl | cases h

theorem next_free (hlock : s.lock = none) : s.next = s.shared.sequenceNumber := by
  rw [next, hlock]
  rfl

theorem next_held (hlock : s.lock = some n) (hcall : s.calls n = some call) :
    s.next = if call.stage.isPlaced then s.shared.sequenceNumber.wrappingIncrement
      else s.shared.sequenceNumber := by
  rw [next, hlock]
  show (match s.calls n with | some call => _ | none => _) = _
  rw [hcall]

theorem next_put_held (hlock : s.lock = some n) (call : HandleCall URI) (stage : CallStage) :
    (s.put n call stage).next =
      if stage.isPlaced then s.shared.sequenceNumber.wrappingIncrement
      else s.shared.sequenceNumber :=
  next_held (s := s.put n call stage) hlock (put_calls_self s n call stage)

theorem next_put_of_ne (hlock : s.lock ≠ some n) (call : HandleCall URI) (stage : CallStage) :
    (s.put n call stage).next = s.next := by
  have hheld : s.lock.bind (s.put n call stage).calls = s.lock.bind s.calls := by
    cases h : s.lock with
    | none => rfl
    | some m => exact put_calls_of_ne s call stage fun heq => hlock (heq ▸ h)
  rw [next, next, put_lock, hheld]
  rfl

namespace Locking

variable {first : CSeq}

theorem lock_of_holdsLock (hs : Locking first s) (hcall : s.calls n = some call)
    (hstage : call.stage.holdsLock = true) : s.lock = some n :=
  (hs.holder n).mpr ⟨call, hcall, hstage⟩

/-- The number read by the call that has the lock is due next, unless its request is queued. -/
theorem number (hs : Locking first s) (hcall : s.calls n = some call)
    (hcurrent : call.stage.current = some c) (hplaced : call.stage.isPlaced = false) :
    s.shared.sequenceNumber = c ∧
      s.shared.sequenceNumber = first.ahead s.shared.requests.length := by
  have hlock := hs.lock_of_holdsLock hcall (CallStage.holdsLock_of_current hcurrent)
  have hnext := hs.next
  rw [next_held hlock hcall, hplaced] at hnext
  exact ⟨hs.current n call c hcall hcurrent, hnext⟩

/-- What a step of a call has to mind. The other calls do not have the lock if it changes what
    goes with the lock. -/
theorem move (hs : Locking first s) {stage : CallStage} {lock : Option Nat}
    (hself : lock = some n ↔ stage.holdsLock = true)
    (hothers : ∀ m, m ≠ n → (lock = some m ↔ s.lock = some m))
    (hcurrent : ∀ c, stage.current = some c → shared.sequenceNumber = c)
    (hnumber : shared.sequenceNumber = s.shared.sequenceNumber ∨ s.lock = some n)
    (hnext : ({ s with shared, lock }.put n call stage).next =
      first.ahead shared.requests.length) :
    Locking first ({ s with shared, lock }.put n call stage) := by
  refine ⟨fun m => ?_, fun m call' c hm hc => ?_, hnext⟩
  · by_cases hmn : m = n
    · subst hmn
      rw [put_calls_self]
      -- The call itself has the lock exactly if its new stage says so.
      exact hself.trans ⟨fun h => ⟨_, rfl, h⟩, fun ⟨_, h, hholds⟩ => by cases h; exact hholds⟩
    · rw [put_calls_of_ne _ _ _ hmn]
      exact (hothers m hmn).trans (hs.holder m)
  · by_cases hmn : m = n
    · subst hmn
      rw [put_calls_self] at hm
      cases hm
      exact hcurrent c hc
    · rw [put_calls_of_ne _ _ _ hmn] at hm
      -- Another call that has a number has the lock, so nobody changes the number of the lock.
      have hother := hs.lock_of_holdsLock hm (CallStage.holdsLock_of_current hc)
      rcases hnumber with hsame | hlock
      · exact hsame.trans (hs.current m call' c hm hc)
      · exact absurd (Option.some.inj (hother.symm.trans hlock)) hmn

/-- The call that has the lock goes on with it. -/
theorem keep (hs : Locking first s) (hcall : s.calls n = some call)
    (hholds : call.stage.holdsLock = true) {stage : CallStage} (hstage : stage.holdsLock = true)
    (hcurrent : ∀ c, stage.current = some c → shared.sequenceNumber = c)
    (hnext : (if stage.isPlaced then shared.sequenceNumber.wrappingIncrement
      else shared.sequenceNumber) = first.ahead shared.requests.length) :
    Locking first ({ s with shared }.put n call stage) := by
  have hlock := hs.lock_of_holdsLock hcall hholds
  refine hs.move (iff_of_true hlock hstage) (fun _ _ => Iff.rfl) hcurrent (.inr hlock) ?_
  exact (next_put_held (s := { s with shared }) hlock call stage).trans hnext

/-- The call that has the lock goes on with it and with its number, and queues no request. -/
theorem keepNumber (hs : Locking first s) (hcall : s.calls n = some call)
    (hcurrent : call.stage.current = some c) (hbefore : call.stage.isPlaced = false)
    {stage : CallStage} (hstage : stage.current = some c) (hafter : stage.isPlaced = false)
    (hnumber : shared.sequenceNumber = s.shared.sequenceNumber)
    (hrequests : shared.requests = s.shared.requests) :
    Locking first ({ s with shared }.put n call stage) := by
  obtain ⟨hc, hnext⟩ := hs.number hcall hcurrent hbefore
  refine hs.keep hcall (CallStage.holdsLock_of_current hcurrent)
    (CallStage.holdsLock_of_current hstage) (fun c' hc' => ?_) ?_
  · rw [hnumber, hc]
    exact Option.some.inj (hstage.symm.trans hc')
  · rw [hafter, hrequests, hnumber]
    exact hnext

/-- A call that does not have the lock goes on without it. -/
theorem aside (hs : Locking first s) (hlock : s.lock ≠ some n) {stage : CallStage}
    (hstage : stage.holdsLock = false) : Locking first (s.put n call stage) := by
  have hcurrent : ∀ c, stage.current ≠ some c := fun c hc => by
    rw [CallStage.holdsLock_of_current hc] at hstage
    cases hstage
  refine hs.move (iff_of_false hlock (hstage ▸ Bool.false_ne_true)) (fun _ _ => Iff.rfl)
    (fun c hc => absurd hc (hcurrent c)) (.inl rfl) ?_
  exact (next_put_of_ne hlock call stage).trans hs.next

/-- The call that has the lock lets it go. -/
theorem unlock (hs : Locking first s) (hcall : s.calls n = some call)
    (hholds : call.stage.holdsLock = true) (hplaced : call.stage.isPlaced = false)
    (result : Except OperationError SendRequest) : Locking first (s.release n call result) := by
  have hlock := hs.lock_of_holdsLock hcall hholds
  have hnext := hs.next
  rw [next_held hlock hcall, hplaced] at hnext
  refine hs.move (iff_of_false nofun Bool.false_ne_true) (fun m hm => ?_) nofun (.inl rfl) ?_
  · rw [hlock]
    exact iff_of_false nofun fun h => hm (Option.some.inj h).symm
  · exact (next_free rfl).trans hnext

/-- What happens beside the calls. -/
theorem beside (hs : Locking first s) (hcalls : s'.calls = s.calls) (hlock : s'.lock = s.lock)
    (hnumber : s'.shared.sequenceNumber = s.shared.sequenceNumber)
    (hrequests : s'.shared.requests = s.shared.requests) : Locking first s' := by
  refine ⟨fun n => ?_, fun n call c hn hc => ?_, ?_⟩
  · rw [hlock, hcalls]
    exact hs.holder n
  · rw [hcalls] at hn
    exact hnumber.trans (hs.current n call c hn hc)
  · have hnext : s'.next = s.next := by rw [Calls.next, Calls.next, hlock, hcalls, hnumber]
    rw [hnext, hrequests]
    exact hs.next

theorem step {op : Op URI} (hs : Locking first s) (h : Step s op s') : Locking first s' := by
  cases h with
  | @enter n request options hn =>
    refine hs.aside (fun hlock => ?_) rfl
    obtain ⟨call, hcall, -⟩ := (hs.holder n).mp hlock
    rw [hn] at hcall
    cases hcall
  | @check n call hcall hstage =>
    refine hs.aside (fun hlock => ?_) (by split <;> rfl)
    obtain ⟨call', hcall', hholds⟩ := (hs.holder n).mp hlock
    obtain rfl := Option.some.inj (hcall.symm.trans hcall')
    rw [hstage] at hholds
    cases hholds
  | @acquire n call hcall hstage hlock =>
    refine hs.move (iff_of_true rfl rfl) (fun m hm => ?_) (fun c hc => Option.some.inj hc)
      (.inl rfl) ?_
    · rw [hlock]
      exact iff_of_false (fun h => hm (Option.some.inj h).symm) nofun
    · have hnext := hs.next
      rw [next_free hlock] at hnext
      exact (next_put_held (s := { s with lock := some n }) rfl call _).trans hnext
  | @register n call c hcall hstage =>
    have hcurrent : call.stage.current = some c := hstage ▸ rfl
    unfold register
    split
    · next shared hsent =>
      exact hs.keepNumber hcall hcurrent (hstage ▸ rfl) rfl rfl
        (Shared.sequenceNumber_unboundedSend hsent) (Shared.requests_unboundedSend hsent)
    · exact hs.keepNumber hcall hcurrent (hstage ▸ rfl) rfl rfl rfl rfl
  | @place n call c hcall hstage =>
    have hcurrent : call.stage.current = some c := hstage ▸ rfl
    unfold place
    split
    · next shared hsent =>
      obtain ⟨hc, hnext⟩ := hs.number hcall hcurrent (hstage ▸ rfl)
      have hsame := Shared.sequenceNumber_trySendMessage hsent
      refine hs.keep hcall (hstage ▸ rfl) rfl (fun c' hc' => ?_) ?_
      · exact hsame.trans (hc.trans (Option.some.inj hc'))
      · -- One more request is queued, and the number is to be incremented.
        rw [Shared.requests_trySendMessage hsent]
        show shared.sequenceNumber.wrappingIncrement = _
        rw [hsame, show s.shared.sequenceNumber = _ from hnext, CSeq.wrappingIncrement_eq,
          CSeq.ahead_ahead]
        simp [Push.request?]
    · exact hs.keepNumber hcall hcurrent (hstage ▸ rfl) rfl rfl rfl rfl
  | @retract n call c hcall hstage =>
    have hcurrent : call.stage.current = some c := hstage ▸ rfl
    exact hs.keepNumber hcall hcurrent (hstage ▸ rfl) rfl rfl
      (s.shared.sequenceNumber_retract c) (s.shared.requests_retract c)
  | @increment n call c hcall hstage =>
    have hholds : call.stage.holdsLock = true := hstage ▸ rfl
    have hc := hs.current n call c hcall (hstage ▸ rfl)
    have hnext := hs.next
    rw [next_held (hs.lock_of_holdsLock hcall hholds) hcall, hstage, hc] at hnext
    exact hs.keep hcall hholds rfl nofun hnext
  | @release n call c hcall hstage => exact hs.unlock hcall (hstage ▸ rfl) (hstage ▸ rfl) _
  | @fail n call c hcall hstage => exact hs.unlock hcall (hstage ▸ rfl) (hstage ▸ rfl) _
  | sendResponse response hsent =>
    exact hs.beside rfl rfl (Shared.sequenceNumber_trySendMessage hsent)
      ((Shared.requests_trySendMessage hsent).trans (List.append_nil _))
  | requestRemoval c =>
    exact hs.beside rfl rfl (s.shared.sequenceNumber_retract c) (s.shared.requests_retract c)
  | _ => exact hs.beside rfl rfl rfl rfl

end Locking

end Calls
end Rtsp
