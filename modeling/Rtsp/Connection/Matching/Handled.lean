import Rtsp.Connection.Matching.Numbered

/-!
# Requests that were written

The response to a request can come as soon as the request has been written, and it must
find the entry. The entry is made when the update that announces it is handled, by a
poll of the response receiver; the update was queued before the request; and the
connection reads only after it has handled updates. So when responses are read, the
updates of all requests that were written have been handled (`Handled`).

It is the order of things in the connection's task that counts. A request that another
task queues while responses are being read may have its update in the queue, but it has
not been written: the same task writes, and not then.
-/

namespace Rtsp

open Lib

namespace Exchange

variable {s s' : Exchange} {first : CSeq}

/-- When responses are read, the updates of the requests that were written have been handled. -/
structure Handled (s : Exchange) : Prop where
  sent : ∀ n ∈ s.sent, n < s.numbers.length
  written : s.written ≤ s.sent.length
  updates : s.phase = .reading → ∀ n ∈ s.sent.take s.written, ∀ c tx, (c, tx) ∈ adds s.updates →
    tx.request ≠ n

namespace Handled

theorem start (first : CSeq) : Handled (start first) where
  sent := nofun
  written := Nat.le_refl 0
  updates := nofun

theorem keep (hs : Handled s) (hsent : s'.sent = s.sent)
    (hnumbers : s'.numbers = s.numbers) (hwritten : s'.written = s.written)
    (hphase : s'.phase = .reading → s.phase = .reading)
    (hadds : ∀ e ∈ adds s'.updates, e ∈ adds s.updates) : Handled s' where
  sent := by
    rw [hsent, hnumbers]
    exact hs.sent
  written := by
    rw [hsent, hwritten]
    exact hs.written
  updates hreading n hn c tx h := by
    rw [hsent, hwritten] at hn
    exact hs.updates (hphase hreading) n hn c tx (hadds _ h)

theorem shared (hs : Handled s) (hshared : Shared s s') : Handled s' :=
  hs.keep hshared.sent hshared.numbers hshared.written (fun h => hshared.phase ▸ h)
    fun _ he => hshared.updates ▸ he

theorem adds_unboundedSend {e : CSeq × ReplyChannel} {c : CSeq}
    (h : e ∈ adds (s.unboundedSend (.removePendingRequest c)).updates) : e ∈ adds s.updates := by
  rw [unboundedSend_eq] at h
  dsimp only at h
  split at h
  · exact h
  · rw [adds_append] at h
    exact (List.mem_append.mp h).resolve_right nofun

/-- **Every step leaves them handled.** -/
theorem step {op : Op} (hledger : Ledger s) (hs : Handled s) (h : Step s op s') : Handled s' := by
  cases h with
  | addPendingRequest options =>
    split
    · exact hs
    · exact {
        sent := fun n hn => by
          have hlt := hs.sent n hn
          have hlength : (s.addPendingRequest options).numbers.length = s.numbers.length + 1 :=
            List.length_append
          exact hlength ▸ Nat.lt_succ_of_lt hlt
        written := hs.written
        updates := fun hreading n hn c tx h => by
          rw [show adds (s.addPendingRequest options).updates = adds s.updates ++ adds [_] from
            adds_append _ _] at h
          rcases List.mem_append.mp h with h | h
          · exact hs.updates hreading n hn c tx h
          · -- The request that is new has not been sent.
            cases List.mem_singleton.mp h
            exact Nat.ne_of_gt (hs.sent n (List.mem_of_mem_take hn)) }
  | @queueMessage call hcall =>
    have hlength : (s.queueMessage call).sent.length = s.sent.length + 1 := List.length_append
    exact {
      sent := fun n hn => by
        rcases List.mem_append.mp hn with hn | hn
        · exact hs.sent n hn
        · rw [List.mem_singleton.mp hn]
          exact (List.getElem?_eq_some_iff.mp (hledger.call call hcall).2.1).1
      written := hlength ▸ Nat.le_succ_of_le hs.written
      updates := fun hreading n hn => by
        have htake : (s.queueMessage call).sent.take s.written = s.sent.take s.written :=
          List.take_append_of_le_length hs.written
        exact hs.updates hreading n (htake ▸ hn) }
  | retract =>
    refine hs.keep ?_ ?_ ?_ ?_ fun e => adds_unboundedSend
    all_goals rw [retract, unboundedSend_eq]
    exact id
  | write _ hphase hlt =>
    exact { hs with
      written := hlt
      updates := fun hreading => by
        rcases hphase with hidle | hclosed
        · cases hidle.symm.trans hreading
        · cases hclosed.symm.trans hreading }
  | handleUpdate hphase hu =>
    exact hs.keep rfl rfl rfl id fun e he => hu ▸ (adds_sublist _ _).subset he
  | discard hphase hu =>
    exact hs.keep rfl rfl rfl id fun e he => hu ▸ (adds_sublist _ _).subset he
  | drained hempty _ =>
    exact { hs with
      updates := fun _ n _ c tx h => by
        rw [show adds s.updates = [] by rw [hempty]; rfl] at h
        cases h }
  | startPoll => exact hs.keep rfl rfl rfl (fun h => by cases h) fun _ => id
  | ended => exact hs.keep rfl rfl rfl (fun h => by cases h) fun _ => id
  | finishPoll => exact hs.keep rfl rfl rfl (fun h => by cases h) fun _ => id
  | startDrop => exact hs.keep rfl rfl rfl (fun h => by cases h) fun _ => id
  | closeQueue => exact hs.keep rfl rfl rfl (fun h => by cases h) fun _ => id
  | poll => exact hs.shared (shared_looked ..)
  | queueRemoval =>
    refine hs.keep ?_ ?_ ?_ ?_ fun e => adds_unboundedSend
    all_goals rw [unboundedSend_eq]
    · rfl
    · rfl
    · rfl
    · exact id
  | closeReceiver => exact hs.shared (shared_closeReceiver ..)
  | drop => exact hs.shared (shared_drop ..)
  | _ => exact hs.keep rfl rfl rfl id fun _ => id

end Handled

end Exchange
end Rtsp
