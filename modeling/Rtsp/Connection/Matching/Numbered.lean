import Rtsp.Connection.Line
import Rtsp.Connection.Outcome

/-!
# The numbers of the requests

Sequence numbers are counted up modulo 10^9, and an entry is found by its number. So two
requests get into each other's way only if one of them is 10^9 sends behind the other,
and as long as fewer are sent, nobody's entry is taken away (`Numbered.keepsOthers`).

A call that fails gives its number back, and the next call has the same one. `issued`
therefore lists the requests that have kept their number, and the one whose call is
still under way: it is these that are numbered apart (`Numbered.unique`). What is left
behind of a call that failed is its pending request and the removal of it, under a
number that another request may have by then, and it has to be shown that this does no
harm.

The bound is on what has been sent so far and is part of the results. Nothing in the
code watches over it. With more requests than numbers, two of them that are pending at
once may share one.
-/

namespace Rtsp

open Lib

namespace CSeq

/-- Numbers that are less than a whole turn apart are different. -/
theorem ahead_injective (c : CSeq) {i j : Nat} (hi : i < 10 ^ 9) (hj : j < 10 ^ 9)
    (h : c.ahead i = c.ahead j) : i = j := by
  have hval : (c.val + i) % (MAX_CSEQ + 1) = (c.val + j) % (MAX_CSEQ + 1) :=
    congrArg CSeq.val h
  unfold MAX_CSEQ at hval
  omega

end CSeq

namespace Exchange

variable {s s' : Exchange} {first : CSeq}

/-- The requests that have been given a number for good, and the one whose call is at it. -/
def issued (s : Exchange) : List Nat := s.sent ++ (s.call.map Call.request).toList

/-- The numbers are counted on with the requests that are sent. -/
structure Numbered (first : CSeq) (s : Exchange) : Prop where
  next : s.sequenceNumber = first.ahead s.sent.length
  issued : ∀ (i n : Nat), s.issued[i]? = some n → s.numbers[n]? = some (first.ahead i)
  requests : ∀ n e, s.requests n = some e → n ∈ s.sent

namespace Numbered

theorem start (first : CSeq) : Numbered first (start first) where
  next := (CSeq.ahead_zero first).symm
  issued _ _ h := by cases h
  requests := nofun

/-- A future moves on. -/
theorem update (hs : Numbered first s) {n : Nat} {e₀ e : SendRequest × Stage}
    (hr : s.requests n = some e₀)
    (hrequests : s'.requests = Function.update s.requests n (some e))
    (hnext : s'.sequenceNumber = s.sequenceNumber) (hsent : s'.sent = s.sent)
    (hcall : s'.call = s.call) (hnumbers : s'.numbers = s.numbers) : Numbered first s' where
  next := by rw [hnext, hsent, hs.next]
  issued := by
    rw [Exchange.issued, hsent, hcall, hnumbers]
    exact hs.issued
  requests m e hm := by
    rw [hsent]
    by_cases hmn : m = n
    · exact hmn ▸ hs.requests n e₀ hr
    · rw [hrequests, Function.update_of_ne hmn] at hm
      exact hs.requests m e hm

theorem shared (hs : Numbered first s) (hshared : Shared s s') {n : Nat}
    {e₀ : SendRequest × Stage} (hr : s.requests n = some e₀)
    (hrequests : ∃ e, s'.requests = Function.update s.requests n (some e)) :
    Numbered first s' := by
  obtain ⟨e, he⟩ := hrequests
  exact hs.update hr he hshared.sequenceNumber hshared.sent hshared.call hshared.numbers

theorem addPendingRequest (hs : Numbered first s) (options : RequestOptions)
    (hlock : s.call = none) : Numbered first (s.addPendingRequest options) where
  next := hs.next
  issued i n h := by
    have hbefore : s.issued = s.sent := by
      rw [Exchange.issued, hlock]
      exact List.append_nil _
    show (s.numbers ++ [s.sequenceNumber])[n]? = some (first.ahead i)
    rcases Nat.lt_or_ge i s.sent.length with hlt | hge
    · have hn : s.sent[i]? = some n := (List.getElem?_append_left hlt).symm.trans h
      have hnumber := hs.issued i n (hbefore ▸ hn)
      rw [List.getElem?_append_left (List.getElem?_eq_some_iff.mp hnumber).1, hnumber]
    · have hlast : [s.numbers.length][i - s.sent.length]? = some n :=
        (List.getElem?_append_right hge).symm.trans h
      obtain ⟨hi, rfl⟩ := List.getElem?_eq_some_iff.mp hlast
      have hi' : i = s.sent.length :=
        Nat.le_antisymm (Nat.sub_eq_zero_iff_le.mp (Nat.lt_one_iff.mp hi)) hge
      subst hi'
      simp [hs.next]
  requests := hs.requests

theorem queueMessage (hledger : Ledger s) (hs : Numbered first s) {call : Call}
    (hcall : s.call = some call) : Numbered first (s.queueMessage call) where
  next := by
    have hlength : (s.queueMessage call).sent.length = s.sent.length + 1 := List.length_append
    show call.sequenceNumber.wrappingIncrement = _
    rw [(hledger.call call hcall).1, hs.next, CSeq.wrappingIncrement_eq, CSeq.ahead_ahead, hlength]
  issued := by
    have hsame : (s.queueMessage call).issued = s.issued := by
      rw [Exchange.issued, Exchange.issued, hcall]
      exact List.append_nil _
    rw [hsame]
    exact hs.issued
  requests n e h := by
    show n ∈ s.sent ++ [call.request]
    by_cases hn : n = call.request
    · rw [hn]
      exact List.mem_append_right _ (.head _)
    · exact List.mem_append_left _ (hs.requests n e ((Function.update_of_ne hn _ _).symm.trans h))

/-- The call ends without a number. -/
theorem retract (hs : Numbered first s) (call : Call) : Numbered first (s.retract call) := by
  unfold Exchange.retract
  rw [unboundedSend_eq]
  exact {
    next := hs.next
    issued := fun i n h => by
      have hn : s.sent[i]? = some n := by
        rwa [Exchange.issued, Option.map_none, Option.toList_none, List.append_nil] at h
      refine hs.issued i n ?_
      rw [Exchange.issued, List.getElem?_append_left (List.getElem?_eq_some_iff.mp hn).1, hn]
    requests := hs.requests }

/-- **Every step counts on.** -/
theorem step {op : Op} (hledger : Ledger s) (hs : Numbered first s) (h : Step s op s') :
    Numbered first s' := by
  cases h with
  | addPendingRequest options hlock =>
    split
    · exact hs
    · exact hs.addPendingRequest options hlock
  | queueMessage hcall => exact hs.queueMessage hledger hcall
  | messageFails hcall =>
    refine { hs with issued := ?_ }
    have hissued := hs.issued
    rw [Exchange.issued, hcall] at hissued
    exact hissued
  | retract => exact hs.retract _
  | poll hr => exact hs.shared (shared_looked ..) hr (requests_looked ..)
  | pollTimers _ _ hr => exact hs.update hr rfl rfl rfl rfl rfl
  | queueRemoval hr =>
    rw [unboundedSend_eq]
    exact hs.update hr rfl rfl rfl rfl rfl
  | closeReceiver hr => exact hs.shared (shared_closeReceiver ..) hr (requests_closeReceiver ..)
  | drop hr => exact hs.shared (shared_drop ..) hr (requests_drop ..)
  | _ => exact { hs with }

/-- A request that somebody waits for has its place among those issued. -/
theorem mem_issued (hs : Numbered first s) {n : Nat}
    (h : (∃ call, s.call = some call ∧ call.request = n) ∨ ∃ e, s.requests n = some e) :
    n ∈ s.issued := by
  rcases h with ⟨call, hcall, rfl⟩ | ⟨e, he⟩
  · refine List.mem_append_right _ ?_
    rw [hcall]
    exact .head _
  · exact List.mem_append_left _ (hs.requests n e he)

/-- **No two of them have the same number**, as long as the numbers last. -/
theorem unique (hs : Numbered first s) (hfew : s.sent.length < 10 ^ 9) {n m : Nat}
    (hn : n ∈ s.issued) (hm : m ∈ s.issued) (hsame : s.numbers[n]? = s.numbers[m]?) : n = m := by
  have hlength : s.issued.length ≤ s.sent.length + 1 := by
    rw [Exchange.issued, List.length_append]
    cases s.call with
    | none => exact Nat.le_succ _
    | some call => exact Nat.le_refl _
  obtain ⟨i, hi, rfl⟩ := List.getElem_of_mem hn
  obtain ⟨j, hj, rfl⟩ := List.getElem_of_mem hm
  have hnumber := hs.issued i _ (List.getElem?_eq_getElem hi)
  rw [hsame, hs.issued j _ (List.getElem?_eq_getElem hj)] at hnumber
  have hij : j = i := first.ahead_injective (by omega) (by omega) (Option.some.inj hnumber)
  subst hij
  rfl

theorem awaited (hs : Numbered first s) {n : Nat} (h : s.isAwaited n = true) :
    n ∈ s.issued := by
  rw [isAwaited, Bool.or_eq_true, Option.any_eq_true, Option.any_eq_true] at h
  rcases h with ⟨call, hcall, hn⟩ | ⟨e, he, -⟩
  · exact hs.mem_issued (.inl ⟨call, hcall, of_decide_eq_true hn⟩)
  · exact hs.mem_issued (.inr ⟨e, he⟩)

/-- What is entered under the number of a request is its own entry, or one that nobody waits
    for. -/
theorem not_taken (hledger : Ledger s) (hs : Numbered first s) (hfew : s.sent.length < 10 ^ 9)
    {n : Nat} {c : CSeq} (hn : n ∈ s.issued) (hnumber : s.numbers[n]? = some c) :
    s.isTaken n c = false := by
  refine Bool.eq_false_iff.mpr fun htaken => ?_
  rw [isTaken, Option.any_eq_true] at htaken
  obtain ⟨tx, htx, hother⟩ := htaken
  obtain ⟨hne, hawaited⟩ := Bool.and_eq_true_iff.mp hother
  have hentered := hledger.entered c tx (entered_of_registered htx)
  exact of_decide_eq_true hne
    (hs.unique hfew (hs.awaited hawaited) hn (hentered.trans hnumber.symm))

/-- The next number is not that of a request that somebody waits for. -/
theorem next_not_taken (hledger : Ledger s) (hs : Numbered first s)
    (hfew : s.sent.length < 10 ^ 9) (hlock : s.call = none) (n : Nat) :
    s.isTaken n s.sequenceNumber = false := by
  refine Bool.eq_false_iff.mpr fun htaken => ?_
  rw [isTaken, Option.any_eq_true] at htaken
  obtain ⟨tx, htx, hother⟩ := htaken
  have hawaited := hs.awaited (Bool.and_eq_true_iff.mp hother).2
  have hentered := hledger.entered _ tx (entered_of_registered htx)
  obtain ⟨i, hi, htx'⟩ := List.getElem_of_mem hawaited
  have hnumber := hs.issued i _ (List.getElem?_eq_getElem hi)
  rw [htx', hentered, hs.next] at hnumber
  have hlength : s.issued.length = s.sent.length := by
    rw [Exchange.issued, hlock]
    exact congrArg List.length (List.append_nil _)
  have hlast := first.ahead_injective hfew (by omega) (Option.some.inj hnumber)
  omega

/-- **No step takes an entry away** from another request, as long as the numbers last. -/
theorem keepsOthers {op : Op} (hledger : Ledger s) (hs : Numbered first s)
    (hfew : s.sent.length < 10 ^ 9) (h : Step s op s') : s.keepsOthers op = true := by
  cases h with
  | addPendingRequest options hlock =>
    rw [Exchange.keepsOthers, hs.next_not_taken hledger hfew hlock]
    rfl
  | @retract call hcall =>
    have hn := hs.mem_issued (.inl ⟨call, hcall, rfl⟩)
    rw [Exchange.keepsOthers, hcall, Option.all_some,
      hs.not_taken hledger hfew hn (hledger.call call hcall).2.1]
    rfl
  | @queueRemoval n r error hr =>
    have hn := hs.mem_issued (.inr ⟨_, hr⟩)
    rw [Exchange.keepsOthers, hr, Option.all_some,
      hs.not_taken hledger hfew hn (hledger.request n r _ hr).1]
    rfl
  | _ => rfl

end Numbered

end Exchange
end Rtsp
