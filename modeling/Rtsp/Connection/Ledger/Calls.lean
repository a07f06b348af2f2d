import Rtsp.Connection.Ledger.Responses

/-!
# The ledger and the steps of the calls

A call makes a request, gives it a number and queues its pending request; later it hands
over to the future or takes everything back. The request is new, so all its channels are
untouched and nobody else has an entry for it. What has to be shown is that the call now
waits where the future will, at hop 0 of a chain of one channel (`addPendingRequest`),
and that handing over changes who waits but not for what (`queueMessage`).
-/

namespace Rtsp

open Lib

namespace Exchange

namespace Ledger

variable {s : Exchange}

theorem addPendingRequest (hs : Ledger s) (options : RequestOptions)
    (hhandles : 0 < s.handles) : Ledger (s.addPendingRequest options) := by
  have hadds : adds (s.addPendingRequest options).updates =
      adds s.updates ++ [(s.sequenceNumber, ⟨s.numbers.length, 0⟩)] := adds_append _ _
  have hentered : ∀ c tx, (s.addPendingRequest options).Entered c tx →
      s.Entered c tx ∨ c = s.sequenceNumber ∧ tx = ⟨s.numbers.length, 0⟩ := by
    intro c tx h
    rcases h with h | h
    · exact .inl (.inl h)
    · rw [hadds, List.mem_append, List.mem_singleton] at h
      rcases h with h | h
      · exact .inl (.inr h)
      · cases h
        exact .inr ⟨rfl, rfl⟩
  have hnumber : ∀ (n : Nat) c, s.numbers[n]? = some c →
      (s.numbers ++ [s.sequenceNumber])[n]? = some c := by
    intro n c h
    rw [List.getElem?_append_left (List.getElem?_eq_some_iff.mp h).1]
    exact h
  have hlast : (s.numbers ++ [s.sequenceNumber])[s.numbers.length]? = some s.sequenceNumber :=
    List.getElem?_concat_length
  have hlt : ∀ n r stage, s.requests n = some (r, stage) → n < s.numbers.length :=
    fun n r stage h => (List.getElem?_eq_some_iff.mp (hs.request n r stage h).1).1
  exact {
    held := hhandles
    call := fun call hcall => by
      cases hcall
      refine ⟨rfl, hlast, Option.eq_none_iff_forall_ne_some.mpr ?_⟩
      rintro ⟨r, stage⟩ hr
      exact Nat.lt_irrefl _ (hlt _ r stage hr)
    request := fun n r stage hr =>
      ⟨hnumber n _ (hs.request n r stage hr).1, (hs.request n r stage hr).2⟩
    entered := fun c tx h => by
      rcases hentered c tx h with h | ⟨rfl, rfl⟩
      · exact hnumber _ c (hs.entered c tx h)
      · exact hlast
    distinct := by
      rw [hadds, List.map_append, List.nodup_append]
      refine ⟨hs.distinct, List.nodup_singleton _, ?_⟩
      intro n hn m hm hsame
      obtain ⟨e, he, rfl⟩ := List.mem_map.mp hn
      have hlength := hs.lt_length (.inr he)
      rw [hsame, List.mem_singleton.mp hm] at hlength
      exact Nat.lt_irrefl _ hlength
    apart := fun c tx h hmem => by
      rw [hadds, List.map_append, List.mem_append] at hmem
      rcases hmem with hmem | hmem
      · exact hs.apart c tx h hmem
      · have hlength := hs.lt_length (.inl h)
        rw [List.mem_singleton.mp hmem] at hlength
        exact Nat.lt_irrefl _ hlength
    next := hs.next
    untouched := fun c hc => by
      have hlength : s.numbers.length + 1 ≤ c.request := by
        simpa [Exchange.addPendingRequest] using hc
      exact hs.untouched c (Nat.le_of_succ_le hlength)
    chain := fun n h c ha c' tx ht hn => by
      rcases hentered c' tx ht with ht | ⟨-, rfl⟩
      · have hlength := hs.lt_length ht
        cases ha with
        | call hcall hcalled =>
          cases hcall
          rw [hn, ← hcalled] at hlength
          exact absurd hlength (Nat.lt_irrefl _)
        | request hr hstage => exact hs.chain n _ _ (.request hr hstage) c' tx ht hn
      · obtain rfl : s.numbers.length = n := hn
        cases ha with
        | call => exact .of_untouched fun c hc => hs.untouched c (Nat.le_of_eq hc.symm)
        | request hr => exact absurd (hlt _ _ _ hr) (Nat.lt_irrefl _) }

theorem queueMessage (hs : Ledger s) {call : Call} (hcall : s.call = some call) :
    Ledger (s.queueMessage call) := by
  obtain ⟨-, hnumber, -⟩ := hs.call call hcall
  exact { hs with
    held := Nat.zero_le _
    call := nofun
    request := fun n r stage hr => by
      by_cases hn : n = call.request
      · obtain rfl := hn
        obtain ⟨rfl, rfl⟩ : SendRequest.new ⟨call.request, 0⟩ call.sequenceNumber call.options = r ∧
            Stage.waiting = stage := by simpa [Exchange.queueMessage, Exchange.putRequest] using hr
        exact ⟨hnumber, rfl⟩
      · exact hs.request n r stage ((Function.update_of_ne hn _ _).symm.trans hr)
    chain := fun n h c ha c' tx ht hn => by
      cases ha with
      | call hnone => cases hnone
      | @request r stage hr hstage =>
        by_cases hcalled : n = call.request
        · obtain rfl := hcalled
          obtain ⟨rfl, rfl⟩ : SendRequest.new ⟨call.request, 0⟩ call.sequenceNumber call.options =
              r ∧ Stage.waiting = stage := by
            simpa [Exchange.queueMessage, Exchange.putRequest] using hr
          exact hs.chain _ 0 _ (.call hcall rfl) c' tx ht hn
        · exact hs.chain n _ _
            (.request ((Function.update_of_ne hcalled _ _).symm.trans hr) hstage) c' tx ht hn }

theorem messageFails (hs : Ledger s) {call : Call} (hcall : s.call = some call) :
    Ledger { s with call := some { call with failed := true } } := by
  have hheld := hs.held
  rw [hcall] at hheld
  exact { hs with
    held := hheld
    call := fun k hk => by
      cases hk
      exact hs.call call hcall
    chain := fun n h c ha c' tx ht hn => by
      cases ha with
      | call hk hcalled =>
        cases hk
        exact hs.chain n 0 _ (.call hcall hcalled) c' tx ht hn
      | request hr hstage => exact hs.chain n _ _ (.request hr hstage) c' tx ht hn }

theorem retract (hs : Ledger s) {call : Call} (hcall : s.call = some call) :
    Ledger (s.retract call) := by
  obtain ⟨-, hnumber, hnone⟩ := hs.call call hcall
  have hlt : call.request < s.numbers.length := (List.getElem?_eq_some_iff.mp hnumber).1
  have hsent := hs.unboundedSend call.sequenceNumber
  rw [unboundedSend_eq] at hsent
  unfold Exchange.retract
  rw [unboundedSend_eq]
  exact { hsent with
    held := Nat.zero_le _
    call := nofun
    next := fun c rx h => hs.next c rx (Channels.slot_dropReceiver .. ▸ h)
    untouched := fun c hc => by
      have hne : c.request ≠ call.request := fun heq => Nat.not_lt.mpr hc (heq ▸ hlt)
      exact (Channels.dropReceiver_of_request _ hne).trans (hs.untouched c hc)
    chain := fun n h c ha c' tx ht hn => by
      cases ha with
      | call hk => cases hk
      | @request r stage hr hstage =>
        have hne : n ≠ call.request := by
          rintro rfl
          rw [show s.requests call.request = some (r, stage) from hr] at hnone
          cases hnone
        exact (hsent.chain n _ _ (.request hr hstage) c' tx ht hn).congr fun c hc =>
          Channels.dropReceiver_of_request _ (hc ▸ hne) }

end Ledger

end Exchange
end Rtsp
