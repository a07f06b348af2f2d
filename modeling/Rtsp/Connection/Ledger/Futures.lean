import Rtsp.Connection.Ledger.Entries

/-!
# The ledger and the steps of the futures

Polls, timers, cancellations and drops of a `SendRequest`. They enter nothing. What they
can do to the ledger is to move a future down its chain, when it has looked at a
Continue, or to put an end to its waiting, and in both cases only channels of its own
request are touched (`putRequest`, `drop_frame`).

A removal that a future queues leaves every entry in the list of pending requests, since
it is for the response receiver to act on it (`unboundedSend`).
-/

namespace Rtsp

open Lib

namespace Exchange

namespace Ledger

variable {s : Exchange}

theorem lt_length (hs : Ledger s) {c : CSeq} {tx : ReplyChannel} (h : s.Entered c tx) :
    tx.request < s.numbers.length :=
  (List.getElem?_eq_some_iff.mp (hs.entered c tx h)).1

/-- The entries of one request are under one number. -/
theorem unique (hs : Ledger s) {c c' : CSeq} {tx tx' : ReplyChannel} (h : s.Entered c tx)
    (h' : s.Entered c' tx') (hsame : tx.request = tx'.request) : c = c' := by
  have hnumber := hs.entered c tx h
  rw [hsame, hs.entered c' tx' h'] at hnumber
  exact (Option.some.inj hnumber).symm

/-- A removal leaves the entries there are. -/
theorem unboundedSend (hs : Ledger s) (c : CSeq) :
    Ledger (s.unboundedSend (.removePendingRequest c)) := by
  unfold Exchange.unboundedSend
  split
  · exact hs
  · have hadds : adds (s.updates ++ [.removePendingRequest c]) = adds s.updates := by simp
    exact { hs with
      entered := fun c tx h => hs.entered c tx (h.imp_right (hadds ▸ ·))
      distinct := hadds ▸ hs.distinct
      apart := fun c tx h => hadds ▸ hs.apart c tx h
      chain := fun n h c ha c' tx ht => hs.chain n h c ha c' tx (ht.imp_right (hadds ▸ ·)) }

/-- What a future does to itself and to the channels of its own request. -/
theorem putRequest (hs : Ledger s) {n : Nat} {r r' : SendRequest} {stage : Stage}
    (hr : s.requests n = some (r, stage)) {channels : Channels} {stage' : Stage}
    (hnumber : r'.sequenceNumber = r.sequenceNumber) (hrx : r'.rxResponse.request = n)
    (hframe : ∀ c : ReplyChannel, c.request ≠ n → channels c = s.channels c)
    (hnext : ∀ c rx, (channels c).slot = some (.«continue» rx) → rx = c.next)
    (hchain : stage'.listens = true → ∀ c tx, s.Entered c tx → tx.request = n →
      Chain channels n r'.rxResponse.hop tx.hop .new) :
    Ledger ({ s with channels }.putRequest n r' stage') := by
  have hn := hs.request n r stage hr
  have hlt : n < s.numbers.length := (List.getElem?_eq_some_iff.mp hn.1).1
  exact { hs with
    call := fun call hcall => by
      obtain ⟨hseq, hnumber, hnone⟩ := hs.call call hcall
      have hne : call.request ≠ n := by
        rintro rfl
        rw [hr] at hnone
        cases hnone
      exact ⟨hseq, hnumber, (Function.update_of_ne hne _ _).trans hnone⟩
    request := fun m r₁ stage₁ hr₁ => by
      by_cases hm : m = n
      · obtain rfl := hm
        obtain ⟨rfl, rfl⟩ : r' = r₁ ∧ stage' = stage₁ := by
          simpa [Exchange.putRequest] using hr₁
        exact ⟨hnumber ▸ hn.1, hrx⟩
      · exact hs.request m r₁ stage₁ ((Function.update_of_ne hm _ _).symm.trans hr₁)
    next := hnext
    untouched := fun c hc => by
      exact (hframe c fun heq => Nat.not_lt.mpr hc (heq ▸ hlt)).trans (hs.untouched c hc)
    chain := fun m h c ha c' tx ht hm => by
      by_cases hmn : m = n
      · obtain rfl := hmn
        cases ha with
        | @call call hcall hm' =>
          have hnone := (hs.call call hcall).2.2
          rw [hm', hr] at hnone
          cases hnone
        | @request r₁ stage₁ hr₁ hstage =>
          obtain ⟨rfl, rfl⟩ : r' = r₁ ∧ stage' = stage₁ := by
            simpa [Exchange.putRequest] using hr₁
          exact hchain hstage c' tx ht hm
      · have ha' : s.Awaits m h c := by
          have hsame : ({ s with channels }.putRequest n r' stage').requests m = s.requests m :=
            Function.update_of_ne hmn _ _
          unfold Awaits at ha ⊢
          rwa [hsame] at ha
        exact (hs.chain m h c ha' c' tx ht hm).congr fun c₁ hc₁ => hframe c₁ (hc₁ ▸ hmn) }

/-- What a future returns leaves the entries. -/
theorem finish (hs : Ledger s) {n : Nat} {r : SendRequest} {stage : Stage}
    (hr : s.requests n = some (r, stage)) {channels : Channels}
    (hframe : ∀ c : ReplyChannel, c.request ≠ n → channels c = s.channels c)
    (hnext : ∀ c rx, (channels c).slot = some (.«continue» rx) → rx = c.next)
    (result : Except OperationError Response) :
    Ledger ({ s with channels }.finish n r result) := by
  have hput : Ledger ({ s with channels }.putRequest n r .returned) :=
    hs.putRequest hr rfl (hs.request n r stage hr).2 hframe hnext nofun
  exact { hput with }

theorem next_put (hs : Ledger s) (c : ReplyChannel) {channel : Oneshot PendingRequestResponse}
    (hchannel : ∀ rx, channel.slot = some (.«continue» rx) → rx = c.next) (c' rx : ReplyChannel)
    (h : (s.channels.put c channel c').slot = some (.«continue» rx)) : rx = c'.next := by
  by_cases hc : c' = c
  · rw [hc, Channels.put_self] at h
    exact hc ▸ hchannel rx h
  · rw [Channels.put_of_ne _ _ hc] at h
    exact hs.next c' rx h

/-- A channel from which a message has been taken. -/
theorem next_taken (hs : Ledger s) (c c' rx : ReplyChannel)
    (h : (s.channels.put c ⟨true, none⟩ c').slot = some (.«continue» rx)) : rx = c'.next :=
  hs.next_put c (fun _ hslot => by cases hslot) c' rx h

theorem looked (hs : Ledger s) {n : Nat} {r : SendRequest}
    (hr : s.requests n = some (r, .waiting)) :
    Ledger (s.looked n (r.pollRequest s.channels) r) := by
  have hrx := (hs.request n r _ hr).2
  have hlooks := r.pollRequest_cases s.channels
  have hframe : ∀ (channel : Oneshot PendingRequestResponse) (c : ReplyChannel), c.request ≠ n →
      s.channels.put r.rxResponse channel c = s.channels c :=
    fun channel c hc => Channels.put_of_request _ _ (hrx ▸ hc)
  have hchain := hs.chain n r.rxResponse.hop r.sequenceNumber (.request hr rfl)
  generalize r.pollRequest s.channels = looked at hlooks
  cases hlooks with
  | notReady _ => exact hs.putRequest hr rfl hrx (fun _ _ => rfl) hs.next fun _ => hchain
  | @«continue» rx hcontinue =>
    have hnext : rx = r.rxResponse.next := hs.next _ rx (by rw [hcontinue]; rfl)
    refine hs.putRequest hr rfl (hnext ▸ hrx) (hframe _) (hs.next_taken _) ?_
    intro _ c tx ht hn
    have hfirst := (hchain c tx ht hn).first
    -- The channel that was looked at is not the last one: that has not been used.
    have hself : r.rxResponse = ⟨n, r.rxResponse.hop⟩ := by rw [← hrx]
    rw [← hself, hcontinue] at hfirst
    rcases hfirst with ⟨-, hnew⟩ | ⟨hlt, -⟩
    · cases hnew
    · have htaken := (hchain c tx ht hn).take hlt ⟨true, none⟩
      rw [← hself] at htaken
      rw [hnext]
      exact htaken
  | none _ => exact hs.finish hr (hframe _) (hs.next_taken _) _
  | response _ => exact hs.finish hr (hframe _) (hs.next_taken _) _
  | canceled _ => exact hs.putRequest hr rfl hrx (fun _ _ => rfl) hs.next fun _ => hchain

theorem pollTimers (hs : Ledger s) {n : Nat} {r : SendRequest}
    (hr : s.requests n = some (r, .timers)) (timed : Rust (Except OperationError Unit)) :
    Ledger (s.putRequest n r (Exchange.timed timed)) :=
  hs.putRequest hr rfl (hs.request n r _ hr).2 (fun _ _ => rfl) hs.next fun _ =>
    hs.chain n _ _ (.request hr rfl)

theorem closeReceiver (hs : Ledger s) {n : Nat} {r : SendRequest}
    {error : Option OperationError} (hr : s.requests n = some (r, .closing error)) :
    Ledger (s.closeReceiver n r error) := by
  have hrx := (hs.request n r _ hr).2
  cases error with
  | some error =>
    refine hs.finish hr ?_ ?_ _
    · exact fun c hc => Channels.close_of_request _ (hrx ▸ hc)
    · exact fun c rx h => hs.next c rx (Channels.slot_close .. ▸ h)
  | none =>
    refine hs.putRequest hr rfl hrx ?_ ?_ nofun
    · exact fun c hc => Channels.dropReceiver_of_request _ (hrx ▸ hc)
    · exact fun c rx h => hs.next c rx (Channels.slot_dropReceiver .. ▸ h)

/-- A future that is dropped listens no more, and only its own channels are touched. -/
theorem drop_frame (hs : Ledger s) {n : Nat} {r : SendRequest} {stage : Stage}
    (hr : s.requests n = some (r, stage)) :
    ∃ (channels : Channels) (stage' : Stage),
      s.drop n r = { s with channels }.putRequest n r stage' ∧ stage'.listens = false ∧
      (∀ c : ReplyChannel, c.request ≠ n → channels c = s.channels c) ∧
      ∀ c rx, (channels c).slot = some (.«continue» rx) → rx = c.next := by
  have hrx := (hs.request n r _ hr).2
  have hchecks := r.pollIsCancelled_cases s.channels
  unfold Exchange.drop
  generalize r.pollIsCancelled s.channels = checked at hchecks ⊢
  obtain ⟨cancelled, channels⟩ := checked
  have hframe : ∀ (channel : Oneshot PendingRequestResponse) (c : ReplyChannel), c.request ≠ n →
      s.channels.put r.rxResponse channel c = s.channels c :=
    fun channel c hc => Channels.put_of_request _ _ (hrx ▸ hc)
  cases hchecks with
  | cancelled _ =>
    refine ⟨_, _, rfl, rfl, ?_, ?_⟩
    · exact fun c hc => Channels.dropReceiver_of_request _ (hrx ▸ hc)
    · exact fun c rx h => hs.next c rx (Channels.slot_dropReceiver .. ▸ h)
  | notReady _ => exact ⟨_, _, rfl, rfl, fun _ _ => rfl, hs.next⟩
  | @«continue» rx hcontinue =>
    have hnext : rx = r.rxResponse.next := hs.next _ rx (by rw [hcontinue]; rfl)
    refine ⟨_, _, rfl, rfl, fun c hc => ?_, fun c rx' h => ?_⟩
    · have hne : c.request ≠ rx.request := by
        rw [hnext]
        exact fun heq => hc (heq.trans hrx)
      exact (Channels.dropReceiver_of_request _ hne).trans (hframe _ c hc)
    · exact hs.next_taken r.rxResponse c rx' (Channels.slot_dropReceiver .. ▸ h)
  | taken _ _ => exact ⟨_, _, rfl, rfl, hframe _, hs.next_taken _⟩

theorem drop (hs : Ledger s) {n : Nat} {r : SendRequest} {stage : Stage}
    (hr : s.requests n = some (r, stage)) : Ledger (s.drop n r) := by
  obtain ⟨channels, stage', heq, hstage, hframe, hnext⟩ := hs.drop_frame hr
  rw [heq]
  refine hs.putRequest hr rfl (hs.request n r _ hr).2 hframe hnext fun hlistens => ?_
  rw [hstage] at hlistens
  cases hlistens

end Ledger

end Exchange
end Rtsp
