import Rtsp.Connection.Ledger.Chain

/-!
# Entries, and who waits for them

A pending request is *entered* if it is in the map of the response receiver or in the
queue of updates in front of it. The two have to be taken together: no invariant about
the map alone survives a step of the queue, and it matters as much what will be in the
map as what is.

For what the queue is going to make of the map there are two descriptions, and both are
needed. `adds` lists the pending requests in the queue, whatever comes behind them; it
is what "a request is entered once" can be said with. `word` and `registered` work the
queue off for one number, removals included, and say what is there in the end.

`Awaits` is the other side: the call that has not returned yet, or the future. A future
that has been cancelled, or has returned, waits for nothing (`Stage.listens`), but one
that has panicked still counts, because it is dropped later and asks for its removal
then.

`Ledger` is what holds of both in every run. It does not say that different requests
have different numbers. They need not, once the numbers have gone round, and then one
entry takes the other's place; what stays apart all the same are the *channels*.
-/

namespace Rtsp

open Lib

namespace Exchange

/-! ## Entries, and who waits for a reply -/

/-- The pending requests in the queue, in order. -/
def adds (updates : List PendingRequestUpdate) : List (CSeq × ReplyChannel) :=
  updates.filterMap fun update => update.entry.map (update.cseq, ·)

@[simp] theorem adds_nil : adds [] = [] := rfl

@[simp] theorem adds_append (us vs : List PendingRequestUpdate) :
    adds (us ++ vs) = adds us ++ adds vs :=
  List.filterMap_append

@[simp] theorem adds_add (cseq : CSeq) (tx : ReplyChannel) (us : List PendingRequestUpdate) :
    adds (.addPendingRequest cseq tx :: us) = (cseq, tx) :: adds us := rfl

@[simp] theorem adds_remove (cseq : CSeq) (us : List PendingRequestUpdate) :
    adds (.removePendingRequest cseq :: us) = adds us := rfl

theorem adds_cons (u : PendingRequestUpdate) (us : List PendingRequestUpdate) :
    adds (u :: us) = (u.entry.map (u.cseq, ·)).toList ++ adds us := by
  cases u <;> rfl

theorem adds_sublist (u : PendingRequestUpdate) (us : List PendingRequestUpdate) :
    (adds us).Sublist (adds (u :: us)) :=
  adds_cons u us ▸ List.sublist_append_right _ _

/-- A pending request is entered under a number: in the map, or in the queue still. -/
def Entered (s : Exchange) (cseq : CSeq) (tx : ReplyChannel) : Prop :=
  s.receiver.pendingRequests.lookup cseq = some tx ∨ (cseq, tx) ∈ adds s.updates

/-! ## What the queue makes of an entry -/

/-- What an update makes of the entry under `c`. -/
def word (c : CSeq) (found : Option ReplyChannel) (u : PendingRequestUpdate) :
    Option ReplyChannel :=
  if c = u.cseq then u.entry else found

/-- What will be entered under `c` once the queue has been worked off. -/
def registered (s : Exchange) (c : CSeq) : Option ReplyChannel :=
  s.updates.foldl (word c) (s.receiver.pendingRequests.lookup c)

theorem lookup_handlePendingRequestUpdate (s : Exchange) (u : PendingRequestUpdate)
    (us : List PendingRequestUpdate) (c : CSeq) :
    (s.handleUpdate u us).receiver.pendingRequests.lookup c =
      word c (s.receiver.pendingRequests.lookup c) u :=
  ResponseReceiver.lookup_handlePendingRequestUpdate s.receiver u c

/-- Without an update about `c`, its entry stays as it is. -/
theorem foldl_word_of_ne {c : CSeq} {us : List PendingRequestUpdate} (found : Option ReplyChannel)
    (h : ∀ u ∈ us, c ≠ u.cseq) : us.foldl (word c) found = found := by
  induction us generalizing found with
  | nil => rfl
  | cons u us ih =>
    rw [List.foldl_cons, word, if_neg (h u (.head _))]
    exact ih found fun v hv => h v (.tail _ hv)

/-- With an update about `c`, it does not matter what was entered before. -/
theorem foldl_word_congr {c : CSeq} {us : List PendingRequestUpdate} {u : PendingRequestUpdate}
    (hu : u ∈ us) (hc : c = u.cseq) (found found' : Option ReplyChannel) :
    us.foldl (word c) found = us.foldl (word c) found' := by
  induction us generalizing found found' with
  | nil => cases hu
  | cons v us ih =>
    rw [List.foldl_cons, List.foldl_cons]
    rcases List.mem_cons.mp hu with rfl | hu
    · rw [word, word, if_pos hc, if_pos hc]
    · exact ih hu _ _

/-- What is entered in the end comes from the queue, or was there and is not touched. -/
theorem foldl_word_eq_some {c : CSeq} {us : List PendingRequestUpdate}
    {found : Option ReplyChannel} {tx : ReplyChannel} (h : us.foldl (word c) found = some tx) :
    (c, tx) ∈ adds us ∨ found = some tx ∧ ∀ u ∈ us, c ≠ u.cseq := by
  induction us generalizing found with
  | nil => exact .inr ⟨h, nofun⟩
  | cons u us ih =>
    rcases ih h with hmem | ⟨hword, hrest⟩
    · exact .inl ((adds_sublist u us).subset hmem)
    · by_cases hc : c = u.cseq
      · rw [word, if_pos hc] at hword
        refine .inl ?_
        rw [adds_cons, hword, hc]
        exact .head _
      · rw [word, if_neg hc] at hword
        exact .inr ⟨hword, List.forall_mem_cons.mpr ⟨hc, hrest⟩⟩

end Exchange

/-- The stages of a future that may still look for its reply, or is about to be dropped. -/
def Stage.listens : Stage → Bool
  | waiting | timers | panicked => true
  | cancelling _ | closing _ | returned | dropped => false

namespace Exchange

/-- Who waits for the reply to request `n`, from the call that holds the lock and the future:
    the call until it returns the future, and then the future. -/
inductive Waits (call : Option Call) (request : Option (SendRequest × Stage)) (n : Nat) :
    Nat → CSeq → Prop where
  | call {k} : call = some k → k.request = n → Waits call request n 0 k.sequenceNumber
  | request {r stage} : request = some (r, stage) → stage.listens = true →
      Waits call request n r.rxResponse.hop r.sequenceNumber

/-- Somebody waits for the reply to request `n` under the number `c`. The next channel to be
    looked at is that of hop `h`. -/
def Awaits (s : Exchange) (n h : Nat) (c : CSeq) : Prop := Waits s.call (s.requests n) n h c

/-- What holds of the entries in every run. -/
structure Ledger (s : Exchange) : Prop where
  held : s.call.toList.length ≤ s.handles
  call : ∀ call, s.call = some call → call.sequenceNumber = s.sequenceNumber ∧
    s.numbers[call.request]? = some call.sequenceNumber ∧ s.requests call.request = none
  request : ∀ n r stage, s.requests n = some (r, stage) →
    s.numbers[n]? = some r.sequenceNumber ∧ r.rxResponse.request = n
  /-- A request is entered under its own number. -/
  entered : ∀ c tx, s.Entered c tx → s.numbers[tx.request]? = some c
  /-- It is entered once. -/
  distinct : ((adds s.updates).map (·.2.request)).Nodup
  apart : ∀ c tx, s.receiver.pendingRequests.lookup c = some tx →
    tx.request ∉ (adds s.updates).map (·.2.request)
  next : ∀ c rx, (s.channels c).slot = some (.«continue» rx) → rx = c.next
  untouched : ∀ c : ReplyChannel, s.numbers.length ≤ c.request → s.channels c = .new
  /-- Whoever waits for the reply will find his way to the channel that is entered. -/
  chain : ∀ n h c, s.Awaits n h c → ∀ c' tx, s.Entered c' tx → tx.request = n →
    Chain s.channels n h tx.hop .new

end Exchange
end Rtsp
