import Rtsp.Connection.Leaks

/-!
# How a chain of channels ends

Whoever waits for a reply stands somewhere on the chain of channels of his request. What
he finds at its end is one of five things (`Ends`): nothing yet, and the response
receiver has the other half or is going to have it; the final response; the word that
none will come; and the two cases in which he is going to be, or has been, forgotten.

Those two are a race. Between the last look of the response receiver at its queue and
the closing of the queue, another thread can queue a pending request. It is dropped with
the queue, and its channel is closed without a message, which makes the future panic.
The invariant does not deny it. It has a parameter that says for which requests it may
have happened (`lossy`), so the same induction serves for runs in which it does not
(`Connection.Outcome`).

`expected` is what will be entered under a number. It looks into the queue as long as
the queue is worked off, and not at all from then on, for what is in it then is thrown
away.

`keepsOthers` is a condition on a step, computed from the state before it: what it
queues does not take the entry of somebody who waits. Requests with different numbers
satisfy it (`Connection.Matching.Numbered`).
-/

namespace Rtsp

open Lib

namespace Exchange

/-- What is going to be entered under `c`: what the queue makes of it, as long as the queue is
    worked off. -/
def expected (s : Exchange) (c : CSeq) : Option ReplyChannel :=
  if s.phase.handlesUpdates then s.registered c else s.receiver.pendingRequests.lookup c

variable {s s' : Exchange}

theorem expected_of_handles (h : s.phase.handlesUpdates = true) (c : CSeq) :
    s.expected c = s.registered c :=
  if_pos h

theorem expected_of_done (h : s.phase.handlesUpdates = false) (c : CSeq) :
    s.expected c = s.receiver.pendingRequests.lookup c :=
  if_neg (h ▸ Bool.false_ne_true)

/-- What the queue holds about `c` does not matter when there is nothing left in it. -/
theorem expected_of_empty (h : s.updates = []) (c : CSeq) :
    s.expected c = s.receiver.pendingRequests.lookup c := by
  unfold expected registered
  rw [h, List.foldl_nil, ite_self]

/-- The last channel in use of request `n`, at hop `e`, when its number is `c`. -/
inductive Ends (s : Exchange) (lossy : Prop) (n e : Nat) (c : CSeq) :
    Oneshot PendingRequestResponse → Prop where
  /-- The response receiver has it, or will have it. -/
  | expected : s.expected c = some ⟨n, e⟩ → Ends s lossy n e c .new
  | answered {response} : response.headers.typedGet CSeq = some c →
      response.statusCode ≠ .standard .«continue» →
      Ends s lossy n e c (.filled (.response response))
  /-- The request was cancelled with the response receiver. -/
  | told : s.phase.handlesUpdates = false → Ends s lossy n e c (.filled .none)
  /-- Its update was queued when no update was handled any more. -/
  | late : lossy → s.phase.handlesUpdates = false → (c, ⟨n, e⟩) ∈ adds s.updates →
      Ends s lossy n e c .new
  /-- That update was dropped. -/
  | lost : lossy → s.phase.handlesUpdates = false → Ends s lossy n e c ⟨true, none⟩

namespace Ends

variable {lossy : Prop} {n e : Nat} {c : CSeq} {last : Oneshot PendingRequestResponse}

theorem ne_continue (h : Ends s lossy n e c last) (rx : ReplyChannel) :
    last ≠ .filled (.«continue» rx) := by
  rintro rfl
  cases h

/-- The entry is still expected where it was, and what was late is still in the queue. -/
theorem congr (h : Ends s lossy n e c last)
    (hexpected : s.expected c = some ⟨n, e⟩ → s'.expected c = some ⟨n, e⟩)
    (hphase : s.phase.handlesUpdates = false → s'.phase.handlesUpdates = false)
    (hadds : s.phase.handlesUpdates = false → (c, ⟨n, e⟩) ∈ adds s.updates →
      (c, ⟨n, e⟩) ∈ adds s'.updates) : Ends s' lossy n e c last := by
  cases h with
  | expected h => exact .expected (hexpected h)
  | answered hnumber hfinal => exact .answered hnumber hfinal
  | told hdone => exact .told (hphase hdone)
  | late hlossy hdone hmem => exact .late hlossy (hphase hdone) (hadds hdone hmem)
  | lost hlossy hdone => exact .lost hlossy (hphase hdone)

end Ends

/-- Everybody who waits for a reply will find out, but for some requests that may be lost. -/
def Served (s : Exchange) (lossy : Nat → Prop) : Prop :=
  ∀ n h c, s.Awaits n h c → ∃ e last, Chain s.channels n h e last ∧ Ends s (lossy n) n e c last

/-! ## What a step must not queue -/

/-- Somebody waits for the reply to request `n`. -/
def isAwaited (s : Exchange) (n : Nat) : Bool :=
  s.call.any (·.request = n) || (s.requests n).any (·.2.listens)

/-- The entry under `c` will be that of a request other than `n` which somebody waits for. -/
def isTaken (s : Exchange) (n : Nat) (c : CSeq) : Bool :=
  (s.registered c).any fun tx => decide (tx.request ≠ n) && s.isAwaited tx.request

/-- What is queued takes no entry away from another request that somebody waits for. -/
def keepsOthers (s : Exchange) : Op → Bool
  | .addPendingRequest _ => !s.isTaken s.numbers.length s.sequenceNumber
  | .retract => s.call.all fun call => !s.isTaken call.request call.sequenceNumber
  | .queueRemoval n => (s.requests n).all fun e => !s.isTaken n e.1.sequenceNumber
  | _ => true

theorem isAwaited_of_awaits {n h : Nat} {c : CSeq} (ha : s.Awaits n h c) :
    s.isAwaited n = true := by
  unfold isAwaited
  cases ha with
  | call hcall hn => simp [hcall, hn]
  | request hr hstage => simp [hr, hstage]

theorem not_taken {n m e h : Nat} {c c' : CSeq} (hfree : s.isTaken n c = false)
    (hm : m ≠ n) (ha : s.Awaits m h c') : s.registered c ≠ some ⟨m, e⟩ := by
  intro hregistered
  rw [isTaken, hregistered, Option.any_some, isAwaited_of_awaits ha, Bool.and_true] at hfree
  exact of_decide_eq_false hfree hm

/-- The number under which somebody waits is the request's. -/
theorem Ledger.number (hs : Ledger s) {n h : Nat} {c : CSeq} (ha : s.Awaits n h c) :
    s.numbers[n]? = some c := by
  cases ha with
  | call hcall hn =>
    rw [← hn]
    exact (hs.call _ hcall).2.1
  | request hr => exact (hs.request n _ _ hr).1

/-- What has an entry to come has one. -/
theorem entered_of_registered {c : CSeq} {tx : ReplyChannel} (h : s.registered c = some tx) :
    s.Entered c tx :=
  (foldl_word_eq_some h).elim .inr fun h => .inl h.1

end Exchange
end Rtsp
