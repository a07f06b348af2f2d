import Rtsp.Connection.Replies.Responses

/-!
# Whoever waits for a reply is told

Whoever waits for the reply to a request finds his way, over the Continue responses that
have come, to the last channel in use, and that channel is still entered or holds the
outcome: the final response, or the word that none will come (`Ends`). Every step keeps
it (`Served.step`), as long as what is queued does not take away the entry of another
request. A request that is entered between the last look at the queue and its closing is
lost, and the invariant says whether there is any (`lossy`).

This is an invariant and not a promise that a reply comes. A server that never answers
leaves everybody waiting, and so does a connection that is not polled.
-/

namespace Rtsp

open Lib

namespace Exchange

variable {s s' : Exchange}

namespace Served

variable {lossy : Nat → Prop}

theorem start (first : CSeq) (lossy : Nat → Prop) : Served (start first) lossy := by
  intro n h c ha
  cases ha with
  | call hcall => cases hcall
  | request hr => cases hr

/-- **Every step keeps everybody served** who waits, if it takes no entry away from another
    request. -/
theorem step {op : Op} (hledger : Ledger s) (howned : Owned s) (hs : Served s lossy)
    (h : Step s op s') (hkeeps : s.phase.handlesUpdates = true → s.keepsOthers op = true)
    (hlossy : ∀ options, op = .addPendingRequest options → s.phase = .cancelling →
      lossy s.numbers.length) :
    Served s' lossy := by
  cases h with
  | cloneHandle => exact hs.same (fun _ _ _ => id) rfl rfl rfl rfl
  | dropHandle => exact hs.same (fun _ _ _ => id) rfl rfl rfl rfl
  | addPendingRequest options =>
    split
    · exact hs
    · next hopen =>
      refine hs.addPendingRequest hledger options (fun hdone => ?_) fun hphase => ?_
      · cases hphase : s.phase with
        | cancelling => exact hlossy options rfl hphase
        | closed => exact absurd hphase hopen
        | _ => rw [hphase] at hdone; cases hdone
      · simpa [keepsOthers] using hkeeps hphase
  | queueMessage hcall => exact hs.queueMessage hcall
  | messageFails hcall => exact hs.messageFails hcall
  | @retract call hcall =>
    refine hs.retract hledger hcall fun hphase => ?_
    simpa [keepsOthers, hcall] using hkeeps hphase
  | write => exact hs.same (fun _ _ _ => id) rfl rfl rfl rfl
  | closeSender => exact hs.same (fun _ _ _ => id) rfl rfl rfl rfl
  | startPoll hidle =>
    refine hs.move .draining s.receiver.isDone (fun hdone => ?_) (.inl ?_)
    · rw [hidle] at hdone
      cases hdone
    · rw [hidle]
      rfl
  | handleUpdate hphase hu =>
    refine hs.handleUpdate hledger ?_ hu
    rcases hphase with hdraining | hdropping
    · rw [hdraining]; rfl
    · rw [hdropping]; rfl
  | drained hempty hphase =>
    refine hs.move _ s.receiver.isDone (fun hdone => ?_) (.inr hempty)
    rcases hphase with ⟨hdraining, -⟩ | hdropping
    · rw [hdraining] at hdone
      cases hdone
    · rw [hdropping] at hdone
      cases hdone
  | ended hempty hdraining =>
    refine hs.move .dropping true (fun hdone => ?_) (.inr hempty)
    rw [hdraining] at hdone
    cases hdone
  | respond response hreading =>
    refine hs.respond hledger ?_ response
    rw [hreading]
    rfl
  | finishPoll hreading =>
    refine hs.move .idle s.receiver.isDone (fun hdone => ?_) (.inl ?_)
    · rw [hreading] at hdone
      cases hdone
    · rw [hreading]
      rfl
  | startDrop hphase =>
    refine hs.move .dropping s.receiver.isDone (fun hdone => ?_) (.inl ?_)
    · rcases hphase with hidle | hreading
      · rw [hidle] at hdone
        cases hdone
      · rw [hreading] at hdone
        cases hdone
    · rcases hphase with hidle | hreading
      · rw [hidle]; rfl
      · rw [hreading]; rfl
  | cancelEntry hcancelling h₀ => exact hs.cancelEntry hledger hcancelling h₀
  | closeQueue hcancelling =>
    refine hs.move .closed s.receiver.isDone (fun _ => rfl) (.inl ?_)
    rw [hcancelling]
    rfl
  | discard hclosed hu => exact hs.discard hledger hclosed (howned.closed hclosed) hu
  | poll hr => exact hs.looked hledger hr
  | pollTimers _ _ hr => exact hs.pollTimers hledger hr _
  | @queueRemoval n r error hr =>
    refine hs.queueRemoval hledger hr fun hphase => ?_
    simpa [keepsOthers, hr] using hkeeps hphase
  | closeReceiver hr => exact hs.closeReceiver hledger hr
  | drop hr => exact hs.drop hledger hr

end Served
end Exchange
end Rtsp
