import Rtsp.Connection.Ledger.Calls

/-!
# The entries of pending requests

A request is entered under its `CSeq` once, by way of the queue of updates, and its
entry then holds the last of the channels that Continue responses have strung together.
Whoever waits for the reply holds the first one that has not been looked at (`Chain`).
The ledger says so of every request that has an entry and somebody to wait for it, and
keeps the entries of different requests apart; every step keeps it (`Ledger.step`), so
it holds in every run (`ledger_run`).

The ledger is about safety only. That an entry is there for everybody who waits is not
in it, and not true of every run: see `Connection.Replies` for what is.
-/

namespace Rtsp

open Lib

namespace Exchange

namespace Ledger

variable {s : Exchange}

theorem start (first : CSeq) : Ledger (start first) where
  held := Nat.zero_le _
  call := nofun
  request := nofun
  entered c tx h := by
    rcases h with h | h
    · cases h
    · cases h
  distinct := List.nodup_nil
  apart := nofun
  next := nofun
  untouched _ _ := rfl
  chain n h c ha := by
    cases ha with
    | call hcall => cases hcall
    | request hr => cases hr

/-- **Every step keeps the ledger.** -/
theorem step {s' : Exchange} {op : Op} (hs : Ledger s) (h : Step s op s') : Ledger s' := by
  cases h with
  | cloneHandle => exact { hs with held := Nat.le_succ_of_le hs.held }
  | dropHandle hheld => exact { hs with held := Nat.le_sub_one_of_lt hheld }
  | addPendingRequest options _ hhandles =>
    split
    · exact hs
    · exact hs.addPendingRequest options hhandles
  | queueMessage hcall => exact hs.queueMessage hcall
  | messageFails hcall => exact hs.messageFails hcall
  | retract hcall => exact hs.retract hcall
  | write => exact { hs with }
  | closeSender => exact { hs with }
  | startPoll => exact { hs with }
  | handleUpdate _ hu => exact hs.handleUpdate hu
  | drained => exact { hs with }
  | ended => exact { hs with }
  | respond response => exact hs.respond response
  | finishPoll => exact { hs with }
  | startDrop => exact { hs with }
  | cancelEntry _ h₀ => exact hs.cancelEntry h₀
  | closeQueue => exact { hs with }
  | discard _ hu => exact hs.discard hu
  | poll hr => exact hs.looked hr
  | pollTimers maxTimer timer hr => exact hs.pollTimers hr _
  | @queueRemoval n r error hr =>
    have hsent := hs.unboundedSend r.sequenceNumber
    rw [unboundedSend_eq] at hsent ⊢
    exact hsent.putRequest hr rfl (hs.request n r _ hr).2 (fun _ _ => rfl) hs.next nofun
  | closeReceiver hr => exact hs.closeReceiver hr
  | drop hr => exact hs.drop hr

end Ledger

/-- **The ledger holds in every run.** -/
theorem ledger_run {first : CSeq} {ops : List Op} {s : Exchange}
    (h : Run Step (start first) ops s) : Ledger s :=
  h.invariant (Ledger.start first) fun _ _ _ hs hstep => hs.step hstep

end Exchange
end Rtsp
