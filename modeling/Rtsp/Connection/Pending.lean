import Rtsp.Connection.Async
import Rtsp.Header.Types
import Rtsp.Lib.Keyed
import Rtsp.Response

/-!
# The response receiver

`ResponseReceiver` of `connection/receiver.rs`, with the messages of
`connection/pending.rs`: it keeps, for each request sent that has not been
answered, the sending half of a oneshot channel to the request's owner. A
Continue response hands the owner the receiving half of a new channel.

The owners live in other tasks. Whether one has closed its half by the time
something is sent to it is told by `closed`; each half sends at most once.

A channel is named by the request and by how many Continue responses have led to it,
since the halves themselves cannot be compared and need not be: nothing else ever sends
into that channel. What a poll sends is returned (`Deliveries`) and is the caller's to
carry out, so that this module has no channels in its state, and those that follow can
put them where they belong (`Connection.Exchange`).

The `debug_assert` on removals is left out here. Whether the entry is there that is to
be removed is the subject of `Connection.Removal`, which shows that it need not be.
-/

namespace Rtsp

open Lib

/-- The channels of one request: the first one, and one more for each Continue. -/
structure ReplyChannel where
  request : Nat
  hop : Nat
  deriving DecidableEq

/-- The channel that a Continue goes on with. -/
def ReplyChannel.next (c : ReplyChannel) : ReplyChannel := { c with hop := c.hop + 1 }

inductive PendingRequestResponse where
  /-- The receiving half of the channel for further updates. -/
  | «continue» (rx : ReplyChannel)
  | none
  | response (r : Response)
  deriving DecidableEq

inductive PendingRequestUpdate where
  | addPendingRequest (cseq : CSeq) (tx : ReplyChannel)
  | removePendingRequest (cseq : CSeq)
  deriving DecidableEq

namespace PendingRequestUpdate

/-- The `CSeq` an update is about. -/
def cseq : PendingRequestUpdate → CSeq
  | addPendingRequest cseq _ => cseq
  | removePendingRequest cseq => cseq

/-- What an update leaves under its `CSeq`. -/
def entry : PendingRequestUpdate → Option ReplyChannel
  | addPendingRequest _ tx => some tx
  | removePendingRequest _ => none

end PendingRequestUpdate

/-- What was sent, and through which channel. -/
abbrev Deliveries := List (ReplyChannel × PendingRequestResponse)

structure ResponseReceiver where
  pendingRequests : AList fun _ : CSeq => ReplyChannel
  /-- `rx_pending_request.is_done()` -/
  isDone : Bool

namespace ResponseReceiver

def new : ResponseReceiver := ⟨∅, false⟩

def handlePendingRequestUpdate (r : ResponseReceiver) (update : PendingRequestUpdate) :
    ResponseReceiver :=
  match update with
  | .addPendingRequest cseq tx => { r with pendingRequests := r.pendingRequests.insert cseq tx }
  | .removePendingRequest cseq => { r with pendingRequests := r.pendingRequests.erase cseq }

/-- `Sender::send` of a oneshot channel. -/
def send (closed : ReplyChannel → Bool) (tx : ReplyChannel) (message : PendingRequestResponse) :
    Deliveries :=
  if closed tx then [] else [(tx, message)]

theorem send_of_closed {closed : ReplyChannel → Bool} {tx : ReplyChannel}
    (h : closed tx = true) (message : PendingRequestResponse) : send closed tx message = [] :=
  if_pos h

theorem send_of_open {closed : ReplyChannel → Bool} {tx : ReplyChannel}
    (h : closed tx = false) (message : PendingRequestResponse) :
    send closed tx message = [(tx, message)] :=
  if_neg (h ▸ Bool.false_ne_true)

def handleResponse (r : ResponseReceiver) (closed : ReplyChannel → Bool) (response : Response) :
    ResponseReceiver × Deliveries :=
  match response.headers.typedGet CSeq with
  | none => (r, [])
  | some cseq =>
    match r.pendingRequests.lookup cseq with
    | none => (r, [])
    | some tx =>
      if response.statusCode = .standard .«continue» then
        ({ r with
            pendingRequests :=
              if closed tx then r.pendingRequests.erase cseq
              else r.pendingRequests.replace cseq tx.next },
          send closed tx (.«continue» tx.next))
      else
        ({ r with pendingRequests := r.pendingRequests.erase cseq },
          send closed tx (.response response))

/-- `ResponseReceiver::poll`: the updates there are, and whether the channel ends behind
    them. -/
def poll (r : ResponseReceiver) (updates : List PendingRequestUpdate) (ended : Bool) :
    Async Unit × ResponseReceiver :=
  if r.isDone then (.ready (), r)
  else
    let r := updates.foldl handlePendingRequestUpdate r
    if ended then (.ready (), { r with isDone := true }) else (.notReady, r)

/-- `Drop for ResponseReceiver`: the updates that are still there, then a last word to
    every pending request. -/
def drop (r : ResponseReceiver) (closed : ReplyChannel → Bool)
    (updates : List PendingRequestUpdate) : Deliveries :=
  let (_, r) := r.poll updates false
  (contents r.pendingRequests).flatMap fun e => send closed e.2 .none

/-! ## What updates and responses do to the entries -/

theorem lookup_handlePendingRequestUpdate (r : ResponseReceiver) (update : PendingRequestUpdate)
    (cseq : CSeq) : (r.handlePendingRequestUpdate update).pendingRequests.lookup cseq =
      if cseq = update.cseq then update.entry else r.pendingRequests.lookup cseq := by
  by_cases hc : cseq = update.cseq
  · rw [if_pos hc, hc]
    cases update with
    | addPendingRequest => exact AList.lookup_insert _
    | removePendingRequest => exact AList.lookup_erase _ _
  · rw [if_neg hc]
    cases update with
    | addPendingRequest => exact AList.lookup_insert_ne hc
    | removePendingRequest => exact AList.lookup_erase_ne hc

/-- How a response is handled. -/
inductive Handles (r : ResponseReceiver) (closed : ReplyChannel → Bool) (response : Response) :
    ResponseReceiver → Deliveries → Prop where
  /-- It has no number, or nothing is pending under it. -/
  | ignored : (∀ cseq, response.headers.typedGet CSeq = some cseq →
      r.pendingRequests.lookup cseq = none) → Handles r closed response r []
  /-- A Continue goes on with the next channel. -/
  | continued {cseq tx} : response.headers.typedGet CSeq = some cseq →
      r.pendingRequests.lookup cseq = some tx →
      response.statusCode = .standard .«continue» → closed tx = false →
      Handles r closed response
        { r with pendingRequests := r.pendingRequests.replace cseq tx.next }
        [(tx, .«continue» tx.next)]
  | delivered {cseq tx} : response.headers.typedGet CSeq = some cseq →
      r.pendingRequests.lookup cseq = some tx →
      response.statusCode ≠ .standard .«continue» → closed tx = false →
      Handles r closed response
        { r with pendingRequests := r.pendingRequests.erase cseq } [(tx, .response response)]
  /-- The owner does not listen any more. -/
  | closed {cseq tx} : response.headers.typedGet CSeq = some cseq →
      r.pendingRequests.lookup cseq = some tx → closed tx = true →
      Handles r closed response { r with pendingRequests := r.pendingRequests.erase cseq } []

theorem handleResponse_cases (r : ResponseReceiver) (closed : ReplyChannel → Bool)
    (response : Response) : Handles r closed response (r.handleResponse closed response).1
      (r.handleResponse closed response).2 := by
  unfold handleResponse
  split
  · next hnone => exact .ignored fun cseq hcseq => by rw [hnone] at hcseq; cases hcseq
  · next cseq hcseq =>
    split
    · next hfree =>
      refine .ignored fun c hc => ?_
      obtain rfl : cseq = c := Option.some.inj (hcseq.symm.trans hc)
      exact hfree
    · next tx htx =>
      by_cases hcontinue : response.statusCode = .standard .«continue»
      · rw [if_pos hcontinue]
        cases hclosed : closed tx with
        | true =>
          rw [send_of_closed hclosed]
          exact .closed hcseq htx hclosed
        | false =>
          rw [send_of_open hclosed]
          exact .continued hcseq htx hcontinue hclosed
      · rw [if_neg hcontinue]
        cases hclosed : closed tx with
        | true =>
          rw [send_of_closed hclosed]
          exact .closed hcseq htx hclosed
        | false =>
          rw [send_of_open hclosed]
          exact .delivered hcseq htx hcontinue hclosed

end ResponseReceiver
end Rtsp
