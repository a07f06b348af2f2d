import Rtsp.Connection.Async
import Rtsp.Header.Types
import Rtsp.Lib.Keyed
import Rtsp.Request

/-!
# The forwarding receiver

`ForwardingReceiver` of `connection/receiver.rs`. Requests are buffered under
their `CSeq` and sent to the request handler in the order of these numbers, from
the number of the first request on. The sends of one poll are described by
`Forwards`, and what the poll returns by `poll_cases`; nothing else unfolds the
loop.

The buffer is an association list without duplicate keys, where the code has a
`HashMap`. The code never iterates over it, so the order of the entries is of no
consequence.

The sequence numbers are subtracted as the code subtracts them, by the operator of
`CSeq`, which is off by one when it wraps (see `Connection.Arithmetic`). Nothing is
corrected here: the test for numbers too far ahead uses the operator, and so does the
model. It also compares with the buffer's size cast to 32 bits, and the cast is in the
model as well.

The channel to the handler is not part of the state. A poll is given its answers, one
for each send that is tried, and a poll that has run out of answers has tried no more;
an answer that is not there counts as `NotReady`.
-/

namespace Rtsp

/-- `RequestReceiverError` -/
inductive RequestReceiverError where
  | badRequest
  | cseqDifferenceTooLarge
  deriving DecidableEq

/-- The requests that wait for their turn: a map with one request for each `CSeq`. -/
abbrev BufferedRequests (URI : Type) := AList fun _ : CSeq => Request URI

/-- What is sent to the handler. -/
abbrev Forwarded (URI : Type) := List (CSeq × Request URI)

/-- `ForwardingReceiver`, but for the channel to the handler: what that answers comes with
    each poll. -/
structure ForwardingReceiver (URI : Type) where
  bufferedRequests : BufferedRequests URI
  incomingSequenceNumber : Option CSeq
  requestBufferSize : Nat

namespace ForwardingReceiver

variable {URI : Type}

def new (requestBufferSize : Nat) : ForwardingReceiver URI where
  bufferedRequests := ∅
  incomingSequenceNumber := none
  requestBufferSize := requestBufferSize

def isFull (f : ForwardingReceiver URI) : Bool :=
  f.requestBufferSize ≤ f.bufferedRequests.entries.length

def hasRequestsReady (f : ForwardingReceiver URI) : Bool :=
  match f.incomingSequenceNumber with
  | some incomingSequenceNumber => (f.bufferedRequests.lookup incomingSequenceNumber).isSome
  | none => false

def incomingSequenceNumberOrDefault (f : ForwardingReceiver URI) (cseq : CSeq) :
    CSeq × ForwardingReceiver URI :=
  match f.incomingSequenceNumber with
  | some incomingSequenceNumber => (incomingSequenceNumber, f)
  | none => (cseq, { f with incomingSequenceNumber := some cseq })

/-- `handle_request`. The buffer size is cast to `u32` for the comparison. -/
def handleRequest (f : ForwardingReceiver URI) (request : Request URI) :
    Except RequestReceiverError Unit × ForwardingReceiver URI :=
  match request.headers.typedGet CSeq with
  | some cseq =>
    let (incomingSequenceNumber, f) := f.incomingSequenceNumberOrDefault cseq
    if f.requestBufferSize % 2 ^ 32 < (cseq.sub incomingSequenceNumber).val then
      (.error .cseqDifferenceTooLarge, f)
    else
      match f.bufferedRequests.lookup cseq with
      | some _ => (.error .badRequest, f)
      | none => (.ok (), { f with bufferedRequests := f.bufferedRequests.insert cseq request })
  | none => (.error .badRequest, f)

/-- What a request adds to the requests taken in, from the result of handling it. -/
def takenIn (request : Request URI) (result : Except RequestReceiverError Unit) : Forwarded URI :=
  match result, request.headers.typedGet CSeq with
  | .ok (), some cseq => [(cseq, request)]
  | _, _ => []

@[simp] theorem takenIn_error (request : Request URI) (e : RequestReceiverError) :
    takenIn request (.error e) = [] := rfl

theorem takenIn_ok {request : Request URI} {cseq : CSeq}
    (h : request.headers.typedGet CSeq = some cseq) :
    takenIn request (.ok ()) = [(cseq, request)] := by
  unfold takenIn
  rw [h]

/-- `buffered_requests.remove(..)` -/
def remove (f : ForwardingReceiver URI) (cseq : CSeq) : ForwardingReceiver URI :=
  { f with bufferedRequests := f.bufferedRequests.erase cseq }

/-- A request that the channel had no room for is put back, and the number stored. -/
def putBack (f : ForwardingReceiver URI) (cseq : CSeq) (request : Request URI) :
    ForwardingReceiver URI :=
  { f with
    bufferedRequests := f.bufferedRequests.insert cseq request
    incomingSequenceNumber := some cseq }

/-- The loop of `poll`, with what the channel answers to its sends (no room behind the
    end). Returns the result, the receiver and the requests sent. The number is stored
    when the loop ends, but not when the channel is closed. -/
def forward (f : ForwardingReceiver URI) (incomingSequenceNumber : CSeq) :
    List SendAnswer → Poll Unit Unit × ForwardingReceiver URI × Forwarded URI
  | [] =>
    match f.bufferedRequests.lookup incomingSequenceNumber with
    | none =>
      (.ok (.ready ()), { f with incomingSequenceNumber := some incomingSequenceNumber }, [])
    | some request =>
      (.ok .notReady, (f.remove incomingSequenceNumber).putBack incomingSequenceNumber request, [])
  | answer :: answers =>
    match f.bufferedRequests.lookup incomingSequenceNumber with
    | none =>
      (.ok (.ready ()), { f with incomingSequenceNumber := some incomingSequenceNumber }, [])
    | some request =>
      let f := f.remove incomingSequenceNumber
      match answer with
      | .ready =>
        let (result, f, sent) := f.forward incomingSequenceNumber.wrappingIncrement answers
        (result, f, (incomingSequenceNumber, request) :: sent)
      | .notReady => (.ok .notReady, f.putBack incomingSequenceNumber request, [])
      | .closed => (.error (), f, [])

/-- `ForwardingReceiver::poll` -/
def poll (f : ForwardingReceiver URI) (answers : List SendAnswer) :
    Poll Unit Unit × ForwardingReceiver URI × Forwarded URI :=
  match f.incomingSequenceNumber with
  | some incomingSequenceNumber => f.forward incomingSequenceNumber answers
  | none => (.ok (.ready ()), f, [])

/-! ## What handling a request does -/

/-- The number expected once a request with this `CSeq` has been looked at. -/
def expecting (f : ForwardingReceiver URI) (cseq : CSeq) : ForwardingReceiver URI :=
  { f with incomingSequenceNumber := some (f.incomingSequenceNumber.getD cseq) }

theorem incomingSequenceNumberOrDefault_eq (f : ForwardingReceiver URI) (cseq : CSeq) :
    f.incomingSequenceNumberOrDefault cseq =
      (f.incomingSequenceNumber.getD cseq, f.expecting cseq) := by
  obtain ⟨buffered, incoming, size⟩ := f
  cases incoming <;> rfl

/-- How a request is handled. -/
inductive Handles (f : ForwardingReceiver URI) (request : Request URI) :
    Except RequestReceiverError Unit → ForwardingReceiver URI → Prop where
  | noCSeq : request.headers.typedGet CSeq = none → Handles f request (.error .badRequest) f
  | tooFar {cseq} : request.headers.typedGet CSeq = some cseq →
      f.requestBufferSize % 2 ^ 32 < (cseq.sub (f.incomingSequenceNumber.getD cseq)).val →
      Handles f request (.error .cseqDifferenceTooLarge) (f.expecting cseq)
  | occupied {cseq other} : request.headers.typedGet CSeq = some cseq →
      f.bufferedRequests.lookup cseq = some other →
      Handles f request (.error .badRequest) (f.expecting cseq)
  | accepted {cseq} : request.headers.typedGet CSeq = some cseq →
      (cseq.sub (f.incomingSequenceNumber.getD cseq)).val ≤ f.requestBufferSize % 2 ^ 32 →
      f.bufferedRequests.lookup cseq = none →
      Handles f request (.ok ())
        { f.expecting cseq with bufferedRequests := f.bufferedRequests.insert cseq request }

theorem handleRequest_cases (f : ForwardingReceiver URI) (request : Request URI) :
    Handles f request (f.handleRequest request).1 (f.handleRequest request).2 := by
  unfold handleRequest
  split
  · next cseq hcseq =>
    rw [incomingSequenceNumberOrDefault_eq]
    dsimp only
    split
    · next hfar => exact .tooFar hcseq hfar
    · next hnear =>
      split
      · next other hother => exact .occupied hcseq hother
      · next hfree => exact .accepted hcseq (Nat.not_lt.mp hnear) hfree
  · next hcseq => exact .noCSeq hcseq

/-! ## What a poll does -/

/-- The sends of one poll: the requests taken out one after the other, from the number
    `n` up to the number `n'`. -/
inductive Forwards : ForwardingReceiver URI → CSeq → Forwarded URI → ForwardingReceiver URI →
    CSeq → Prop where
  | done {f n} : Forwards f n [] f n
  | send {f n request sent f' n'} : f.bufferedRequests.lookup n = some request →
      Forwards (f.remove n) n.wrappingIncrement sent f' n' →
      Forwards f n ((n, request) :: sent) f' n'

/-- How a poll ends, once its sends have led to `f` and the number `n`. -/
inductive Ends (f : ForwardingReceiver URI) (n : CSeq) :
    Poll Unit Unit → ForwardingReceiver URI → Prop where
  /-- The next request is not there. -/
  | ready : f.bufferedRequests.lookup n = none →
      Ends f n (.ok (.ready ())) { f with incomingSequenceNumber := some n }
  /-- There is no room for the next request. -/
  | notReady {request} : f.bufferedRequests.lookup n = some request →
      Ends f n (.ok .notReady) ((f.remove n).putBack n request)
  /-- The handler is gone, and the next request with it. -/
  | closed {request} : f.bufferedRequests.lookup n = some request →
      Ends f n (.error ()) (f.remove n)

theorem forward_cases (f : ForwardingReceiver URI) (n : CSeq) (answers : List SendAnswer) :
    ∃ f₁ n₁, Forwards f n (f.forward n answers).2.2 f₁ n₁ ∧
      Ends f₁ n₁ (f.forward n answers).1 (f.forward n answers).2.1 := by
  induction answers generalizing f n with
  | nil =>
    rw [forward]
    split
    · next h => exact ⟨f, n, .done, .ready h⟩
    · next request h => exact ⟨f, n, .done, .notReady h⟩
  | cons answer answers ih =>
    rw [forward]
    split
    · next h => exact ⟨f, n, .done, .ready h⟩
    · next request h =>
      cases answer with
      | ready =>
        obtain ⟨f₁, n₁, hforwards, hends⟩ := ih (f.remove n) n.wrappingIncrement
        exact ⟨f₁, n₁, .send h hforwards, hends⟩
      | notReady => exact ⟨f, n, .done, .notReady h⟩
      | closed => exact ⟨f, n, .done, .closed h⟩

/-- **What a poll does**: nothing before the first request; then it sends a run of
    requests and stops for one of three reasons. -/
theorem poll_cases (f : ForwardingReceiver URI) (answers : List SendAnswer) :
    (f.incomingSequenceNumber = none ∧ f.poll answers = (.ok (.ready ()), f, [])) ∨
      ∃ n f₁ n₁, f.incomingSequenceNumber = some n ∧
        Forwards f n (f.poll answers).2.2 f₁ n₁ ∧
        Ends f₁ n₁ (f.poll answers).1 (f.poll answers).2.1 := by
  cases hn : f.incomingSequenceNumber with
  | none => exact .inl ⟨rfl, by rw [poll, hn]⟩
  | some n =>
    have hpoll : f.poll answers = f.forward n answers := by rw [poll, hn]
    obtain ⟨f₁, n₁, hforwards, hends⟩ := f.forward_cases n answers
    exact .inr ⟨n, f₁, n₁, rfl, hpoll ▸ hforwards, hpoll ▸ hends⟩

end ForwardingReceiver
end Rtsp
