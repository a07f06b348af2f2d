import Rtsp.Connection.SendRequest
import Rtsp.Request

/-!
# Connection handles

`ConnectionHandle` of `connection/mod.rs`, as far as it sends requests. Its clones
share the flag, the sequence number and the two queues: that of pending request
updates, which leads to the response receiver, and that of messages, which leads
to the sender.

The state is what the clones share, and no more. How many of them there are is not in
it, as nothing that a call does depends on it; the shutdown that the last one brings
about is a matter of `Connection.ShutdownEvents`.

A call leaves its traces in one list, updates and messages in the order in which they
were queued. They go to different receivers, who take them out at their own pace, but
the order in which they went in is what decides whether a reply can be matched, and that
cannot be read off two separate lists.

The conversion of what the user passes in to a `Request` comes first in the code and may
do anything. The request here is what came out of it. Durations are numbers; a timer
that cannot be set is left out (`SendRequest.new`).
-/

namespace Rtsp

variable {URI : Type}

/-- `ConnectionHandle`, without what it shares with its clones. -/
structure ConnectionHandle where
  requestMaxTimeoutDefaultDuration : Option Nat
  requestTimeoutDefaultDuration : Option Nat
  deriving DecidableEq

/-- A message in the queue of the sender. A request comes with the name of its call. -/
inductive QueuedMessage (URI : Type) where
  | request (n : Nat) (request : Request URI)
  | response (response : Response)

/-- What has been put into either queue. -/
inductive Push (URI : Type) where
  | update (u : PendingRequestUpdate)
  | message (m : QueuedMessage URI)

/-- The request among what has been put into the queues, with its call. -/
def Push.request? : Push URI → Option (Nat × Request URI)
  | message (.request n request) => some (n, request)
  | message (.response _) => none
  | update _ => none

/-- What the handles share. -/
structure Shared (URI : Type) where
  allowRequests : Bool
  sequenceNumber : CSeq
  /-- The pending request updates that the response receiver has not handled. -/
  updates : List PendingRequestUpdate
  /-- Whether the receiving half of their queue is there. -/
  updatesOpen : Bool
  senderOpen : Bool
  /-- What has been put into the queues so far, in order. -/
  pushed : List (Push URI)

/-- `request.headers_mut().typed_insert(sequence_number)` -/
def Request.withCSeq (request : Request URI) (c : CSeq) : Request URI :=
  { request with headers := request.headers.typedInsert c }

theorem Request.typedGet_withCSeq (request : Request URI) (c : CSeq) :
    (request.withCSeq c).headers.typedGet CSeq = some c :=
  CSeq.typedGet_typedInsert request.headers c

namespace Shared

/-- `tx_pending_request.unbounded_send` -/
def unboundedSend (s : Shared URI) (u : PendingRequestUpdate) : Option (Shared URI) :=
  if s.updatesOpen then
    some { s with updates := s.updates ++ [u], pushed := s.pushed ++ [.update u] }
  else none

/-- `SenderHandle::try_send_message` -/
def trySendMessage (s : Shared URI) (m : QueuedMessage URI) : Option (Shared URI) :=
  if s.senderOpen then some { s with pushed := s.pushed ++ [.message m] } else none

/-- `let _ = tx_pending_request.unbounded_send(RemovePendingRequest(sequence_number))` -/
def retract (s : Shared URI) (c : CSeq) : Shared URI :=
  (s.unboundedSend (.removePendingRequest c)).getD s

/-- `send_request_with_options`, by a call that nothing comes in between. The request has been
    converted already. -/
def sendRequestWithOptions (s : Shared URI) (n : Nat) (request : Request URI)
    (options : RequestOptions) : Except OperationError SendRequest × Shared URI :=
  if s.allowRequests then
    let sequenceNumber := s.sequenceNumber
    let request := request.withCSeq sequenceNumber
    match s.unboundedSend (.addPendingRequest sequenceNumber ⟨n, 0⟩) with
    -- The response receiver is gone. The number has not been used.
    | none => (.error .closed, s)
    | some s =>
      match s.trySendMessage (.request n request) with
      -- The sender is gone, and the pending request is taken back.
      | none => (.error .closed, s.retract sequenceNumber)
      | some s => (.ok (.new ⟨n, 0⟩ sequenceNumber options),
          { s with sequenceNumber := sequenceNumber.wrappingIncrement })
  else (.error .closed, s)

/-- `send_request` -/
def sendRequest (s : Shared URI) (handle : ConnectionHandle) (n : Nat) (request : Request URI) :
    Except OperationError SendRequest × Shared URI :=
  s.sendRequestWithOptions n request
    ⟨handle.requestMaxTimeoutDefaultDuration, handle.requestTimeoutDefaultDuration⟩

/-- The requests queued so far, with their calls. -/
def requests (s : Shared URI) : List (Nat × Request URI) := s.pushed.filterMap Push.request?

variable {s s' : Shared URI} {u : PendingRequestUpdate} {m : QueuedMessage URI} {c : CSeq}

theorem unboundedSend_eq_some (h : s.unboundedSend u = some s') : s.updatesOpen = true ∧
    s' = { s with updates := s.updates ++ [u], pushed := s.pushed ++ [.update u] } := by
  unfold unboundedSend at h
  split at h
  · next hopen => exact ⟨hopen, (Option.some.inj h).symm⟩
  · cases h

theorem unboundedSend_eq_none (h : s.unboundedSend u = none) : s.updatesOpen = false := by
  unfold unboundedSend at h
  split at h
  · cases h
  · next hclosed => exact Bool.not_eq_true _ ▸ hclosed

theorem trySendMessage_eq_some (h : s.trySendMessage m = some s') :
    s.senderOpen = true ∧ s' = { s with pushed := s.pushed ++ [.message m] } := by
  unfold trySendMessage at h
  split at h
  · next hopen => exact ⟨hopen, (Option.some.inj h).symm⟩
  · cases h

/-- A removal is queued, or nobody would receive it. -/
theorem retract_cases (s : Shared URI) (c : CSeq) :
    s.updatesOpen = true ∧ s.retract c = { s with
        updates := s.updates ++ [.removePendingRequest c]
        pushed := s.pushed ++ [.update (.removePendingRequest c)] } ∨
      s.updatesOpen = false ∧ s.retract c = s := by
  unfold retract
  cases h : s.unboundedSend (.removePendingRequest c) with
  | none => exact .inr ⟨unboundedSend_eq_none h, rfl⟩
  | some s' =>
    obtain ⟨hopen, rfl⟩ := unboundedSend_eq_some h
    exact .inl ⟨hopen, rfl⟩

theorem pushed_retract (s : Shared URI) (c : CSeq) :
    (s.retract c).pushed = s.pushed ++ [.update (.removePendingRequest c)] ∨
      (s.retract c).pushed = s.pushed := by
  rcases s.retract_cases c with ⟨-, h⟩ | ⟨-, h⟩
  · exact .inl (congrArg pushed h)
  · exact .inr (congrArg pushed h)

theorem requests_push {p : Push URI} (h : s'.pushed = s.pushed ++ [p]) :
    s'.requests = s.requests ++ p.request?.toList := by
  rw [requests, h, List.filterMap_append, List.filterMap_cons, List.filterMap_nil]
  cases p.request? <;> rfl

theorem requests_unboundedSend (h : s.unboundedSend u = some s') :
    s'.requests = s.requests := by
  obtain ⟨-, rfl⟩ := unboundedSend_eq_some h
  exact (requests_push rfl).trans (List.append_nil _)

theorem requests_trySendMessage (h : s.trySendMessage m = some s') :
    s'.requests = s.requests ++ (Push.message m).request?.toList := by
  obtain ⟨-, rfl⟩ := trySendMessage_eq_some h
  exact requests_push rfl

theorem requests_retract (s : Shared URI) (c : CSeq) : (s.retract c).requests = s.requests := by
  rcases s.pushed_retract c with h | h
  · exact (requests_push h).trans (List.append_nil _)
  · exact congrArg (List.filterMap Push.request?) h

theorem sequenceNumber_unboundedSend (h : s.unboundedSend u = some s') :
    s'.sequenceNumber = s.sequenceNumber := by
  obtain ⟨-, rfl⟩ := unboundedSend_eq_some h
  rfl

theorem sequenceNumber_trySendMessage (h : s.trySendMessage m = some s') :
    s'.sequenceNumber = s.sequenceNumber := by
  obtain ⟨-, rfl⟩ := trySendMessage_eq_some h
  rfl

theorem sequenceNumber_retract (s : Shared URI) (c : CSeq) :
    (s.retract c).sequenceNumber = s.sequenceNumber := by
  rcases s.retract_cases c with ⟨-, h⟩ | ⟨-, h⟩ <;> rw [h]

theorem allowRequests_unboundedSend (h : s.unboundedSend u = some s') :
    s'.allowRequests = s.allowRequests := by
  obtain ⟨-, rfl⟩ := unboundedSend_eq_some h
  rfl

theorem allowRequests_trySendMessage (h : s.trySendMessage m = some s') :
    s'.allowRequests = s.allowRequests := by
  obtain ⟨-, rfl⟩ := trySendMessage_eq_some h
  rfl

theorem allowRequests_retract (s : Shared URI) (c : CSeq) :
    (s.retract c).allowRequests = s.allowRequests := by
  rcases s.retract_cases c with ⟨-, h⟩ | ⟨-, h⟩ <;> rw [h]

/-- **A call that finds the flag taken down is turned away**, whichever handle it is made on. -/
theorem sendRequestWithOptions_disallowed (h : s.allowRequests = false) (n : Nat)
    (request : Request URI) (options : RequestOptions) :
    s.sendRequestWithOptions n request options = (.error .closed, s) := by
  rw [sendRequestWithOptions, h, if_neg Bool.false_ne_true]

end Shared
end Rtsp
