import Rtsp.Connection.SendRequest
import Rtsp.Lib.Trans

/-!
# Requests and their replies

The tasks that a request sent through a handle and the reply to it pass through:
the calls of `send_request_with_options` (`connection/mod.rs`), the futures they
return, and the response receiver in the connection's task. They share the queue
of pending request updates, the sequence number under its lock, the channel to
the sender, and the oneshot channels of the requests.

A step is what one task does between two accesses to what is shared, so a run is
any interleaving of the tasks. What the network and the timers do is up to the
run as well.

What happens on the other tasks can fall between any two steps of a task here. So the
steps are cut where it matters: a call reads the number and queues the pending request,
and then the message, with the lock held; a future looks at its channel, and later at
its timers; it queues the removal, and then closes its channel; the receiver, when it is
dropped, works off the queue, tells those who are waiting, and then closes the queue.
Two of the defects sit in gaps of this kind, and would not be there if a step were a
whole function.

The response receiver takes updates at the start of its poll, and again when it is
dropped; the responses come in between, and the phases keep to that. Messages may be
written whenever the connection's task is not inside its receiver.

Futures are kept by the number of their call, and so are channels, with the number of
Continues that led to them. A future that is dropped leaves its number behind, so that
no name is used twice. The lists of calls, of messages and of what has been returned are
for the results; a step asks at most how long they are.

`exec` is the same relation as a function, for runs on fixed inputs. Steps are stated by
the relation, and it is the relation that the results are about.
-/

namespace Rtsp

open Lib

/-- Where the task of a `SendRequest` is. A future that has returned is not polled again. -/
inductive Stage where
  /-- It is neither being polled nor being dropped. -/
  | waiting
  /-- In `poll`, once `poll_request` was not ready. -/
  | timers
  /-- In `cancel_request`, before the removal is queued. The error is what `poll` is going to
      return; there is none when the future is being dropped. -/
  | cancelling (error : Option OperationError)
  /-- In `cancel_request`, before the channel is closed. -/
  | closing (error : Option OperationError)
  | returned
  | panicked
  | dropped
  deriving DecidableEq

/-- A future that is not in the middle of a poll can be dropped. -/
def Stage.isDroppable : Stage → Bool
  | waiting | returned | panicked => true
  | timers | cancelling _ | closing _ | dropped => false

/-- Where the connection's task is with its response receiver. -/
inductive Phase where
  /-- Outside of the receiver. Messages may be written. -/
  | idle
  /-- In `ResponseReceiver::poll`. -/
  | draining
  /-- In the rest of `Receiver::poll`, where messages are read. -/
  | reading
  /-- In `Drop`, where the remaining updates are handled. -/
  | dropping
  /-- In `remove_pending_requests`. -/
  | cancelling
  /-- The queue of updates has been closed. What is left in it is dropped. -/
  | closed
  deriving DecidableEq

/-- The phases in which updates are handled, or will be. -/
def Phase.handlesUpdates : Phase → Bool
  | idle | draining | reading | dropping => true
  | cancelling | closed => false

/-- A call of `send_request_with_options` that holds the lock and has queued the pending
    request. Calls that were turned away before have done nothing. -/
structure Call where
  /-- The request is named after the call, by the number of calls before it. -/
  request : Nat
  sequenceNumber : CSeq
  options : RequestOptions
  /-- The message could not be queued. -/
  failed : Bool
  deriving DecidableEq

structure Exchange where
  /-- How many handles there are. -/
  handles : Nat
  sequenceNumber : CSeq
  call : Option Call
  /-- The numbers of the calls so far. -/
  numbers : List CSeq
  /-- The requests whose messages have been queued, and how many were written. -/
  sent : List Nat
  written : Nat
  /-- Whether the sender takes messages. -/
  senderOpen : Bool
  requests : Nat → Option (SendRequest × Stage)
  /-- What the futures have returned. -/
  results : List (Nat × Except OperationError Response)
  updates : List PendingRequestUpdate
  receiver : ResponseReceiver
  phase : Phase
  channels : Channels

namespace Exchange

/-- A new connection with one handle, and a random number to start with. -/
def start (first : CSeq) : Exchange where
  handles := 1
  sequenceNumber := first
  call := none
  numbers := []
  sent := []
  written := 0
  senderOpen := true
  requests _ := none
  results := []
  updates := []
  receiver := .new
  phase := .idle
  channels _ := .new

/-- `unbounded_send`: once the receiving half has been closed, it fails. -/
def unboundedSend (s : Exchange) (update : PendingRequestUpdate) : Exchange :=
  if s.phase = .closed then s else { s with updates := s.updates ++ [update] }

theorem unboundedSend_eq (s : Exchange) (update : PendingRequestUpdate) :
    s.unboundedSend update =
      { s with
        updates := if s.phase = .closed then s.updates else s.updates ++ [update] } := by
  unfold unboundedSend
  split
  · rfl
  · rfl

def putRequest (s : Exchange) (n : Nat) (r : SendRequest) (stage : Stage) : Exchange :=
  { s with requests := Function.update s.requests n (some (r, stage)) }

/-- Whether a future is still there. -/
def isAlive (s : Exchange) (n : Nat) : Bool :=
  match s.requests n with
  | some (_, stage) => stage ≠ .dropped
  | none => false

/-- Every half of the queue that could still send is gone: the handles' and the futures'. -/
def sendersGone (s : Exchange) : Bool :=
  s.handles = 0 ∧ (List.range s.numbers.length).all fun n => !s.isAlive n

/-! ## The calls -/

/-- The sequence number is read, and the pending request queued. -/
def addPendingRequest (s : Exchange) (options : RequestOptions) : Exchange :=
  { s with
    call := some ⟨s.numbers.length, s.sequenceNumber, options, false⟩
    numbers := s.numbers ++ [s.sequenceNumber]
    updates := s.updates ++
      [.addPendingRequest s.sequenceNumber ⟨s.numbers.length, 0⟩] }

/-- The message is queued, the number incremented, and the future returned. -/
def queueMessage (s : Exchange) (call : Call) : Exchange :=
  { s.putRequest call.request (.new ⟨call.request, 0⟩ call.sequenceNumber call.options)
      .waiting with
    call := none
    sequenceNumber := call.sequenceNumber.wrappingIncrement
    sent := s.sent ++ [call.request] }

/-- The removal of a request whose message was not queued. The call returns an error. -/
def retract (s : Exchange) (call : Call) : Exchange :=
  { s.unboundedSend (.removePendingRequest call.sequenceNumber) with
    call := none
    channels := s.channels.dropReceiver ⟨call.request, 0⟩ }

/-! ## The response receiver -/

/-- The first update in the queue is handled. What it takes out of the map is dropped. -/
def handleUpdate (s : Exchange) (update : PendingRequestUpdate)
    (updates : List PendingRequestUpdate) : Exchange :=
  { s with
    updates
    receiver := s.receiver.handlePendingRequestUpdate update
    channels := match s.receiver.pendingRequests.lookup update.cseq with
      | some tx => s.channels.close tx
      | none => s.channels }

/-- Whether the receiving half of a channel is gone when something is sent. -/
def isClosed (s : Exchange) (c : ReplyChannel) : Bool := (s.channels c).complete

def respond (s : Exchange) (response : Response) : Exchange :=
  { s with
    receiver := (s.receiver.handleResponse s.isClosed response).1
    channels := s.channels.deliver (s.receiver.handleResponse s.isClosed response).2 }

/-- One entry of `remove_pending_requests`. -/
def cancelEntry (s : Exchange) (cseq : CSeq) (tx : ReplyChannel) : Exchange :=
  { s with
    receiver := { s.receiver with pendingRequests := s.receiver.pendingRequests.erase cseq }
    channels := s.channels.deliver (ResponseReceiver.send s.isClosed tx .none) }

/-- An update is dropped. -/
def discard (s : Exchange) (update : PendingRequestUpdate)
    (updates : List PendingRequestUpdate) : Exchange :=
  { s with
    updates
    channels := match update with
      | .addPendingRequest _ tx => s.channels.close tx
      | .removePendingRequest _ => s.channels }

/-! ## The futures -/

/-- A future has returned. -/
def finish (s : Exchange) (n : Nat) (r : SendRequest)
    (result : Except OperationError Response) : Exchange :=
  { s.putRequest n r .returned with results := s.results ++ [(n, result)] }

/-- What `poll_request` leads to. -/
def looked (s : Exchange) (n : Nat) :
    Rust (Poll Response OperationError × SendRequest × Channels) → SendRequest → Exchange
  | .error _, r => s.putRequest n r .panicked
  | .ok (.ok .notReady, r, channels), _ => { s with channels }.putRequest n r .timers
  | .ok (.ok (.ready response), r, channels), _ => { s with channels }.finish n r (.ok response)
  | .ok (.error error, r, channels), _ => { s with channels }.finish n r (.error error)

/-- The stage the timers lead to. -/
def timed : Rust (Except OperationError Unit) → Stage
  | .error _ => .panicked
  | .ok (.ok ()) => .waiting
  | .ok (.error error) => .cancelling (some error)

/-- The channel of a cancelled request is closed, and the future returns or is gone. -/
def closeReceiver (s : Exchange) (n : Nat) (r : SendRequest) : Option OperationError → Exchange
  | some error => { s with channels := s.channels.close r.rxResponse }.finish n r (.error error)
  | none =>
    { s with channels := s.channels.dropReceiver r.rxResponse }.putRequest n r .dropped

/-- `Drop for SendRequest`, as far as it looks at the channel. -/
def drop (s : Exchange) (n : Nat) (r : SendRequest) : Exchange :=
  let (cancelled, channels) := r.pollIsCancelled s.channels
  if cancelled then
    { s with channels := channels.dropReceiver r.rxResponse }.putRequest n r .dropped
  else { s with channels }.putRequest n r (.cancelling none)

/-! ## The steps -/

inductive Op where
  | cloneHandle
  | dropHandle
  | addPendingRequest (options : RequestOptions)
  | queueMessage
  | messageFails
  | retract
  | write
  | closeSender
  | startPoll
  | handleUpdate
  | drained
  | ended
  | respond (response : Response)
  | finishPoll
  | startDrop
  | cancelEntry (cseq : CSeq)
  | closeQueue
  | discard
  | poll (n : Nat)
  | pollTimers (n : Nat) (maxTimer timer : DelayAnswer)
  | queueRemoval (n : Nat)
  | closeReceiver (n : Nat)
  | drop (n : Nat)

inductive Step : Exchange → Op → Exchange → Prop where
  | cloneHandle {s} : 0 < s.handles → Step s .cloneHandle { s with handles := s.handles + 1 }
  /-- The handle that is in a call is not dropped. -/
  | dropHandle {s} : s.call.toList.length < s.handles →
      Step s .dropHandle { s with handles := s.handles - 1 }
  /-- The lock is free. If the queue has been closed, the call returns an error. -/
  | addPendingRequest {s} (options : RequestOptions) : s.call = none → 0 < s.handles →
      Step s (.addPendingRequest options)
        (if s.phase = .closed then s else s.addPendingRequest options)
  | queueMessage {s call} : s.call = some call → call.failed = false → s.senderOpen = true →
      Step s .queueMessage (s.queueMessage call)
  | messageFails {s call} : s.call = some call → call.failed = false → s.senderOpen = false →
      Step s .messageFails { s with call := some { call with failed := true } }
  | retract {s call} : s.call = some call → call.failed = true →
      Step s .retract (s.retract call)
  /-- The connection's task writes messages when it is not in the receiver. -/
  | write {s} : s.senderOpen = true → s.phase = .idle ∨ s.phase = .closed →
      s.written < s.sent.length → Step s .write { s with written := s.written + 1 }
  | closeSender {s} : Step s .closeSender { s with senderOpen := false }
  | startPoll {s} : s.phase = .idle → Step s .startPoll { s with phase := .draining }
  | handleUpdate {s update updates} : s.phase = .draining ∨ s.phase = .dropping →
      s.updates = update :: updates → Step s .handleUpdate (s.handleUpdate update updates)
  /-- No update is left. -/
  | drained {s} : s.updates = [] →
      (s.phase = .draining ∧ s.sendersGone = false ∨ s.phase = .dropping) →
      Step s .drained
        { s with phase := if s.phase = .draining then .reading else .cancelling }
  /-- The queue has ended, and the response receiver is dropped. -/
  | ended {s} : s.updates = [] → s.phase = .draining → s.sendersGone = true →
      Step s .ended { s with phase := .dropping, receiver := { s.receiver with isDone := true } }
  | respond {s} (response : Response) : s.phase = .reading →
      Step s (.respond response) (s.respond response)
  | finishPoll {s} : s.phase = .reading → Step s .finishPoll { s with phase := .idle }
  | startDrop {s} : s.phase = .idle ∨ s.phase = .reading →
      Step s .startDrop { s with phase := .dropping }
  | cancelEntry {s cseq tx} : s.phase = .cancelling →
      s.receiver.pendingRequests.lookup cseq = some tx →
      Step s (.cancelEntry cseq) (s.cancelEntry cseq tx)
  | closeQueue {s} : s.phase = .cancelling → s.receiver.pendingRequests.keys = [] →
      Step s .closeQueue { s with phase := .closed }
  | discard {s update updates} : s.phase = .closed → s.updates = update :: updates →
      Step s .discard (s.discard update updates)
  | poll {s n r} : s.requests n = some (r, .waiting) →
      Step s (.poll n) (s.looked n (r.pollRequest s.channels) r)
  | pollTimers {s n r} (maxTimer timer : DelayAnswer) : s.requests n = some (r, .timers) →
      Step s (.pollTimers n maxTimer timer)
        (s.putRequest n r (timed (r.pollTimers maxTimer timer)))
  | queueRemoval {s n r error} : s.requests n = some (r, .cancelling error) →
      Step s (.queueRemoval n)
        ((s.unboundedSend (.removePendingRequest r.sequenceNumber)).putRequest n r
          (.closing error))
  | closeReceiver {s n r error} : s.requests n = some (r, .closing error) →
      Step s (.closeReceiver n) (s.closeReceiver n r error)
  | drop {s n r stage} : s.requests n = some (r, stage) → stage.isDroppable = true →
      Step s (.drop n) (s.drop n r)

/-! ## The steps, computed -/

def whenever (p : Prop) [Decidable p] (s : Exchange) : Option Exchange := if p then some s else none

theorem whenever_eq_some {p : Prop} [Decidable p] {s s' : Exchange} (h : whenever p s = some s') :
    p ∧ s = s' := by
  unfold whenever at h
  split at h
  · next hp => exact ⟨hp, Option.some.inj h⟩
  · cases h

/-- What a step leads to, if it can be taken. -/
def exec (s : Exchange) : Op → Option Exchange
  | .cloneHandle => whenever (0 < s.handles) { s with handles := s.handles + 1 }
  | .dropHandle =>
    whenever (s.call.toList.length < s.handles) { s with handles := s.handles - 1 }
  | .addPendingRequest options =>
    whenever (s.call = none ∧ 0 < s.handles)
      (if s.phase = .closed then s else s.addPendingRequest options)
  | .queueMessage => s.call.bind fun call =>
    whenever (call.failed = false ∧ s.senderOpen = true) (s.queueMessage call)
  | .messageFails => s.call.bind fun call =>
    whenever (call.failed = false ∧ s.senderOpen = false)
      { s with call := some { call with failed := true } }
  | .retract => s.call.bind fun call => whenever (call.failed = true) (s.retract call)
  | .write =>
    whenever (s.senderOpen = true ∧ (s.phase = .idle ∨ s.phase = .closed) ∧
      s.written < s.sent.length) { s with written := s.written + 1 }
  | .closeSender => some { s with senderOpen := false }
  | .startPoll => whenever (s.phase = .idle) { s with phase := .draining }
  | .handleUpdate =>
    match s.updates with
    | update :: updates =>
      whenever (s.phase = .draining ∨ s.phase = .dropping) (s.handleUpdate update updates)
    | [] => none
  | .drained =>
    whenever (s.updates = [] ∧
        (s.phase = .draining ∧ s.sendersGone = false ∨ s.phase = .dropping))
      { s with phase := if s.phase = .draining then .reading else .cancelling }
  | .ended =>
    whenever (s.updates = [] ∧ s.phase = .draining ∧ s.sendersGone = true)
      { s with phase := .dropping, receiver := { s.receiver with isDone := true } }
  | .respond response => whenever (s.phase = .reading) (s.respond response)
  | .finishPoll => whenever (s.phase = .reading) { s with phase := .idle }
  | .startDrop => whenever (s.phase = .idle ∨ s.phase = .reading) { s with phase := .dropping }
  | .cancelEntry cseq => (s.receiver.pendingRequests.lookup cseq).bind fun tx =>
    whenever (s.phase = .cancelling) (s.cancelEntry cseq tx)
  | .closeQueue =>
    whenever (s.phase = .cancelling ∧ s.receiver.pendingRequests.keys = [])
      { s with phase := .closed }
  | .discard =>
    match s.updates with
    | update :: updates => whenever (s.phase = .closed) (s.discard update updates)
    | [] => none
  | .poll n => (s.requests n).bind fun e =>
    whenever (e.2 = .waiting) (s.looked n (e.1.pollRequest s.channels) e.1)
  | .pollTimers n maxTimer timer => (s.requests n).bind fun e =>
    whenever (e.2 = .timers) (s.putRequest n e.1 (timed (e.1.pollTimers maxTimer timer)))
  | .queueRemoval n =>
    match s.requests n with
    | some (r, .cancelling error) =>
      some ((s.unboundedSend (.removePendingRequest r.sequenceNumber)).putRequest n r
        (.closing error))
    | _ => none
  | .closeReceiver n =>
    match s.requests n with
    | some (r, .closing error) => some (s.closeReceiver n r error)
    | _ => none
  | .drop n => (s.requests n).bind fun e => whenever (e.2.isDroppable = true) (s.drop n e.1)

/-- What is computed is a step. -/
theorem step_of_exec {s s' : Exchange} {op : Op} (h : s.exec op = some s') : Step s op s' := by
  cases op with
  | cloneHandle =>
    obtain ⟨hhandles, rfl⟩ := whenever_eq_some h
    exact .cloneHandle hhandles
  | dropHandle =>
    obtain ⟨hheld, rfl⟩ := whenever_eq_some h
    exact .dropHandle hheld
  | addPendingRequest options =>
    obtain ⟨⟨hlock, hhandles⟩, rfl⟩ := whenever_eq_some h
    exact .addPendingRequest options hlock hhandles
  | queueMessage =>
    obtain ⟨call, hcall, h⟩ := Option.bind_eq_some_iff.mp h
    obtain ⟨⟨hfailed, hopen⟩, rfl⟩ := whenever_eq_some h
    exact .queueMessage hcall hfailed hopen
  | messageFails =>
    obtain ⟨call, hcall, h⟩ := Option.bind_eq_some_iff.mp h
    obtain ⟨⟨hfailed, hopen⟩, rfl⟩ := whenever_eq_some h
    exact .messageFails hcall hfailed hopen
  | retract =>
    obtain ⟨call, hcall, h⟩ := Option.bind_eq_some_iff.mp h
    obtain ⟨hfailed, rfl⟩ := whenever_eq_some h
    exact .retract hcall hfailed
  | write =>
    obtain ⟨⟨hopen, hphase, hlt⟩, rfl⟩ := whenever_eq_some h
    exact .write hopen hphase hlt
  | closeSender =>
    cases h
    exact .closeSender
  | startPoll =>
    obtain ⟨hphase, rfl⟩ := whenever_eq_some h
    exact .startPoll hphase
  | handleUpdate =>
    rw [exec] at h
    split at h
    · next hu =>
      obtain ⟨hphase, rfl⟩ := whenever_eq_some h
      exact .handleUpdate hphase hu
    · cases h
  | drained =>
    obtain ⟨⟨hu, hphase⟩, rfl⟩ := whenever_eq_some h
    exact .drained hu hphase
  | ended =>
    obtain ⟨⟨hu, hphase, hgone⟩, rfl⟩ := whenever_eq_some h
    exact .ended hu hphase hgone
  | respond response =>
    obtain ⟨hphase, rfl⟩ := whenever_eq_some h
    exact .respond response hphase
  | finishPoll =>
    obtain ⟨hphase, rfl⟩ := whenever_eq_some h
    exact .finishPoll hphase
  | startDrop =>
    obtain ⟨hphase, rfl⟩ := whenever_eq_some h
    exact .startDrop hphase
  | cancelEntry cseq =>
    obtain ⟨tx, htx, h⟩ := Option.bind_eq_some_iff.mp h
    obtain ⟨hphase, rfl⟩ := whenever_eq_some h
    exact .cancelEntry hphase htx
  | closeQueue =>
    obtain ⟨⟨hphase, hempty⟩, rfl⟩ := whenever_eq_some h
    exact .closeQueue hphase hempty
  | discard =>
    rw [exec] at h
    split at h
    · next hu =>
      obtain ⟨hphase, rfl⟩ := whenever_eq_some h
      exact .discard hphase hu
    · cases h
  | poll n =>
    obtain ⟨⟨r, stage⟩, hr, h⟩ := Option.bind_eq_some_iff.mp h
    obtain ⟨rfl, rfl⟩ := whenever_eq_some h
    exact .poll hr
  | pollTimers n maxTimer timer =>
    obtain ⟨⟨r, stage⟩, hr, h⟩ := Option.bind_eq_some_iff.mp h
    obtain ⟨rfl, rfl⟩ := whenever_eq_some h
    exact .pollTimers maxTimer timer hr
  | queueRemoval n =>
    rw [exec] at h
    split at h
    · next hr =>
      cases h
      exact .queueRemoval hr
    · cases h
  | closeReceiver n =>
    rw [exec] at h
    split at h
    · next hr =>
      cases h
      exact .closeReceiver hr
    · cases h
  | drop n =>
    obtain ⟨⟨r, stage⟩, hr, h⟩ := Option.bind_eq_some_iff.mp h
    obtain ⟨hstage, rfl⟩ := whenever_eq_some h
    exact .drop hr hstage

/-- A request without timeouts. -/
def noTimeouts : RequestOptions := ⟨none, none⟩

/-- A response to a request with this number. -/
def responseTo (c : CSeq) (status : StandardStatus) : Response :=
  { Response.ofStatus status with headers := HeaderMap.empty.typedInsert c }

/-! ## What a future leaves alone -/

/-- What the other tasks use: nothing of it is changed by a future that looks at its channel,
    closes it or returns. -/
structure Shared (s s' : Exchange) : Prop where
  receiver : s'.receiver = s.receiver
  updates : s'.updates = s.updates
  phase : s'.phase = s.phase
  call : s'.call = s.call
  sequenceNumber : s'.sequenceNumber = s.sequenceNumber
  numbers : s'.numbers = s.numbers
  sent : s'.sent = s.sent
  written : s'.written = s.written
  senderOpen : s'.senderOpen = s.senderOpen

theorem shared_looked (s : Exchange) (n : Nat)
    (result : Rust (Poll Response OperationError × SendRequest × Channels)) (r : SendRequest) :
    Shared s (s.looked n result r) := by
  rcases result with _ | ⟨_ | _ | _, _, _⟩
  all_goals exact ⟨rfl, rfl, rfl, rfl, rfl, rfl, rfl, rfl, rfl⟩

theorem shared_closeReceiver (s : Exchange) (n : Nat) (r : SendRequest)
    (error : Option OperationError) : Shared s (s.closeReceiver n r error) := by
  cases error
  all_goals exact ⟨rfl, rfl, rfl, rfl, rfl, rfl, rfl, rfl, rfl⟩

theorem shared_drop (s : Exchange) (n : Nat) (r : SendRequest) : Shared s (s.drop n r) := by
  unfold drop
  dsimp only
  split
  all_goals exact ⟨rfl, rfl, rfl, rfl, rfl, rfl, rfl, rfl, rfl⟩

theorem requests_looked (s : Exchange) (n : Nat)
    (result : Rust (Poll Response OperationError × SendRequest × Channels)) (r : SendRequest) :
    ∃ e, (s.looked n result r).requests = Function.update s.requests n (some e) := by
  rcases result with _ | ⟨_ | _ | _, _, _⟩
  all_goals exact ⟨_, rfl⟩

theorem requests_closeReceiver (s : Exchange) (n : Nat) (r : SendRequest)
    (error : Option OperationError) :
    ∃ e, (s.closeReceiver n r error).requests = Function.update s.requests n (some e) := by
  cases error
  all_goals exact ⟨_, rfl⟩

theorem requests_drop (s : Exchange) (n : Nat) (r : SendRequest) :
    ∃ e, (s.drop n r).requests = Function.update s.requests n (some e) := by
  unfold drop
  dsimp only
  split
  all_goals exact ⟨_, rfl⟩

/-- Once updates are not handled any more, they never are. -/
theorem handlesUpdates_of_step {s s' : Exchange} {op : Op} (h : Step s op s')
    (hphase : s'.phase.handlesUpdates = true) : s.phase.handlesUpdates = true := by
  cases h with
  | addPendingRequest =>
    split at hphase
    · exact hphase
    · exact hphase
  | startPoll hidle => rw [hidle]; rfl
  | drained _ h =>
    rcases h with ⟨hdraining, -⟩ | hdropping
    · rw [hdraining]; rfl
    · rw [hdropping]; rfl
  | ended _ hdraining => rw [hdraining]; rfl
  | finishPoll hreading => rw [hreading]; rfl
  | startDrop h =>
    rcases h with hidle | hreading
    · rw [hidle]; rfl
    · rw [hreading]; rfl
  | closeQueue => cases hphase
  | retract =>
    rw [retract, unboundedSend_eq] at hphase
    exact hphase
  | queueRemoval =>
    rw [unboundedSend_eq] at hphase
    exact hphase
  | poll => exact (shared_looked ..).phase ▸ hphase
  | closeReceiver => exact (shared_closeReceiver ..).phase ▸ hphase
  | drop => exact (shared_drop ..).phase ▸ hphase
  | _ => exact hphase

end Exchange
end Rtsp
