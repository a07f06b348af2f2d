import Rtsp.Connection.Handle
import Rtsp.Lib.Trans

/-!
# Calls at the same time

The calls of `send_request_with_options` on any number of handles, step by step.
Between the steps of one call the others take theirs, the connection takes down
the flag, handles updates and responses, or drops its ends of the queues, and the
futures of older calls ask for their removal.

A call that is left alone does what `sendRequestWithOptions` says.

`Connection.Handle` has the whole call as one function. That is what a call does when it
is alone, but handles are cloned, and their clones live on other threads. What is shared
is reached in three ways: through the atomic flag, under the lock, and by two queues
that take one entry at a time. A step of a call is one such access. The flag is read
before the lock is taken, so the flag may be taken down between the two, and the call
goes on; that is in the steps, since `allowed` and `locked` are two stages.

Calls are told apart by the order in which they begin, and the same number names the
channels of the request. The lock is the number of the call that has it. That a call
which waits for the lock gets it some day is not said.

The connection's side is as coarse as the calls allow: it takes the flag down, handles
an update, handles a response, drops its ends of the queues, in any order and any number
of times. What order the code keeps to does not matter here, and a result that holds
whatever the order holds for the code's.
-/

namespace Rtsp

open Lib

/-- How far a call has come. From `locked` on it holds the lock, until it returns. -/
inductive CallStage where
  | entered
  /-- It has found the flag up. -/
  | allowed
  /-- It has read the number. -/
  | locked (c : CSeq)
  /-- The pending request is queued. -/
  | registered (c : CSeq)
  /-- The sender has been shut down, and the pending request is to be removed. -/
  | refused (c : CSeq)
  /-- The request is queued. -/
  | placed (c : CSeq)
  | incremented (c : CSeq)
  /-- It is about to return an error. -/
  | failing (c : CSeq)
  | returned (result : Except OperationError SendRequest)

namespace CallStage

def holdsLock : CallStage → Bool
  | entered | allowed | returned _ => false
  | locked _ | registered _ | refused _ | placed _ | incremented _ | failing _ => true

/-- The number it has read, as long as that is the number of the lock. -/
def current : CallStage → Option CSeq
  | locked c | registered c | refused c | placed c | failing c => some c
  | entered | allowed | incremented _ | returned _ => none

def isPlaced : CallStage → Bool
  | placed _ => true
  | _ => false

/-- Its request has been queued. -/
def hasPlaced : CallStage → Bool
  | placed _ | incremented _ | returned (.ok _) => true
  | _ => false

/-- The pending request can be entered under the number. -/
def IsPending (number : CSeq) : CallStage → Prop
  | registered c | refused c | placed c | incremented c => c = number
  | returned (.ok r) => r.sequenceNumber = number
  | _ => False

/-- It has read that number, if it has read one and not returned. -/
def HasRead (number : CSeq) : CallStage → Prop
  | locked c | registered c | refused c | placed c | incremented c | failing c => c = number
  | returned _ => True
  | entered | allowed => False

end CallStage

/-- A call. It is known by the order of the calls. -/
structure HandleCall (URI : Type) where
  request : Request URI
  options : RequestOptions
  stage : CallStage

structure Calls (URI : Type) where
  shared : Shared URI
  /-- The call that holds the lock of the sequence number. -/
  lock : Option Nat
  calls : Nat → Option (HandleCall URI)
  /-- The response receiver, until it is dropped. -/
  receiver : Option ResponseReceiver

namespace Calls

variable {URI : Type}

/-- A new connection, and a random number to start with. -/
def start (first : CSeq) : Calls URI where
  shared := ⟨true, first, [], true, true, []⟩
  lock := none
  calls _ := none
  receiver := some .new

def put (s : Calls URI) (n : Nat) (call : HandleCall URI) (stage : CallStage) : Calls URI :=
  { s with calls := Function.update s.calls n (some { call with stage }) }

/-! ## The steps -/

/-- The closed check. -/
def check (s : Calls URI) (n : Nat) (call : HandleCall URI) : Calls URI :=
  s.put n call (if s.shared.allowRequests then .allowed else .returned (.error .closed))

/-- The lock is taken, and the number read. -/
def acquire (s : Calls URI) (n : Nat) (call : HandleCall URI) : Calls URI :=
  { s with lock := some n }.put n call (.locked s.shared.sequenceNumber)

/-- The pending request is queued. -/
def register (s : Calls URI) (n : Nat) (call : HandleCall URI) (c : CSeq) : Calls URI :=
  match s.shared.unboundedSend (.addPendingRequest c ⟨n, 0⟩) with
  | some shared => { s with shared }.put n call (.registered c)
  | none => s.put n call (.failing c)

/-- The request is queued. -/
def place (s : Calls URI) (n : Nat) (call : HandleCall URI) (c : CSeq) : Calls URI :=
  match s.shared.trySendMessage (.request n (call.request.withCSeq c)) with
  | some shared => { s with shared }.put n call (.placed c)
  | none => s.put n call (.refused c)

/-- The removal of the pending request is queued. -/
def retract (s : Calls URI) (n : Nat) (call : HandleCall URI) (c : CSeq) : Calls URI :=
  { s with shared := s.shared.retract c }.put n call (.failing c)

def increment (s : Calls URI) (n : Nat) (call : HandleCall URI) (c : CSeq) : Calls URI :=
  { s with shared := { s.shared with sequenceNumber := c.wrappingIncrement } }.put n call
    (.incremented c)

/-- The lock is let go, and the call returns. -/
def release (s : Calls URI) (n : Nat) (call : HandleCall URI)
    (result : Except OperationError SendRequest) : Calls URI :=
  { s with lock := none }.put n call (.returned result)

inductive Op (URI : Type) where
  | enter (n : Nat) (request : Request URI) (options : RequestOptions)
  | check (n : Nat)
  | acquire (n : Nat)
  | register (n : Nat)
  | place (n : Nat)
  | retract (n : Nat)
  | increment (n : Nat)
  | release (n : Nat)
  | disallow
  | closeSender
  | sendResponse (response : Response)
  | requestRemoval (c : CSeq)
  | handleUpdate
  | handleResponse (closed : ReplyChannel → Bool) (response : Response)
  | dropReceiver
  | closeUpdates

inductive Step : Calls URI → Op URI → Calls URI → Prop where
  | enter {s n} (request : Request URI) (options : RequestOptions) : s.calls n = none →
      Step s (.enter n request options) (s.put n ⟨request, options, .entered⟩ .entered)
  | check {s n call} : s.calls n = some call → call.stage = .entered →
      Step s (.check n) (s.check n call)
  /-- Nobody has the lock. -/
  | acquire {s n call} : s.calls n = some call → call.stage = .allowed → s.lock = none →
      Step s (.acquire n) (s.acquire n call)
  | register {s n call c} : s.calls n = some call → call.stage = .locked c →
      Step s (.register n) (s.register n call c)
  | place {s n call c} : s.calls n = some call → call.stage = .registered c →
      Step s (.place n) (s.place n call c)
  | retract {s n call c} : s.calls n = some call → call.stage = .refused c →
      Step s (.retract n) (s.retract n call c)
  | increment {s n call c} : s.calls n = some call → call.stage = .placed c →
      Step s (.increment n) (s.increment n call c)
  | release {s n call c} : s.calls n = some call → call.stage = .incremented c →
      Step s (.release n) (s.release n call (.ok (.new ⟨n, 0⟩ c call.options)))
  | fail {s n call c} : s.calls n = some call → call.stage = .failing c →
      Step s (.release n) (s.release n call (.error .closed))
  | disallow {s} : Step s .disallow { s with shared := { s.shared with allowRequests := false } }
  | closeSender {s} :
      Step s .closeSender { s with shared := { s.shared with senderOpen := false } }
  /-- The other tasks send responses only. -/
  | sendResponse {s shared} (response : Response) :
      s.shared.trySendMessage (.response response) = some shared →
      Step s (.sendResponse response) { s with shared }
  /-- The future of some request is dropped, or has timed out. -/
  | requestRemoval {s} (c : CSeq) :
      Step s (.requestRemoval c) { s with shared := s.shared.retract c }
  | handleUpdate {s r u updates} : s.receiver = some r → s.shared.updates = u :: updates →
      Step s .handleUpdate
        { s with
          shared := { s.shared with updates }
          receiver := some (r.handlePendingRequestUpdate u) }
  | handleResponse {s r} (closed : ReplyChannel → Bool) (response : Response) :
      s.receiver = some r → Step s (.handleResponse closed response)
        { s with receiver := some (r.handleResponse closed response).1 }
  | dropReceiver {s} : Step s .dropReceiver { s with receiver := none }
  /-- The receiving half of the queue goes after the response receiver. -/
  | closeUpdates {s} : s.receiver = none →
      Step s .closeUpdates
        { s with shared := { s.shared with updates := [], updatesOpen := false } }

/-! ## A call by itself -/

@[simp] theorem put_calls_self (s : Calls URI) (n : Nat) (call : HandleCall URI)
    (stage : CallStage) : (s.put n call stage).calls n = some { call with stage } :=
  Function.update_self ..

theorem put_calls_of_ne (s : Calls URI) {m n : Nat} (call : HandleCall URI) (stage : CallStage)
    (h : m ≠ n) : (s.put n call stage).calls m = s.calls m :=
  Function.update_of_ne h ..

@[simp] theorem put_shared (s : Calls URI) (n : Nat) (call : HandleCall URI) (stage : CallStage) :
    (s.put n call stage).shared = s.shared := rfl

@[simp] theorem put_lock (s : Calls URI) (n : Nat) (call : HandleCall URI) (stage : CallStage) :
    (s.put n call stage).lock = s.lock := rfl

variable {s s₁ s' : Calls URI} {n : Nat} {call : HandleCall URI} {c : CSeq}
  {result : Except OperationError SendRequest} {shared : Shared URI}

/-- How things are once a call has returned, if nothing came in between its steps. -/
structure Returns (s : Calls URI) (n : Nat)
    (outcome : Except OperationError SendRequest × Shared URI) (s' : Calls URI) : Prop where
  run : ∃ ops, Run Step s ops s'
  lock : s'.lock = none
  result : ∃ call, s'.calls n = some call ∧ call.stage = .returned outcome.1
  shared : s'.shared = outcome.2
  others : ∀ m, m ≠ n → s'.calls m = s.calls m

theorem Returns.after {op : Op URI} {outcome : Except OperationError SendRequest × Shared URI}
    (h : Returns s₁ n outcome s') (hstep : Step s op s₁)
    (hothers : ∀ m, m ≠ n → s₁.calls m = s.calls m) : Returns s n outcome s' :=
  have ⟨_, hrun⟩ := h.run
  ⟨⟨_, (Run.start.snoc hstep).append hrun⟩, h.lock, h.result, h.shared,
    fun m hm => (h.others m hm).trans (hothers m hm)⟩

theorem returns_failing (hcall : s.calls n = some call) (hstage : call.stage = .failing c) :
    ∃ s', Returns s n (.error .closed, s.shared) s' :=
  ⟨_, ⟨_, .snoc .start (.fail hcall hstage)⟩, rfl, ⟨_, put_calls_self .., rfl⟩, rfl,
    fun _ => put_calls_of_ne _ _ _⟩

theorem returns_refused (hcall : s.calls n = some call) (hstage : call.stage = .refused c) :
    ∃ s', Returns s n (.error .closed, s.shared.retract c) s' := by
  obtain ⟨s', h⟩ := returns_failing (put_calls_self { s with shared := s.shared.retract c } n call
    (.failing c)) rfl
  exact ⟨s', h.after (.retract hcall hstage) fun _ => put_calls_of_ne _ _ _⟩

theorem returns_placed (hcall : s.calls n = some call) (hstage : call.stage = .placed c) :
    ∃ s', Returns s n (.ok (.new ⟨n, 0⟩ c call.options),
      { s.shared with sequenceNumber := c.wrappingIncrement }) s' := by
  have hrun := (Run.start.snoc (Step.increment hcall hstage)).snoc
    (.release (put_calls_self ..) rfl)
  exact ⟨_, ⟨_, hrun⟩, rfl, ⟨_, put_calls_self .., rfl⟩, rfl,
    fun _ hm => (put_calls_of_ne _ _ _ hm).trans (put_calls_of_ne _ _ _ hm)⟩

theorem returns_registered (hcall : s.calls n = some call) (hstage : call.stage = .registered c) :
    ∃ s', Returns s n (match s.shared.trySendMessage (.request n (call.request.withCSeq c)) with
      | none => (.error .closed, s.shared.retract c)
      | some shared => (.ok (.new ⟨n, 0⟩ c call.options),
          { shared with sequenceNumber := c.wrappingIncrement })) s' := by
  have hstep := Step.place hcall hstage
  unfold place at hstep
  -- The sender takes the request, or the pending request has to be removed.
  cases hsent : s.shared.trySendMessage (.request n (call.request.withCSeq c)) with
  | none =>
    rw [hsent] at hstep
    obtain ⟨s', h⟩ := returns_refused (put_calls_self s n call (.refused c)) rfl
    exact ⟨s', h.after hstep fun _ => put_calls_of_ne _ _ _⟩
  | some shared =>
    rw [hsent] at hstep
    obtain ⟨s', h⟩ := returns_placed (put_calls_self { s with shared } n call (.placed c)) rfl
    exact ⟨s', h.after hstep fun _ => put_calls_of_ne _ _ _⟩

theorem returns_allowed (hcall : s.calls n = some call) (hstage : call.stage = .allowed)
    (hlock : s.lock = none) (hallowed : s.shared.allowRequests = true) :
    ∃ s', Returns s n (s.shared.sendRequestWithOptions n call.request call.options) s' := by
  have hacquire := Step.acquire hcall hstage hlock
  have hregister := Step.register (put_calls_self { s with lock := some n } n call
    (.locked s.shared.sequenceNumber)) rfl
  unfold register at hregister
  simp only [Shared.sendRequestWithOptions, hallowed, if_true]
  -- Taking the lock changes nothing that the handles share.
  rw [put_shared] at hregister
  cases hsent : s.shared.unboundedSend
      (.addPendingRequest s.shared.sequenceNumber ⟨n, 0⟩) with
  | none =>
    rw [hsent] at hregister
    obtain ⟨s', h⟩ := returns_failing (put_calls_self _ n _ (.failing s.shared.sequenceNumber)) rfl
    exact ⟨s', (h.after hregister fun _ => put_calls_of_ne _ _ _).after hacquire
      fun _ => put_calls_of_ne _ _ _⟩
  | some shared =>
    rw [hsent] at hregister
    obtain ⟨s', h⟩ := returns_registered
      (put_calls_self { (s.acquire n call) with shared } n _
        (.registered s.shared.sequenceNumber)) rfl
    exact ⟨s', (h.after hregister fun _ => put_calls_of_ne _ _ _).after hacquire
      fun _ => put_calls_of_ne _ _ _⟩

/-- **A call that nothing comes in between takes its steps in their order.** -/
theorem returns_sendRequestWithOptions (hn : s.calls n = none) (hlock : s.lock = none)
    (request : Request URI) (options : RequestOptions) :
    ∃ s', Returns s n (s.shared.sendRequestWithOptions n request options) s' := by
  have henter := Step.enter request options hn
  have hcheck := Step.check (put_calls_self s n ⟨request, options, .entered⟩ .entered) rfl
  unfold check at hcheck
  -- The closed check comes before the lock.
  by_cases hallowed : s.shared.allowRequests = true
  · rw [put_shared, if_pos hallowed] at hcheck
    obtain ⟨s', h⟩ := returns_allowed (put_calls_self (s.put n _ .entered) n
      ⟨request, options, .entered⟩ .allowed) rfl hlock hallowed
    exact ⟨s', (h.after hcheck fun _ => put_calls_of_ne _ _ _).after henter
      fun _ => put_calls_of_ne _ _ _⟩
  · rw [put_shared, if_neg hallowed] at hcheck
    rw [Shared.sendRequestWithOptions, if_neg hallowed]
    exact ⟨_, ⟨_, (Run.start.snoc henter).snoc hcheck⟩, hlock, ⟨_, put_calls_self .., rfl⟩, rfl,
      fun _ hm => (put_calls_of_ne _ _ _ hm).trans (put_calls_of_ne _ _ _ hm)⟩

/-! ## Calls after the flag is down -/

/-- The flag is down, and call `n` has not passed it. -/
structure TurnsAway (s : Calls URI) (n : Nat) : Prop where
  down : s.shared.allowRequests = false
  stage : ∀ call, s.calls n = some call →
    call.stage = .entered ∨ call.stage = .returned (.error .closed)

/-- A call that has passed the flag is another one. -/
theorem TurnsAway.other {m : Nat} (hs : s.TurnsAway n) (hcall : s.calls m = some call)
    {stage stage' : CallStage} (hstage : call.stage = stage) (hentered : stage ≠ .entered)
    (hreturned : stage ≠ .returned (.error .closed))
    (hdown : s'.shared.allowRequests = s.shared.allowRequests)
    (hcalls : s'.calls = (s.put m call stage').calls) : s'.TurnsAway n := by
  have hnm : n ≠ m := by
    rintro rfl
    rcases hs.stage call hcall with h | h
    · exact hentered (hstage.symm.trans h)
    · exact hreturned (hstage.symm.trans h)
  refine ⟨hdown.trans hs.down, fun call' h => hs.stage call' ?_⟩
  rw [hcalls, put_calls_of_ne _ _ _ hnm] at h
  exact h

theorem TurnsAway.step {op : Op URI} (hs : s.TurnsAway n) (h : Step s op s') :
    s'.TurnsAway n := by
  cases h with
  | @enter m request options hm =>
    refine ⟨hs.down, fun call' h => ?_⟩
    by_cases hnm : n = m
    · subst hnm
      rw [put_calls_self] at h
      cases h
      exact .inl rfl
    · rw [put_calls_of_ne _ _ _ hnm] at h
      exact hs.stage call' h
  | @check m call hm hstage =>
    refine ⟨hs.down, fun call' h => ?_⟩
    by_cases hnm : n = m
    · subst hnm
      rw [check, hs.down, put_calls_self] at h
      cases h
      exact .inr rfl
    · rw [check, put_calls_of_ne _ _ _ hnm] at h
      exact hs.stage call' h
  | acquire hm hstage _ => exact hs.other hm hstage nofun nofun rfl rfl
  | register hm hstage =>
    unfold register
    split
    · next shared hsent =>
      exact hs.other hm hstage nofun nofun (Shared.allowRequests_unboundedSend hsent) rfl
    · exact hs.other hm hstage nofun nofun rfl rfl
  | place hm hstage =>
    unfold place
    split
    · next shared hsent =>
      exact hs.other hm hstage nofun nofun (Shared.allowRequests_trySendMessage hsent) rfl
    · exact hs.other hm hstage nofun nofun rfl rfl
  | retract hm hstage =>
    exact hs.other hm hstage nofun nofun (s.shared.allowRequests_retract _) rfl
  | increment hm hstage => exact hs.other hm hstage nofun nofun rfl rfl
  | release hm hstage => exact hs.other hm hstage nofun nofun rfl rfl
  | fail hm hstage => exact hs.other hm hstage nofun nofun rfl rfl
  | disallow => exact ⟨rfl, hs.stage⟩
  | sendResponse _ hsent =>
    exact ⟨(Shared.allowRequests_trySendMessage hsent).trans hs.down, hs.stage⟩
  | requestRemoval c => exact ⟨(s.shared.allowRequests_retract c).trans hs.down, hs.stage⟩
  | _ => exact ⟨hs.down, hs.stage⟩

/-- **A call that begins once the flag is down is turned away**, whatever comes in between its
    steps. -/
theorem turned_away {ops : List (Op URI)} (h : Run Step s ops s')
    (hdown : s.shared.allowRequests = false) (hn : s.calls n = none)
    (hcall : s'.calls n = some call) (hresult : call.stage = .returned result) :
    result = .error .closed := by
  have hstart : s.TurnsAway n := ⟨hdown, fun call h => by rw [hn] at h; cases h⟩
  have hs' : s'.TurnsAway n := h.invariant (I := fun s => s.TurnsAway n) hstart
    fun _ _ _ hs hstep => hs.step hstep
  rcases hs'.stage call hcall with h | h
  · rw [hresult] at h
    cases h
  · rw [hresult] at h
    exact CallStage.returned.inj h

end Calls
end Rtsp
