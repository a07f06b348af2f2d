import Rtsp.Connection.Running

/-!
# A shutdown handler that checks its assertions

`ShutdownHandler` has debug assertions in `state` and `handle_shutdown`, which a release
build leaves out, and the model of it in `Connection.Shutdown` leaves out too. Here it
is once more with the assertions, and with a count of how often its event has been sent
(`Watched`); function by function the two are the same otherwise.

In a connection in use a handler has one of three shapes (`Watched.Sound`): it listens,
with no timer; it has heard of a graceful shutdown, with a timer; or it is through, and
its event has been sent. In each of them the assertions hold, so a debug build polls it
as any other does (`Sound.poll_eq`). What is left that can go wrong is a timer that
tells that the runtime's timer is gone (`Sound.poll_error`).
-/

namespace Rtsp

open Lib

/-- How far a shutdown has come. -/
def ShutdownState.rank : ShutdownState → Nat
  | running => 0
  | shuttingDown => 1
  | shutdown => 2

theorem ShutdownState.rank_le (state : ShutdownState) : state.rank ≤ 2 := by
  cases state <;> decide

/-- A shutdown handler, and how often its event has been sent. -/
structure Watched where
  handler : ShutdownHandler
  events : Nat
  deriving DecidableEq

namespace Watched

/-- `state` -/
def state (w : Watched) : Rust ShutdownState :=
  if w.handler.rxInitiateShutdown then do
    debugAssert "self.timer.is_none()" w.handler.timer.isNone
    .ok .running
  else if w.handler.timer.isSome then .ok .shuttingDown
  else do
    debugAssert "self.tx_shutdown_event.is_none()" (!w.handler.txShutdownEvent)
    .ok .shutdown

/-- `force_shutdown`, which is the arm of `handle_shutdown` for an immediate one. -/
def forceShutdown (w : Watched) : Watched where
  handler := ⟨false, none, false⟩
  events := if w.handler.txShutdownEvent then w.events + 1 else w.events

/-- `handle_shutdown` -/
def handleShutdown (w : Watched) : ShutdownType → Rust Watched
  | .graceful duration => do
    let state ← w.state
    debugAssert "self.state() != ShutdownState::Shutdown" (state ≠ .shutdown)
    .ok { w with
      handler := { w.handler with rxInitiateShutdown := false, timer := some duration } }
  | .immediate => .ok w.forceShutdown

/-- `poll_running` -/
def pollRunning (w : Watched) (env : ShutdownHandler.Answers) : Rust (Async Unit × Watched) :=
  if w.handler.rxInitiateShutdown then
    match env.initiate with
    | .received shutdownType => do
      let w ← w.handleShutdown shutdownType
      .ok (.ready (), w)
    | .canceled => do
      let w ← w.handleShutdown .immediate
      .ok (.ready (), w)
    | .notReady => .ok (.notReady, w)
  else .error (.expect
    "`ShutdownHandler::poll_running` should not be called if `ShutdownHandler.rx_initiate_shutdown` is `None`")

/-- `poll_shutting_down` -/
def pollShuttingDown (w : Watched) (env : ShutdownHandler.Answers) :
    Rust (Async Unit × Watched) :=
  if w.handler.timer.isSome then
    match env.timer with
    | .expired => do
      let w ← w.handleShutdown .immediate
      .ok (.ready (), w)
    | .notReady => .ok (.notReady, w)
    | .atCapacity => do
      let w ← w.handleShutdown .immediate
      .ok (.ready (), w)
    | .shutdown => .error (.expect "shutdown timer should not be shutdown")
  else .error (.expect
    "`ShutdownHandler::poll_shutting_down` should not be called if `ShutdownHandler.timer` is `None`")

/-- The loop of `poll`, as in `ShutdownHandler.pollLoop`. -/
def pollLoop (env : ShutdownHandler.Answers) : Nat → Watched → Rust (Async Unit × Watched)
  | 0, _ => .error .diverged
  | turns + 1, w => do
    match ← w.state with
    | .running => do
      let (result, w) ← w.pollRunning env
      match result with
      | .ready () => pollLoop env turns w
      | .notReady => .ok (.notReady, w)
    | .shuttingDown => do
      let (result, w) ← w.pollShuttingDown env
      match result with
      | .ready () => pollLoop env turns w
      | .notReady => .ok (.notReady, w)
    | .shutdown => .ok (.ready (), w)

/-- `ShutdownHandler::poll` -/
def poll (w : Watched) (env : ShutdownHandler.Answers) : Rust (Async Unit × Watched) :=
  pollLoop env 3 w

/-! ## The shapes of a handler -/

/-- The event has been sent once its sender is gone, and then everything is. -/
inductive Sound : Watched → Prop where
  | running : Sound ⟨⟨true, none, true⟩, 0⟩
  | shuttingDown (duration : Nat) : Sound ⟨⟨false, some duration, true⟩, 0⟩
  | shutdown : Sound ⟨⟨false, none, false⟩, 1⟩

/-- A handler with the number of events that goes with it. -/
def watch (h : ShutdownHandler) : Watched := ⟨h, if h.txShutdownEvent then 0 else 1⟩

variable {w w' : Watched} {env : ShutdownHandler.Answers} {r : Async Unit} {p : Panic}

theorem Sound.eq_watch (hw : w.Sound) : w = watch w.handler := by
  cases hw <;> rfl

theorem Sound.forceShutdown (hw : w.Sound) : w.forceShutdown = ⟨⟨false, none, false⟩, 1⟩ := by
  cases hw <;> rfl

theorem Sound.events_le (hw : w.Sound) : w.events ≤ 1 := by
  cases hw with
  | running | shuttingDown => exact Nat.zero_le 1
  | shutdown => exact le_refl 1

theorem Sound.events_of_shutdown (hw : w.Sound) (h : w.handler.state = .shutdown) :
    w.events = 1 := by
  cases hw with
  | running => cases h
  | shuttingDown => cases h
  | shutdown => rfl

/-- **The assertions of `state` hold.** -/
theorem Sound.state (hw : w.Sound) : w.state = .ok w.handler.state := by
  cases hw <;> rfl

/-- **A debug build polls the handler as any other does**: no assertion fails. -/
theorem Sound.poll_eq (hw : w.Sound) (env : ShutdownHandler.Answers) :
    w.poll env = (w.handler.poll env).map fun (r, h) => (r, watch h) := by
  obtain ⟨initiate, timer⟩ := env
  cases hw with
  | running =>
    cases initiate with
    | received shutdownType =>
      cases shutdownType with
      | graceful duration => cases timer <;> rfl
      | immediate => rfl
    | notReady => rfl
    | canceled => rfl
  | shuttingDown duration => cases timer <;> rfl
  | shutdown => rfl

/-- How a poll of a handler comes out: it goes one way, unless the runtime's timer is gone. -/
theorem Sound.poll_cases (hw : w.Sound) (env : ShutdownHandler.Answers) :
    (∃ r w', w.poll env = .ok (r, w') ∧ w'.Sound ∧
      w.handler.state.rank ≤ w'.handler.state.rank) ∨
    w.poll env = .error (.expect "shutdown timer should not be shutdown") ∧
      env.timer = .shutdown := by
  obtain ⟨initiate, timer⟩ := env
  cases hw with
  | running =>
    cases initiate with
    | received shutdownType =>
      cases shutdownType with
      | graceful duration =>
        cases timer with
        | expired | atCapacity => exact .inl ⟨_, _, rfl, .shutdown, Nat.zero_le _⟩
        | notReady => exact .inl ⟨_, _, rfl, .shuttingDown duration, Nat.zero_le _⟩
        | shutdown => exact .inr ⟨rfl, rfl⟩
      | immediate => exact .inl ⟨_, _, rfl, .shutdown, Nat.zero_le _⟩
    | notReady => exact .inl ⟨_, _, rfl, .running, Nat.zero_le _⟩
    | canceled => exact .inl ⟨_, _, rfl, .shutdown, Nat.zero_le _⟩
  | shuttingDown duration =>
    cases timer with
    | expired | atCapacity => exact .inl ⟨_, _, rfl, .shutdown, Nat.le_succ 1⟩
    | notReady => exact .inl ⟨_, _, rfl, .shuttingDown duration, le_refl _⟩
    | shutdown => exact .inr ⟨rfl, rfl⟩
  | shutdown => exact .inl ⟨_, _, rfl, .shutdown, le_refl _⟩

theorem Sound.poll (hw : w.Sound) (h : w.poll env = .ok (r, w')) :
    w'.Sound ∧ w.handler.state.rank ≤ w'.handler.state.rank := by
  rcases hw.poll_cases env with ⟨r₁, w₁, hpoll, hsound⟩ | ⟨hpoll, -⟩
  · cases hpoll.symm.trans h
    exact hsound
  · cases hpoll.symm.trans h

/-- **What can go wrong in a poll is that the runtime's timer is gone.** -/
theorem Sound.poll_error (hw : w.Sound) (h : w.poll env = .error p) :
    p = .expect "shutdown timer should not be shutdown" ∧ env.timer = .shutdown := by
  rcases hw.poll_cases env with ⟨r₁, w₁, hpoll, -⟩ | ⟨hpoll, htimer⟩
  · cases hpoll.symm.trans h
  · cases hpoll.symm.trans h
    exact ⟨rfl, htimer⟩

end Watched

end Rtsp
