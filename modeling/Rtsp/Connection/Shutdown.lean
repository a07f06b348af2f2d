import Rtsp.Connection.Async
import Rtsp.Lib.Oneshot

/-!
# The shutdown handler

`ShutdownHandler` of `connection/shutdown.rs`: it waits for a shutdown that the
connection's handles ask for, and gives a graceful one a limited time. What has
been told to its receivers, and which timers run, is all there is to its state.

The handler is a machine with three states, and none of them is stored: `state` reads
them off from which fields are there. The fields could be set so that the handler waits
for a shutdown with its event gone. The `debug_assert`s of the code rule that out; they
are not in these functions but in those of `Connection.OneWay`, which shows that they
hold.

A channel that is canceled counts as an immediate shutdown, as it does in the code. It
is never seen in a connection: the half that the handles hold is dropped by a destructor
that sends a graceful shutdown first (`Connection.ShutdownEvents`). The functions answer
to it all the same, because they are written to.

The loop of `poll` has no bound in the source. Here it has three turns, and the theorem
that three are enough is with the invariant, as one has to know that a turn never leads
back.
-/

namespace Rtsp

open Lib

/-- `ShutdownType` -/
inductive ShutdownType where
  | graceful (duration : Nat)
  | immediate
  deriving DecidableEq

/-- `ShutdownState` -/
inductive ShutdownState where
  | running
  | shutdown
  | shuttingDown
  deriving DecidableEq

/-- `ShutdownHandler`. Of a channel only its presence matters; the timer is kept as the
    duration it was set to. -/
structure ShutdownHandler where
  rxInitiateShutdown : Bool
  timer : Option Nat
  txShutdownEvent : Bool
  deriving DecidableEq

namespace ShutdownHandler

/-- The answers of one poll. -/
structure Answers where
  initiate : OneshotAnswer ShutdownType
  timer : DelayAnswer

/-- `ShutdownHandler::new` -/
def new : ShutdownHandler := ⟨true, none, true⟩

def state (h : ShutdownHandler) : ShutdownState :=
  if h.rxInitiateShutdown then .running else if h.timer.isSome then .shuttingDown else .shutdown

/-- `handle_shutdown`. The shutdown event is sent when its sender is taken. The timer is set to
    `Instant::now() + duration`, which panics if an `Instant` cannot hold the sum: durations are
    taken to be such that it can, here and wherever else a timer is set. -/
def handleShutdown (h : ShutdownHandler) : ShutdownType → ShutdownHandler
  | .graceful duration => { h with rxInitiateShutdown := false, timer := some duration }
  | .immediate => ⟨false, none, false⟩

def forceShutdown (h : ShutdownHandler) : ShutdownHandler := h.handleShutdown .immediate

def pollRunning (h : ShutdownHandler) (env : Answers) : Rust (Async Unit × ShutdownHandler) :=
  if h.rxInitiateShutdown then
    match env.initiate with
    | .received shutdownType => .ok (.ready (), h.handleShutdown shutdownType)
    | .canceled => .ok (.ready (), h.handleShutdown .immediate)
    | .notReady => .ok (.notReady, h)
  else .error (.expect
    "`ShutdownHandler::poll_running` should not be called if `ShutdownHandler.rx_initiate_shutdown` is `None`")

def pollShuttingDown (h : ShutdownHandler) (env : Answers) :
    Rust (Async Unit × ShutdownHandler) :=
  if h.timer.isSome then
    match env.timer with
    | .expired => .ok (.ready (), h.handleShutdown .immediate)
    | .notReady => .ok (.notReady, h)
    | .atCapacity => .ok (.ready (), h.handleShutdown .immediate)
    | .shutdown => .error (.expect "shutdown timer should not be shutdown")
  else .error (.expect
    "`ShutdownHandler::poll_shutting_down` should not be called if `ShutdownHandler.timer` is `None`")

/-- The loop of `poll`. A turn that is ready leaves its state for a later one, so three
    turns suffice (`poll_cases`). -/
def pollLoop (env : Answers) : Nat → ShutdownHandler → Rust (Async Unit × ShutdownHandler)
  | 0, _ => .error .diverged
  | turns + 1, h =>
    match h.state with
    | .running => do
      let (result, h) ← h.pollRunning env
      match result with
      | .ready () => pollLoop env turns h
      | .notReady => .ok (.notReady, h)
    | .shuttingDown => do
      let (result, h) ← h.pollShuttingDown env
      match result with
      | .ready () => pollLoop env turns h
      | .notReady => .ok (.notReady, h)
    | .shutdown => .ok (.ready (), h)

/-- `ShutdownHandler::poll` -/
def poll (h : ShutdownHandler) (env : Answers) : Rust (Async Unit × ShutdownHandler) :=
  pollLoop env 3 h

end ShutdownHandler
end Rtsp
