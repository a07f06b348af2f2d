import Rtsp.Connection.Shutdown

/-!
# Those who ask for the end, and those who wait for it

`ConnectionShutdownReceiver` and `ConnectionShutdownSender` of `connection/mod.rs`.
A receiver waits for the events of the two tasks; of either event it keeps only
whether it still waits for it, since the receiving half of the channel is shared and
is dropped as soon as it is ready. What the channel answers comes with each poll.

All handles share one sender, so a connection is told at most once what kind of
shutdown it is to go through. The last handle that is dropped asks for a graceful one
(`ConnectionShutdownSender.default`): nobody can drop the sending half of the channel
without a word, and that the channel is canceled is an answer that the connection is
prepared for but does not get.
-/

namespace Rtsp

open Lib

/-! ## Those who wait -/

/-- `ConnectionShutdownReceiver`: which of the two events it still waits for. -/
structure ConnectionShutdownReceiver where
  rxConnectionShutdownEvent : Bool
  rxHandlerShutdownEvent : Bool

namespace ConnectionShutdownReceiver

structure Answers where
  connection : OneshotAnswer Unit
  handler : OneshotAnswer Unit

/-- What is done about either event: its receiver is kept only while it is not ready. -/
def pollEvent (message : String) (waits : Bool) (event : OneshotAnswer Unit) : Rust Bool :=
  if waits then
    match event with
    | .received () => .ok false
    | .notReady => .ok true
    | .canceled => .error (.expect message)
  else .ok false

def poll (r : ConnectionShutdownReceiver) (env : Answers) :
    Rust (Async Unit × ConnectionShutdownReceiver) := do
  let connection ← pollEvent
    "`ConnectionShutdownReceiver.rx_connection_shutdown_event` should not error"
    r.rxConnectionShutdownEvent env.connection
  let handler ← pollEvent
    "`ConnectionShutdownReceiver.rx_handler_shutdown_event` should not error"
    r.rxHandlerShutdownEvent env.handler
  .ok (if !connection && !handler then .ready () else .notReady, ⟨connection, handler⟩)

end ConnectionShutdownReceiver

/-! ## Those who ask -/

/-- `ConnectionShutdownSender`, which all handles share. -/
structure ConnectionShutdownSender where
  gracefulShutdownTimeoutDefaultDuration : Nat
  txInitiateShutdown : Bool

namespace ConnectionShutdownSender

/-- `shutdown`, on the channel to the connection. -/
def shutdown (s : ConnectionShutdownSender) (channel : Oneshot ShutdownType)
    (shutdownType : ShutdownType) : ConnectionShutdownSender × Oneshot ShutdownType :=
  if s.txInitiateShutdown then
    ({ s with txInitiateShutdown := false }, channel.send shutdownType)
  else (s, channel)

/-- What is asked for by `Drop`. -/
def default (s : ConnectionShutdownSender) : ShutdownType :=
  .graceful s.gracefulShutdownTimeoutDefaultDuration

end ConnectionShutdownSender
end Rtsp
