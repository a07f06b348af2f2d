import Rtsp.Rust

/-!
# Polling

What the pieces of a connection ask of their surroundings, and what they are
told. A future, a stream, a channel, a sink or a timer is outside of the task
that polls it: other tasks and the network decide what it answers. The model
takes these answers as they come; each poll of a piece is given the answers of
that poll.

To take the answers as they come is to say nothing about the environment, and that is
how most results are stated: for all answers. Where a result needs more of them, the
hypothesis is about the answers of that poll, and a reader can see what it asks of
`tokio`. What is lost is wake-ups. A poll that returns `NotReady` must have left word
with somebody who will wake the task, and the answers do not say who has been asked; the
one place where this matters has a definition of its own (`Connection.Parking`).
-/

namespace Rtsp

/-- `Async` -/
inductive Async (α : Type) where
  | ready (a : α)
  | notReady
  deriving DecidableEq

/-- `Poll` -/
abbrev Poll (α ε : Type) := Except ε (Async α)

/-- What `start_send` of a bounded channel or a sink answers. -/
inductive SendAnswer where
  | ready
  /-- There is no room: the item is handed back. -/
  | notReady
  /-- The other half is gone, or the sink failed. -/
  | closed
  deriving DecidableEq

/-- What a timer answers. -/
inductive DelayAnswer where
  | expired
  | notReady
  | atCapacity
  /-- The timer of the runtime is gone. The code panics. -/
  | shutdown
  deriving DecidableEq

/-- `try_ready!` of a poll that has no error: `next` is what is done when it is ready. -/
def tryReady {α β : Type} (poll : Async α) (next : α → Async β) : Async β :=
  match poll with
  | .ready a => next a
  | .notReady => .notReady

end Rtsp
