import Rtsp.Connection.Lifetime.System

/-!
# What holds of a connection and those around it

The invariant of the system, and what is needed to speak of it. The events are as the
tasks are: an event has been sent exactly if its task is over, so that one who waits for
it is told at the right moment (`Sound.connectionEvent`, `Sound.handlerEvent`). One who
no longer waits for an event has seen it (`Waits`). And the channel to the shutdown
handler holds the first shutdown that was asked for, as long as the handler listens
(`asks`).

A channel that nobody will send on would make `ConnectionShutdownReceiver::poll` panic,
by its `expect`. The invariant excludes it: each task sends its event when it finishes,
and when it is dropped before that, its `Drop` sends it.

`Sound` has the default duration of a graceful shutdown as a parameter, since the last
handle asks for that one and a timer that runs must be traced back to whoever asked.
-/

namespace Rtsp

open Lib

namespace Lifetime

variable {URI URIError : Type}

def connectionOver (s : Lifetime URI) : Bool := s.task.all (·.finished)

def handlerOver (s : Lifetime URI) : Bool := s.handler.all (·.finished)

theorem over_iff {s : Lifetime URI} :
    s.Over ↔ s.connectionOver = true ∧ s.handlerOver = true := by
  unfold connectionOver handlerOver
  rw [Option.all_eq_true, Option.all_eq_true]
  exact ⟨fun h => ⟨h.connection, h.handler⟩, fun h => ⟨h.1, h.2⟩⟩

/-- An event that is sent when a task is over. -/
def event (ended : Bool) : Oneshot Unit := if ended then .filled () else .new

/-- One who waits does so for what has not come yet, as far as it can come. -/
structure Waits (s : Lifetime URI) (r : ConnectionShutdownReceiver) : Prop where
  connection : r.rxConnectionShutdownEvent = false → s.connectionOver = true
  service : r.rxHandlerShutdownEvent = true → s.handlerEvent.isSome = true
  handler : r.rxHandlerShutdownEvent = false → s.handlerOver = true

/-- The channel to the connection is as the first shutdown that was asked for has left it. -/
def asks (asked : List ShutdownType) : Oneshot ShutdownType :=
  match asked with
  | [] => .new
  | first :: _ => .filled first

/-- The invariant, with the default duration of a graceful shutdown. -/
structure Sound (default : Nat) (s : Lifetime URI) : Prop where
  task : ∀ task, s.task = some task → task.Ends
  handler : ∀ handler, s.handler = some handler → handler.Sound
  service : s.handler.isSome = true → s.handlerEvent.isSome = true
  connectionEvent : s.connectionEvent = event s.connectionOver
  handlerEvent : ∀ e, s.handlerEvent = some e → e = event s.handlerOver
  receivers : ∀ r ∈ s.receivers, s.Waits r
  sender : s.shutdownSender = ⟨default, s.asked.isEmpty⟩
  handles : s.handles = 0 → s.asked.getLast? = some (.graceful default)
  initiate : ∀ task, s.task = some task → task.connection.shutdown.rxInitiateShutdown = true →
    s.initiate = asks s.asked
  timer : ∀ task, s.task = some task → ∀ duration,
    task.connection.shutdown.timer = some duration →
    s.asked.head? = some (.graceful duration)

variable {s s' : Lifetime URI} {r : ConnectionShutdownReceiver} {default : Nat}

theorem sound_start (service : Bool) (size : Nat) (duration : Option Nat) (default : Nat) :
    Sound default (start service size duration default : Lifetime URI) where
  task task h := by
    cases h
    exact Task.ends_start service size
  handler handler h := by
    cases service with
    | true =>
      cases h
      exact ⟨rfl, nofun⟩
    | false => cases h
  service h := by
    cases service with
    | true => rfl
    | false => cases h
  connectionEvent := rfl
  handlerEvent e h := by
    cases service with
    | true =>
      cases h
      rfl
    | false => cases h
  receivers := nofun
  sender := rfl
  handles := nofun
  initiate _ _ _ := rfl
  timer task h duration htimer := by
    cases h
    cases htimer

/-- An event is sent exactly if its task has ended now. -/
theorem event_send {ended ended' : Bool} {sent : Prop} [Decidable sent]
    (hstays : ended = true → ended' = true) (hsent : sent ↔ ended = false ∧ ended' = true) :
    (if sent then (event ended).send () else event ended) = event ended' := by
  cases ended with
  | true =>
    rw [if_neg (fun h => nomatch (hsent.mp h).1), hstays rfl]
  | false =>
    cases ended' with
    | true => rw [if_pos (hsent.mpr ⟨rfl, rfl⟩)]; rfl
    | false => rw [if_neg (fun h => nomatch (hsent.mp h).2)]

theorem any_isFired {t : List (RequestHandler.Event URI)} :
    t.any (·.isFired) = true ↔ .fired ∈ t := by
  rw [List.any_eq_true]
  constructor
  · rintro ⟨event, hmem, hfired⟩
    cases event with
    | fired => exact hmem
    | called => cases hfired
    | enqueued => cases hfired
  · exact fun h => ⟨_, h, rfl⟩

/-- The events come out right whatever becomes of the tasks. -/
theorem Waits.mono (h : s.Waits r)
    (hconnection : s.connectionOver = true → s'.connectionOver = true)
    (hservice : s.handlerEvent.isSome = true → s'.handlerEvent.isSome = true)
    (hhandler : s.handlerOver = true → s'.handlerOver = true) : s'.Waits r :=
  ⟨hconnection ∘ h.connection, hservice ∘ h.service, hhandler ∘ h.handler⟩

theorem connectionOver_some {task : Task URI} (h : s.task = some task) :
    s.connectionOver = task.finished := by
  rw [connectionOver, h]
  rfl

theorem handlerOver_some {handler : RequestHandler.Task URI} (h : s.handler = some handler) :
    s.handlerOver = handler.finished := by
  rw [handlerOver, h]
  rfl

end Lifetime
end Rtsp
