import Rtsp.Connection.OneWay.Sheds
import Rtsp.Connection.Calls

/-!
# The task of a connection

The connection as its executor sees it: polled, until a poll is ready, and dropped at
last. `Task.poll` is `Connection.poll` with the checked shutdown handler in it, and it
notes whether a poll has been ready. A poll after that is not excluded. Executors do not
poll again, but nothing in the type keeps them from it, and it does no harm.

A sound task stays sound and goes one way (`poll_onward`); a debug build does what the
connection does (`poll_eq`); and a poll fails only where reading failed, or at the
runtime's timer (`poll_error`).

`Task.shared` is what the handles share with the connection, put together from the state
of the task. What is not the task's to know, the next number and the queue of updates,
are parameters.
-/

namespace Rtsp

open Lib

/-- A connection with its number of events, and whether one of its polls has been ready. -/
structure Task (URI : Type) where
  connection : Connection URI
  events : Nat
  finished : Bool

namespace Task

variable {URI URIError : Type}

/-- The task of a new connection. -/
def start (service : Bool) (requestBufferSize : Nat) : Task URI :=
  ⟨.withConfig service requestBufferSize, 0, false⟩

def watched (task : Task URI) : Watched := ⟨task.connection.shutdown, task.events⟩

/-- The end of `poll`, once the shutdown handler has been polled. -/
def settle (task : Task URI) (c : Connection URI) (w : Watched)
    (env : Connection.Answers URI URIError) : Rust (Task URI) := do
  -- `handleShutdownState` looks at the state that is checked here.
  let _ ← w.state
  let (result, c) := { c with shutdown := w.handler }.handleShutdownState env
  match result with
  | .ready () => .ok ⟨c, w.events, true⟩
  | .notReady =>
    if c.isShutdown then
      let w := w.forceShutdown
      .ok ⟨{ c with shutdown := w.handler }, w.events, true⟩
    else .ok ⟨c, w.events, task.finished⟩

/-- `Connection::poll` -/
def poll (task : Task URI) (env : Connection.Answers URI URIError) : Rust (Task URI) := do
  let (c, _) ← task.connection.pollReceiver env
  let c := (c.pollSender env).1
  let (_, w) ← Watched.poll ⟨c.shutdown, task.events⟩ env.shutdown
  task.settle c w env

/-- The task once a poll of its connection has come out so. -/
def polled (task : Task URI) (outcome : Async Unit × Connection URI) : Task URI where
  connection := outcome.2
  events := (Watched.watch outcome.2.shutdown).events
  finished := task.finished || outcome.1 = .ready ()

/-- `Drop for ShutdownHandler`, when the connection is dropped. -/
def drop (task : Task URI) : Watched := task.watched.forceShutdown

/-- What the handles share with the connection, and among themselves. -/
def shared (task : Task URI) (sequenceNumber : CSeq) (updates : List PendingRequestUpdate)
    (pushed : List (Push URI)) : Shared URI where
  allowRequests := task.connection.allowRequests
  sequenceNumber := sequenceNumber
  updates := updates
  updatesOpen := task.connection.receiver.any (·.responseReceiver.isSome)
  senderOpen := task.connection.sender.isSome
  pushed := pushed

/-- What happens to the task: it is polled, and other tasks put messages into the channel of
    the sender. -/
inductive Step : Task URI → Connection.Op URI URIError → Task URI → Prop where
  | poll {task task' : Task URI} {env : Connection.Answers URI URIError} :
      task.poll env = .ok task' → Step task (.poll env) task'
  | send {task : Task URI} (messages : List (Message URI)) : Step task (.send messages)
      { task with connection := { task.connection with
          sender := task.connection.sender.map (·.enqueue messages) } }

/-- The handler has one of its shapes, and after the last poll everything is shut down. -/
structure Sound (task : Task URI) : Prop where
  watched : task.watched.Sound
  finished : task.finished = true → task.connection.allowRequests = false ∧
    task.connection.receiver = none ∧ task.connection.sender = none ∧
    task.connection.shutdown.state = .shutdown

variable {task task' : Task URI} {env : Connection.Answers URI URIError} {p : Panic}

theorem sound_start (service : Bool) (size : Nat) : (start service size : Task URI).Sound :=
  ⟨.running, nofun⟩

/-! ## Polling -/

/-- The parts of a poll. -/
theorem poll_inv (hs : task.Sound) (h : task.poll env = .ok task') : ∃ c w,
    task.connection.Sheds c ∧ w.Sound ∧
      task.connection.shutdown.state.rank ≤ w.handler.state.rank ∧
      task.settle c w env = .ok task' := by
  obtain ⟨⟨c₁, received⟩, hreceiver, h⟩ := bind_eq_ok h
  obtain ⟨⟨r, w⟩, hpoll, h⟩ := bind_eq_ok h
  have hsheds := (Connection.Sheds.pollReceiver hreceiver).trans (.pollSender c₁ env)
  rw [hsheds.shutdown] at hpoll
  obtain ⟨hw, hrank⟩ := hs.watched.poll hpoll
  exact ⟨_, w, hsheds, hw, hrank, h⟩

theorem settle_onward {c : Connection URI} {w : Watched} (hsheds : task.connection.Sheds c)
    (hw : w.Sound) (hrank : task.connection.shutdown.state.rank ≤ w.handler.state.rank)
    (hs : task.Sound) (h : task.settle c w env = .ok task') :
    task'.Sound ∧ task.connection.Onward task'.connection ∧
      (task.finished = true → task'.finished = true) := by
  obtain ⟨state, -, h⟩ := bind_eq_ok h
  have hhandled := Connection.Sheds.handleShutdownState { c with shutdown := w.handler } env
  have hready := Connection.handleShutdownState_ready
    (c := { c with shutdown := w.handler }) env
  have hflag := Connection.handleShutdownState_flag
    (c := { c with shutdown := w.handler }) env
  generalize { c with shutdown := w.handler }.handleShutdownState env = handled
    at h hhandled hready hflag
  obtain ⟨result, c'⟩ := handled
  have hkept : c'.shutdown = w.handler := hhandled.shutdown
  have hwatched : Watched.Sound ⟨c'.shutdown, w.events⟩ := hkept ▸ hw
  have honward : task.connection.Onward c' := by
    refine ⟨hhandled.allowRequests ∘ hsheds.allowRequests, hhandled.receiver ∘ hsheds.receiver,
      hhandled.sender ∘ hsheds.sender, ?_⟩
    rw [hkept]
    exact hrank
  cases result with
  | ready =>
    obtain ⟨hdown, hreceiver, hsender, hstate⟩ := hready rfl
    cases h
    refine ⟨⟨hwatched, fun _ => ⟨hdown, hreceiver, hsender, ?_⟩⟩, honward, fun _ => rfl⟩
    rw [hkept]
    exact hstate
  | notReady =>
    dsimp only at h
    split at h
    · next hover =>
      obtain ⟨hreceiver, hsender⟩ := Bool.and_eq_true_iff.mp hover
      have hreceiver : c'.receiver = none := Option.isNone_iff_eq_none.mp hreceiver
      have hsender : c'.sender = none := Option.isNone_iff_eq_none.mp hsender
      cases h
      refine ⟨⟨?_, fun _ => ⟨hflag hreceiver, hreceiver, hsender, rfl⟩⟩,
        ⟨honward.allowRequests, honward.receiver, honward.sender, ?_⟩, fun _ => rfl⟩
      · show w.forceShutdown.Sound
        rw [hw.forceShutdown]
        exact .shutdown
      · show _ ≤ 2
        exact ShutdownState.rank_le _
    · -- A task that had been finished would be over.
      next hopen =>
      cases h
      refine ⟨⟨hwatched, fun hfinished => absurd ?_ hopen⟩, honward, id⟩
      obtain ⟨-, hreceiver, hsender, -⟩ := hs.finished hfinished
      simp [Connection.isShutdown, Connection.isReceiverShutdown, Connection.isSenderShutdown,
        honward.receiver hreceiver, honward.sender hsender]

/-- **A poll keeps the task sound, and goes one way.** -/
theorem poll_onward (hs : task.Sound) (h : task.poll env = .ok task') :
    task'.Sound ∧ task.connection.Onward task'.connection ∧
      (task.finished = true → task'.finished = true) := by
  obtain ⟨c, w, hsheds, hw, hrank, hsettle⟩ := poll_inv hs h
  exact settle_onward hsheds hw hrank hs hsettle

/-- The end of a poll does what `conclude` says. -/
theorem settle_eq (task : Task URI) (c : Connection URI) {w : Watched} (hw : w.Sound)
    (env : Connection.Answers URI URIError) :
    task.settle c w env = .ok
      (task.polled (Connection.conclude
        ({ c with shutdown := w.handler }.handleShutdownState env))) := by
  unfold settle
  rw [hw.state, ok_bind]
  have hhandled := Connection.Sheds.handleShutdownState { c with shutdown := w.handler } env
  generalize { c with shutdown := w.handler }.handleShutdownState env = handled at hhandled ⊢
  obtain ⟨result, c'⟩ := handled
  have hkept : c'.shutdown = w.handler := hhandled.shutdown
  have hevents : w.events = (Watched.watch c'.shutdown).events := by
    rw [hkept]
    exact congrArg Watched.events hw.eq_watch
  cases result with
  | ready =>
    show Except.ok (Task.mk c' w.events true) = _
    rw [hevents]
    simp [polled, Connection.conclude]
  | notReady =>
    unfold Connection.conclude Connection.finish
    dsimp only
    split
    · rw [hw.forceShutdown]
      simp [polled, Watched.watch, ShutdownHandler.forceShutdown, ShutdownHandler.handleShutdown]
    · rw [hevents]
      simp [polled]

/-- **A debug build polls the connection as any other does.** -/
theorem poll_eq (hs : task.Sound) (env : Connection.Answers URI URIError) :
    task.poll env = (task.connection.poll env).map fun out =>
      task.polled (out.1, out.2.1) := by
  unfold poll Connection.poll
  cases hreceiver : task.connection.pollReceiver env with
  | error p => rfl
  | ok received =>
    obtain ⟨c₁, t⟩ := received
    have hsheds := (Connection.Sheds.pollReceiver hreceiver).trans (.pollSender c₁ env)
    have hwatched : Watched.poll ⟨(c₁.pollSender env).1.shutdown, task.events⟩ env.shutdown =
        ((c₁.pollSender env).1.shutdown.poll env.shutdown).map fun out =>
          (out.1, Watched.watch out.2) := by
      rw [hsheds.shutdown]
      exact hs.watched.poll_eq env.shutdown
    rw [ok_bind, ok_bind]
    dsimp only
    rw [hwatched]
    cases hpoll : (c₁.pollSender env).1.shutdown.poll env.shutdown with
    | error p => rfl
    | ok polled =>
      obtain ⟨r, shutdown⟩ := polled
      rw [hpoll] at hwatched
      rw [hsheds.shutdown] at hwatched
      have hw : (Watched.watch shutdown).Sound := (hs.watched.poll hwatched).1
      exact settle_eq task (c₁.pollSender env).1 hw env

/-- What a poll can fail at, of the shutdown handler. -/
theorem poll_error (hs : task.Sound) (h : task.poll env = .error p) :
    task.connection.pollReceiver env = .error p ∨
      p = .expect "shutdown timer should not be shutdown" ∧ env.shutdown.timer = .shutdown := by
  rcases bind_eq_error_iff.mp h with hreceiver | ⟨⟨c₁, received⟩, hreceiver, h⟩
  · exact .inl hreceiver
  · have hsheds := (Connection.Sheds.pollReceiver hreceiver).trans (.pollSender c₁ env)
    rcases bind_eq_error_iff.mp h with hpoll | ⟨⟨r, w⟩, hpoll, h⟩
    · rw [hsheds.shutdown] at hpoll
      exact .inr (hs.watched.poll_error hpoll)
    · rw [hsheds.shutdown] at hpoll
      -- The assertions hold, and nothing else can fail.
      have hsettle := settle_eq task (c₁.pollSender env).1 (hs.watched.poll hpoll).1 env
      cases hsettle.symm.trans h

end Task
end Rtsp
