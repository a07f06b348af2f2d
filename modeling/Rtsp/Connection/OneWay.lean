import Rtsp.Connection.OneWay.Task

/-!
# Shutdown goes one way

Everything in a shutdown goes one way (`Onward`): the flag is not put up again, what has
been let go does not come back, and the state of the shutdown handler does not go back.
`shutdown_one_way` says it of any two states of a run, the second after the first,
together with what follows for those outside: the event is sent once, by the last poll
or by `Drop`, and after the last poll no handle can send a request.

The last of these is about calls that are entered afterwards, on any handle and in any
order of their steps. They are turned away at the flag.

The timer of a graceful shutdown is started with `Instant::now() + duration`. That this
panics on a duration that cannot be represented is no assertion or expectation of the
shutdown handler, and not in the model (see `ShutdownHandler.handleShutdown`).
-/

namespace Rtsp

open Lib

namespace Task

variable {URI URIError : Type} {task task' : Task URI}

theorem step_onward {op : Connection.Op URI URIError} (hs : task.Sound) (h : Step task op task') :
    task'.Sound ∧ task.connection.Onward task'.connection ∧
      (task.finished = true → task'.finished = true) := by
  cases h with
  | poll hpoll => exact poll_onward hs hpoll
  | send messages =>
    refine ⟨⟨hs.watched, fun hfinished => ?_⟩, .of_sheds (.enqueue _ messages) (le_refl _), id⟩
    obtain ⟨hdown, hreceiver, hsender, hstate⟩ := hs.finished hfinished
    exact ⟨hdown, hreceiver, Option.map_eq_none_iff.mpr hsender, hstate⟩

theorem run_onward {ops : List (Connection.Op URI URIError)} (hs : task.Sound)
    (h : Run Step task ops task') : task'.Sound ∧ task.connection.Onward task'.connection ∧
      (task.finished = true → task'.finished = true) := by
  refine h.invariant (I := fun task' => task'.Sound ∧ task.connection.Onward task'.connection ∧
    (task.finished = true → task'.finished = true)) ⟨hs, .refl _, id⟩ ?_
  intro task₁ op task₂ ⟨hs₁, honward, hfinished⟩ hstep
  obtain ⟨hs₂, hstep, hstays⟩ := step_onward hs₁ hstep
  exact ⟨hs₂, honward.trans hstep, hstays ∘ hfinished⟩

/-- **Shutdown goes one way**, from any state of the connection to any later one. No assertion
    or expectation of the shutdown handler fails; its event is sent once, by the poll that is
    ready or when the connection is dropped before; and after that poll no request is sent on
    any handle. -/
theorem shutdown_one_way {service : Bool} {size : Nat}
    {ops ops' : List (Connection.Op URI URIError)}
    (h : Run Step (start service size) ops task) (h' : Run Step task ops' task') :
    (task.connection.allowRequests = false → task'.connection.allowRequests = false) ∧
    (task.connection.receiver = none → task'.connection.receiver = none) ∧
    (task.connection.sender = none → task'.connection.sender = none) ∧
    task.connection.shutdown.state.rank ≤ task'.connection.shutdown.state.rank ∧
    (∀ (env : Connection.Answers URI URIError) p, task'.poll env = .error p →
      task'.connection.pollReceiver env = .error p ∨
        p = .expect "shutdown timer should not be shutdown" ∧ env.shutdown.timer = .shutdown) ∧
    task'.events ≤ 1 ∧ task'.drop.events = 1 ∧
    (task'.finished = true → task'.events = 1) ∧
    (task.finished = true →
      (∀ sequenceNumber updates pushed handle n request options,
        ((task'.shared sequenceNumber updates pushed).sendRequest handle n request).1 =
          .error .closed ∧
        ((task'.shared sequenceNumber updates pushed).sendRequestWithOptions n request
          options).1 = .error .closed) ∧
      ∀ (calls calls' : Calls URI) steps n call result,
        calls.shared.allowRequests = task'.connection.allowRequests → calls.calls n = none →
        Run Calls.Step calls steps calls' → calls'.calls n = some call →
        call.stage = .returned result → result = .error .closed) := by
  obtain ⟨hs, -, -⟩ := run_onward (sound_start service size) h
  obtain ⟨hs', honward, hstays⟩ := run_onward hs h'
  refine ⟨honward.allowRequests, honward.receiver, honward.sender, honward.state,
    fun env p hpoll => poll_error hs' hpoll, ?_, ?_, fun hfinished => ?_, fun hfinished => ?_⟩
  · exact hs'.watched.events_le
  · rw [drop, hs'.watched.forceShutdown]
  · obtain ⟨-, -, -, hstate⟩ := hs'.finished hfinished
    exact hs'.watched.events_of_shutdown hstate
  · obtain ⟨hdown, -, -, -⟩ := hs'.finished (hstays hfinished)
    refine ⟨fun sequenceNumber updates pushed handle n request options => ?_, ?_⟩
    · have hclosed : ∀ options, ((task'.shared sequenceNumber updates
          pushed).sendRequestWithOptions n request options).1 = .error .closed := fun options => by
        rw [Shared.sendRequestWithOptions_disallowed hdown]
      exact ⟨hclosed _, hclosed options⟩
    · intro calls calls' steps n call result hshared hn hrun hcall hresult
      exact Calls.turned_away hrun (hshared.trans hdown) hn hcall hresult

/-- A handle asks for a shutdown at once. -/
def shutdownAsked : Connection.Answers AsteriskURI Unit :=
  { (Connection.Answers.idle : Connection.Answers AsteriskURI Unit) with
    shutdown := ⟨.received .immediate, .notReady⟩ }

/-- The poll that hears of it is the last one that is called for, and another does no harm. -/
theorem shutdown_one_way_immediate : ∃ task task' : Task AsteriskURI,
    task.finished = true ∧ task'.connection.shutdown.state.rank = 2 ∧ task'.events = 1 ∧
      ∀ request, ((task'.shared ⟨7, by decide⟩ [] []).sendRequest ⟨none, none⟩ 0 request).1 =
        .error .closed := by
  let task := returned ((start true 10).poll shutdownAsked) (by decide +kernel)
  have hrun : Run Step (start true 10) [.poll shutdownAsked] task :=
    .snoc .start (.poll (eq_ok_returned (by decide +kernel)))
  have hfinished : task.finished = true := by decide +kernel
  let task' := returned (task.poll shutdownAsked) (by decide +kernel)
  have hrun' : Run Step task [.poll shutdownAsked] task' :=
    .snoc .start (.poll (eq_ok_returned (by decide +kernel)))
  have hfinished' : task'.finished = true := by decide +kernel
  have hrank : task.connection.shutdown.state.rank = 2 := by decide +kernel
  obtain ⟨-, -, -, hstate, -, -, -, hevents, hclosed⟩ := shutdown_one_way hrun hrun'
  refine ⟨task, task', hfinished, ?_, hevents hfinished', fun request => ?_⟩
  · exact le_antisymm (ShutdownState.rank_le _) (hrank ▸ hstate)
  · exact ((hclosed hfinished).1 _ _ _ ⟨none, none⟩ 0 request ⟨none, none⟩).1

end Task
end Rtsp
