import Rtsp.Connection.Lifetime.Steps

/-!
# The lifetime of a connection

Two results about the whole of it, in every run of the two tasks, the handles and those
who wait. Whoever waits is told once both tasks are over and not before, and waiting
never fails (`shutdown_told`). What ends the connection is the first shutdown that was
asked for (`first_shutdown_counts`).

Neither says that a connection ever ends. It need not: a task that is not polled does
nothing, and one that is polled may wait for its peer as long as it likes. What is said
is what a poll does once it has heard of a shutdown.

A poll that panics is no step of the system. The task it was a poll of is dropped by its
executor then, and dropping a task is a step.
-/

namespace Rtsp

open Lib

namespace Lifetime

variable {URI URIError : Type} {s s' : Lifetime URI} {default : Nat}

section Results

variable [RequestURI URI URIError] {op : Op URI URIError} {ops : List (Op URI URIError)}
  {service : Bool} {size : Nat} {duration : Option Nat}

/-- What is over stays so. -/
theorem Sound.over_step (hs : s.Sound default) (h : Step s op s') (hover : s.Over) : s'.Over := by
  obtain ⟨hconnection, hhandler⟩ := hover
  cases h with
  | pollConnection htask _ _ hpoll =>
    obtain ⟨-, hstays, -⟩ := (hs.task _ htask).poll hpoll
    exact ⟨fun _ heq => Option.some.inj heq ▸ hstays (hconnection _ htask), hhandler⟩
  | send messages htask =>
    have hfinished := hconnection _ htask
    exact ⟨fun _ heq => Option.some.inj heq ▸ hfinished, hhandler⟩
  | dropConnection => exact ⟨(fun _ heq => nomatch heq), hhandler⟩
  | arrive _ _ h _ =>
    have hfinished := hhandler _ h
    exact ⟨hconnection, fun _ heq => Option.some.inj heq ▸ hfinished⟩
  | endIncoming h =>
    have hfinished := hhandler _ h
    exact ⟨hconnection, fun _ heq => Option.some.inj heq ▸ hfinished⟩
  | pollHandler h _ =>
    refine ⟨hconnection, fun _ heq => Option.some.inj heq ▸ ?_⟩
    show (_ || _) = true
    rw [hhandler _ h, Bool.true_or]
  | dropHandler => exact ⟨hconnection, fun _ heq => nomatch heq⟩
  | dropHandle =>
    split
    · exact ⟨hconnection, hhandler⟩
    · exact ⟨hconnection, hhandler⟩
  | _ => exact ⟨hconnection, hhandler⟩

/-- **Whoever waits is told.** In every run of the two tasks, the handles and those who wait, a
    poll of one who waits returns, and it is ready exactly if both tasks are over. Then the
    connection neither receives nor sends, and the handler has worked off its channel, unless they
    were dropped; and so it stays. -/
theorem shutdown_told (h : Run Step (start service size duration default) ops s) :
    (∀ r ∈ s.receivers, ∃ a r', r.poll s.answers = .ok (a, r') ∧ (a = .ready () ↔ s.Over)) ∧
    (s.Over →
      (∀ task, s.task = some task → task.connection.allowRequests = false ∧
        task.connection.receiver = none ∧ task.connection.sender = none) ∧
      (∀ handler, s.handler = some handler → handler.handler.incoming = [] ∧
        handler.handler.incomingEnded = true ∧ handler.handler.servicedRequest = none) ∧
      ∀ (later : List (Op URI URIError)) s', Run Step s later s' → s'.Over) := by
  have hs := Sound.of_run h
  refine ⟨fun r hr => ?_, fun hover => ⟨fun task htask => ?_, fun handler hhandler => ?_, ?_⟩⟩
  · obtain ⟨a, r', hpoll, hready, -⟩ := hs.poll (hs.receivers r hr)
    exact ⟨a, r', hpoll, hready.trans over_iff.symm⟩
  · obtain ⟨hdown, hreceiver, hsender, -⟩ :=
      (hs.task task htask).sound.finished (hover.connection task htask)
    exact ⟨hdown, hreceiver, hsender⟩
  · exact (hs.handler handler hhandler).finished (hover.handler handler hhandler)
  · intro later s' hlater
    exact (hlater.invariant (I := fun s => s.Sound default ∧ s.Over) ⟨hs, hover⟩
      fun _ _ _ hboth hstep => ⟨hboth.1.step hstep, hboth.1.over_step hstep hboth.2⟩).2

/-- A shutdown at once has been asked for, and somebody waits for it. -/
def asking : Lifetime AsteriskURI :=
  { (start true 10 none 5).ask .immediate with receivers := [⟨true, true⟩] }

theorem run_asking : ∃ ops, Run Step (start true 10 none 5) ops asking := by
  have hstart : Run Step (start true 10 none 5 : Lifetime AsteriskURI) [] _ := .start
  have hwaiting := hstart.snoc (.shutdownReceiver (Nat.succ_pos 0))
  exact ⟨_, hwaiting.snoc (.shutdown .immediate (Nat.succ_pos 0))⟩

/-- The handler with nothing to do. -/
def handlerEnded : RequestHandler AsteriskURI :=
  { RequestHandler.new none with incomingEnded := true }

/-- Who waits is told once the connection has heard of the shutdown and the handler of the end. -/
theorem shutdown_told_immediate : ∃ (ops : List (Op AsteriskURI Unit)) (s : Lifetime AsteriskURI)
    (r' : ConnectionShutdownReceiver), Run Step (start true 10 none 5) ops s ∧
      s.receivers = [⟨true, true⟩] ∧
      ConnectionShutdownReceiver.poll ⟨true, true⟩ s.answers = .ok (.ready (), r') := by
  obtain ⟨ops, hrun⟩ := run_asking
  let task := returned ((Task.start true 10).poll Task.shutdownAsked) (by decide +kernel)
  have hok : (Task.start true 10).poll Task.shutdownAsked = .ok task :=
    eq_ok_returned (by decide +kernel)
  have hpoll := hrun.snoc (.pollConnection rfl rfl (fun _ heq => by cases heq; rfl) hok)
  have hended := hpoll.snoc (.endIncoming rfl)
  have hhandled := hended.snoc (.pollHandler rfl
    (rfl : handlerEnded.poll ⟨false, [], []⟩ =
      .ok (.ready (), RequestHandler.shutdown (handlerEnded, []))))
  have hfinished : task.finished = true := by decide +kernel
  obtain ⟨a, r', hpolled, hready⟩ := (shutdown_told hhandled).1 ⟨true, true⟩ (.head _)
  obtain rfl := hready.mpr ⟨fun _ heq => Option.some.inj heq ▸ hfinished,
    fun _ heq => Option.some.inj heq ▸ rfl⟩
  exact ⟨_, _, r', hhandled, rfl, hpolled⟩

/-- **The first shutdown counts.** In every run, as long as the connection listens, it is told of
    the first shutdown that was asked for and of no other, and never that there is nobody to
    ask. A timer that runs is the one of that shutdown. When all handles are gone, the last one has
    asked for a graceful shutdown. The first poll after one was asked for leaves the running state,
    and if it was to be immediate, then the connection is over. -/
theorem first_shutdown_counts (h : Run Step (start service size duration default) ops s)
    {task : Task URI} (htask : s.task = some task) :
    (task.connection.shutdown.rxInitiateShutdown = true →
      s.initiate.poll.1 = (s.asked.head?.map .received).getD .notReady) ∧
    (∀ timer, task.connection.shutdown.timer = some timer →
      s.asked.head? = some (.graceful timer)) ∧
    (s.handles = 0 → s.asked.getLast? = some (.graceful default)) ∧
    ∀ first, s.asked.head? = some first → ∀ (env : Connection.Answers URI URIError) s',
      Step s (.pollConnection env) s' →
      ∃ task', s'.task = some task' ∧ task'.connection.shutdown.state ≠ .running ∧
        (first = .immediate → task'.finished = true) := by
  have hs := Sound.of_run h
  refine ⟨fun hwaits => ?_, hs.timer task htask, hs.handles, fun first hfirst env s' hstep => ?_⟩
  · rw [hs.initiate task htask hwaits]
    cases s.asked with
    | nil => rfl
    | cons => rfl
  · cases hstep with
    | @pollConnection task₁ _ task' htask₁ hinitiate _ hpoll =>
      cases htask.symm.trans htask₁
      obtain ⟨hends, hstays, hheard⟩ := (hs.task task htask).poll hpoll
      refine ⟨task', rfl, ?_⟩
      rcases hheard with hheard | ⟨hforced, hfinished⟩
      · obtain ⟨rest, hasked⟩ : ∃ rest, s.asked = first :: rest :=
          List.head?_eq_some_iff.mp hfirst
        -- While it listens, the channel holds the first one.
        have htold : task.connection.shutdown.rxInitiateShutdown = true →
            env.shutdown.initiate = .received first := by
          intro hwaits
          rw [hinitiate, hs.initiate task htask hwaits, hasked]
          rfl
        have hdeaf : task'.connection.shutdown.rxInitiateShutdown ≠ true := by
          intro hwaits
          obtain ⟨hwaited, hnotReady⟩ := hheard.waits hwaits
          cases (htold hwaited).symm.trans hnotReady
        refine ⟨fun hstate => ?_, ?_⟩
        · unfold ShutdownHandler.state at hstate
          rw [if_neg hdeaf] at hstate
          split at hstate
          · cases hstate
          · cases hstate
        · rintro rfl
          by_cases hwaited : task.connection.shutdown.rxInitiateShutdown = true
          · exact hends.finishes (hheard.immediate hwaited (htold hwaited))
          · refine hstays ((hs.task task htask).finishes ?_)
            unfold ShutdownHandler.state
            rw [if_neg hwaited, if_neg]
            intro htimer
            obtain ⟨timer, htimer⟩ := Option.isSome_iff_exists.mp htimer
            cases hfirst.symm.trans (hs.timer task htask timer htimer)
      · have hshut : task'.connection.shutdown = ⟨false, none, false⟩ :=
          congrArg Watched.handler hforced
        refine ⟨?_, fun _ => hfinished⟩
        rw [hshut]
        exact nofun

/-- The poll that hears of an immediate shutdown is the last one that is called for. -/
theorem first_shutdown_counts_immediate : ∃ (s : Lifetime AsteriskURI) (task : Task AsteriskURI),
    Step asking (.pollConnection Task.shutdownAsked) s ∧ s.task = some task ∧
      task.finished = true := by
  obtain ⟨ops, hrun⟩ := run_asking
  let task := returned ((Task.start true 10).poll Task.shutdownAsked) (by decide +kernel)
  have hok : (Task.start true 10).poll Task.shutdownAsked = .ok task :=
    eq_ok_returned (by decide +kernel)
  have hpoll : Step asking (.pollConnection Task.shutdownAsked) _ :=
    .pollConnection rfl rfl (fun _ heq => by cases heq; rfl) hok
  obtain ⟨-, -, -, hnext⟩ := first_shutdown_counts hrun rfl
  obtain ⟨task', htask', -, hfinished⟩ := hnext .immediate rfl _ _ hpoll
  exact ⟨_, task', hpoll, htask', hfinished rfl⟩

end Results

end Lifetime
end Rtsp
