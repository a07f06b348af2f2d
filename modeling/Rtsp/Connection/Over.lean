import Rtsp.Connection.OneWay
import Rtsp.Connection.Prompt

/-!
# When a task is over

The task of a connection and that of its request handler each have an event that is sent
when the task is over. A poll of either sends its event exactly if it is the one that is
ready first (`Task.Ends.poll`, `RequestHandler.Task.Sound.poll`), and from then on there
is nothing left for the task to do.

The code has no flag for a task that is over. The runtime drops a future that has been
ready, and it is not polled again. Here it is kept, with `finished`, and may be polled
on: an event that is sent once would otherwise be sent once for no better reason than
that.

`Steady` and `Watched.Hears` are what the results leave of the rest of a poll. A poll of
the handler sends responses and calls the service, and none of that has to do with its
event. A poll of the connection reads, writes and forwards, and of all that its shutdown
handler learns only whether both directions have ended.
-/

namespace Rtsp

open Lib

/-! ## The request handler -/

namespace RequestHandler

variable {URI URIError : Type} {s s' s'' : State URI} {env : Answers} {a : Async Unit}

/-- What all of a poll does but for its end: the event is not sent. -/
structure Steady (s s' : State URI) : Prop where
  event : s'.1.txShutdownEvent = s.1.txShutdownEvent
  ended : s'.1.incomingEnded = s.1.incomingEnded
  fired : .fired ∈ s'.2 ↔ .fired ∈ s.2

namespace Steady

theorem refl (s : State URI) : Steady s s := ⟨rfl, rfl, Iff.rfl⟩

theorem trans (h : Steady s s') (h' : Steady s' s'') : Steady s s'' :=
  ⟨h'.event.trans h.event, h'.ended.trans h.ended, h'.fired.trans h.fired⟩

theorem sendResponse (senderOpen : Bool) (cseq : CSeq) (response : Response) (s : State URI) :
    Steady s (sendResponse senderOpen cseq response s) := by
  obtain ⟨h, t⟩ := s
  unfold RequestHandler.sendResponse
  dsimp only
  split
  · split
    · exact ⟨rfl, rfl, by simp⟩
    · exact ⟨rfl, rfl, Iff.rfl⟩
  · exact refl _

theorem respond (senderOpen : Bool) (cseq : CSeq) (response : Response) (s : State URI) :
    Steady s (respond senderOpen cseq response s) := by
  obtain ⟨hevent, hended, hfired⟩ := sendResponse senderOpen cseq response s
  exact ⟨hevent, hended, hfired⟩

theorem pollContinueTimer {senderOpen : Bool} {cseq : CSeq} {answers : List DelayAnswer}
    (h : pollContinueTimer senderOpen cseq answers s = .ok (a, s')) : Steady s s' := by
  induction answers generalizing s with
  | nil =>
    unfold RequestHandler.pollContinueTimer at h
    split at h <;> cases h <;> exact refl _
  | cons answer answers ih =>
    obtain ⟨r, t⟩ := s
    cases answer with
    | expired =>
      unfold RequestHandler.pollContinueTimer at h
      dsimp only at h
      split at h
      · have hsent := sendResponse senderOpen cseq CONTINUE_RESPONSE (r, t)
        refine hsent.trans (Steady.trans ?_ (ih h))
        rw [resetContinueTimer_eq]
        exact ⟨rfl, rfl, Iff.rfl⟩
      · cases h
        exact refl _
    | atCapacity =>
      unfold RequestHandler.pollContinueTimer at h
      split at h
      · have hshed : Steady (r, t) ({ r with continueTimer := false }, t) := ⟨rfl, rfl, Iff.rfl⟩
        exact hshed.trans (ih h)
      · cases h
        exact refl _
    | shutdown =>
      unfold RequestHandler.pollContinueTimer at h
      split at h
      · cases h
      · cases h
        exact refl _
    | notReady =>
      unfold RequestHandler.pollContinueTimer at h
      split at h <;> cases h <;> exact refl _

theorem pollServicedRequest {answer : ServiceAnswer}
    (h : pollServicedRequest env answer s = .ok (a, s')) : Steady s s' := by
  obtain ⟨r, t⟩ := s
  unfold RequestHandler.pollServicedRequest at h
  dsimp only at h
  split at h
  · cases answer with
    | ready response =>
      cases h
      exact respond _ _ _ _
    | error =>
      cases h
      exact respond _ _ _ _
    | notReady =>
      obtain ⟨⟨result, s''⟩, htimer, h⟩ := bind_eq_ok h
      have hsteady := pollContinueTimer htimer
      cases result <;> cases h <;> exact hsteady
  · cases h
    exact refl _

theorem processRequest [RequestURI URI URIError] (senderOpen : Bool) (cseq : CSeq)
    (request : Request URI) (s : State URI) :
    Steady s (processRequest senderOpen cseq request s) := by
  rw [processRequest_eq]
  split
  · exact sendResponse _ _ _ s
  · obtain ⟨h, t⟩ := s
    rw [callService, resetContinueTimer_eq]
    exact ⟨rfl, rfl, by simp⟩

end Steady

variable [RequestURI URI URIError]

/-- **A poll that is ready has come to the end of the channel**, and shuts the handler down. -/
theorem pollLoop_over {answers : List ServiceAnswer} {incoming : List (CSeq × Request URI)}
    (hs : s.1.incoming = incoming) (h : pollLoop env answers incoming s = .ok (a, s')) :
    (a = .notReady ∧ Steady s s') ∨
      (a = .ready () ∧ ∃ s₁, Steady s s₁ ∧ s₁.1.incoming = [] ∧ s₁.1.incomingEnded = true ∧
        s' = shutdown s₁) := by
  induction incoming generalizing answers s with
  | nil =>
    obtain ⟨⟨result, r, t⟩, hserviced, h⟩ := bind_eq_ok h
    have hsteady := Steady.pollServicedRequest hserviced
    obtain ⟨-, hincoming, -⟩ := pollServicedRequest_turns hserviced
    cases result with
    | notReady =>
      cases h
      exact .inl ⟨rfl, hsteady⟩
    | ready =>
      dsimp only at h
      split at h
      · next hended =>
        cases h
        exact .inr ⟨rfl, _, hsteady, hincoming.trans hs, hended, rfl⟩
      · cases h
        exact .inl ⟨rfl, hsteady⟩
  | cons next incoming ih =>
    obtain ⟨cseq, request⟩ := next
    obtain ⟨⟨result, r, t⟩, hserviced, h⟩ := bind_eq_ok h
    have hsteady := Steady.pollServicedRequest hserviced
    cases result with
    | notReady =>
      cases h
      exact .inl ⟨rfl, hsteady⟩
    | ready =>
      dsimp only at h
      have hprocessed : Steady s
          (RequestHandler.processRequest env.senderOpen cseq request ({ r with incoming }, t)) :=
        hsteady.trans ((⟨rfl, rfl, Iff.rfl⟩ : Steady (r, t) ({ r with incoming }, t)).trans
          (.processRequest _ _ _ _))
      have hincoming : (RequestHandler.processRequest env.senderOpen cseq request
          ({ r with incoming }, t)).1.incoming = incoming := by
        rw [processRequest_eq]
        split
        · rw [sendResponse_fst]
        · rw [callService, resetContinueTimer_eq]
      rcases ih hincoming h with ⟨ha, hrest⟩ | ⟨ha, s₁, hrest, hover⟩
      · exact .inl ⟨ha, hprocessed.trans hrest⟩
      · exact .inr ⟨ha, s₁, hprocessed.trans hrest, hover⟩

/-- A handler, and whether one of its polls has been ready. -/
structure Task (URI : Type) where
  handler : RequestHandler URI
  finished : Bool

namespace Task

/-- The event has been sent exactly if the task is over, and then nothing is left to do. -/
structure Sound (task : Task URI) : Prop where
  event : task.handler.txShutdownEvent = !task.finished
  finished : task.finished = true → task.handler.incoming = [] ∧
    task.handler.incomingEnded = true ∧ task.handler.servicedRequest = none

/-- The task once a poll has come out so. -/
def polled (task : Task URI) (a : Async Unit) (h : RequestHandler URI) : Task URI :=
  ⟨h, task.finished || a = .ready ()⟩

/-- **A poll sends the event exactly if it is the first to be ready.** -/
theorem Sound.poll {task : Task URI} (hs : task.Sound) {h : RequestHandler URI}
    {t : List (Event URI)} (hpoll : task.handler.poll env = .ok (a, h, t)) :
    (task.polled a h).Sound ∧
      (.fired ∈ t ↔ task.finished = false ∧ (task.polled a h).finished = true) := by
  obtain ⟨handler, finished⟩ := task
  cases finished with
  | true =>
    -- There is nothing left, so the poll is ready again.
    obtain ⟨hincoming, hended, hidle⟩ := hs.finished rfl
    have hevent : handler.txShutdownEvent = false := hs.event
    rw [RequestHandler.poll, show handler.incoming = [] from hincoming, pollLoop_idle hidle]
      at hpoll
    have hlast := congrArg Prod.snd (Except.ok.inj hpoll)
    rw [finish_snd, if_pos hended, hevent, if_neg Bool.false_ne_true, List.append_nil] at hlast
    cases hlast
    exact ⟨⟨rfl, fun _ => ⟨hincoming, hended, rfl⟩⟩, by simp⟩
  | false =>
    have hevent : handler.txShutdownEvent = true := hs.event
    rcases pollLoop_over (s := (handler, [])) rfl hpoll with
      ⟨rfl, hsteady⟩ | ⟨rfl, ⟨h₁, t₁⟩, hsteady, hincoming, hended, hlast⟩
    · refine ⟨⟨hsteady.event.trans hevent, fun h => absurd h Bool.false_ne_true⟩, ?_⟩
      rw [hsteady.fired]
      simp [polled]
    · rw [shutdown, if_pos (hsteady.event.trans hevent)] at hlast
      cases hlast
      exact ⟨⟨rfl, fun _ => ⟨hincoming, hended, rfl⟩⟩, by simp [polled]⟩

end Task

end RequestHandler

/-! ## The connection -/

namespace Watched

variable {w w' : Watched} {env : ShutdownHandler.Answers} {r : Async Unit}

/-- What a poll of the shutdown handler makes of what it is told. -/
structure Hears (env : ShutdownHandler.Answers) (w w' : Watched) : Prop where
  waits : w'.handler.rxInitiateShutdown = true →
    w.handler.rxInitiateShutdown = true ∧ env.initiate = .notReady
  timer : ∀ duration, w'.handler.timer = some duration → w.handler.timer = some duration ∨
    w.handler.rxInitiateShutdown = true ∧ env.initiate = .received (.graceful duration)
  immediate : w.handler.rxInitiateShutdown = true → env.initiate = .received .immediate →
    w'.handler.state = .shutdown

theorem Sound.hears (hw : w.Sound) (h : w.poll env = .ok (r, w')) : Hears env w w' := by
  obtain ⟨initiate, timer⟩ := env
  cases hw with
  | running =>
    cases initiate with
    | received shutdownType =>
      cases shutdownType with
      | graceful duration =>
        cases timer with
        | expired | atCapacity =>
          cases h
          exact ⟨nofun, nofun, nofun⟩
        | notReady =>
          cases h
          refine ⟨nofun, fun duration' heq => .inr ⟨rfl, ?_⟩, nofun⟩
          cases heq
          rfl
        | shutdown => cases h
      | immediate =>
        cases h
        exact ⟨nofun, nofun, fun _ _ => rfl⟩
    | notReady =>
      cases h
      exact ⟨fun _ => ⟨rfl, rfl⟩, nofun, nofun⟩
    | canceled =>
      cases h
      exact ⟨nofun, nofun, nofun⟩
  | shuttingDown duration =>
    cases timer with
    | expired | atCapacity =>
      cases h
      exact ⟨nofun, nofun, nofun⟩
    | notReady =>
      cases h
      exact ⟨nofun, fun _ heq => .inl heq, nofun⟩
    | shutdown => cases h
  | shutdown =>
    cases h
    exact ⟨nofun, nofun, nofun⟩

end Watched

namespace Task

variable {URI URIError : Type} {task task' : Task URI} {env : Connection.Answers URI URIError}

/-- A task that has shut down is over. -/
structure Ends (task : Task URI) : Prop where
  sound : task.Sound
  finishes : task.connection.shutdown.state = .shutdown → task.finished = true

theorem ends_start (service : Bool) (size : Nat) : (start service size : Task URI).Ends :=
  ⟨sound_start service size, nofun⟩

theorem Ends.send (hs : task.Ends) (messages : List (Message URI)) :
    Ends { task with connection := { task.connection with
      sender := task.connection.sender.map (·.enqueue messages) } } where
  sound := by
    refine ⟨hs.sound.watched, fun hfinished => ?_⟩
    obtain ⟨hdown, hreceiver, hsender, hstate⟩ := hs.sound.finished hfinished
    exact ⟨hdown, hreceiver, Option.map_eq_none_iff.mpr hsender, hstate⟩
  finishes := hs.finishes

/-- The event has been sent exactly if the task is over. -/
theorem Ends.events (hs : task.Ends) : task.events = if task.finished then 1 else 0 := by
  have hwatched := hs.sound.watched
  cases hfinished : task.finished with
  | true => exact hwatched.events_of_shutdown (hs.sound.finished hfinished).2.2.2
  | false =>
    have hstate : task.connection.shutdown.state ≠ .shutdown := fun h => by
      rw [hs.finishes h] at hfinished
      cases hfinished
    unfold watched at hwatched
    generalize task.connection.shutdown = shutdown, task.events = events at *
    cases hwatched with
    | running => rfl
    | shuttingDown => rfl
    | shutdown => exact absurd rfl hstate

/-- How the shutdown handler comes out of the end of a poll: as it was polled, or shut down with
    the rest. -/
theorem settle_watched {c : Connection URI} {w : Watched} (hw : w.Sound)
    (h : task.settle c w env = .ok task') :
    (task'.watched = w ∧ (w.handler.state = .shutdown → task'.finished = true)) ∨
      (task'.watched = ⟨⟨false, none, false⟩, 1⟩ ∧ task'.finished = true) := by
  obtain ⟨state, -, h⟩ := bind_eq_ok h
  have hsame := (Connection.Sheds.handleShutdownState { c with shutdown := w.handler } env).shutdown
  have hstate : w.handler.state = .shutdown →
      ({ c with shutdown := w.handler }.handleShutdownState env).1 = .ready () := by
    intro hstate
    unfold Connection.handleShutdownState
    dsimp only
    rw [hstate]
  generalize { c with shutdown := w.handler }.handleShutdownState env = handled at h hsame hstate
  obtain ⟨result, c'⟩ := handled
  cases result with
  | ready =>
    cases h
    refine .inl ⟨?_, fun _ => rfl⟩
    rw [watched, show c'.shutdown = w.handler from hsame]
  | notReady =>
    dsimp only at h
    split at h
    · cases h
      refine .inr ⟨?_, rfl⟩
      rw [← hw.forceShutdown]
      rfl
    · cases h
      refine .inl ⟨?_, fun h => nomatch hstate h⟩
      rw [watched, show c'.shutdown = w.handler from hsame]

/-- **A poll of the connection, for its shutdown handler.** -/
theorem Ends.poll (hs : task.Ends) (h : task.poll env = .ok task') :
    task'.Ends ∧ (task.finished = true → task'.finished = true) ∧
      (Watched.Hears env.shutdown task.watched task'.watched ∨
        task'.watched = ⟨⟨false, none, false⟩, 1⟩ ∧ task'.finished = true) := by
  obtain ⟨hsound, -, hstays⟩ := poll_onward hs.sound h
  obtain ⟨⟨c, received⟩, hreceiver, h⟩ := bind_eq_ok h
  obtain ⟨⟨r, w⟩, hpoll, h⟩ := bind_eq_ok h
  have hsheds := (Connection.Sheds.pollReceiver hreceiver).trans (.pollSender c env)
  rw [hsheds.shutdown] at hpoll
  have hw := (hs.sound.watched.poll hpoll).1
  rcases settle_watched hw h with ⟨hsame, hover⟩ | ⟨hforced, hfinished⟩
  · refine ⟨⟨hsound, fun hstate => hover ?_⟩, hstays, .inl ?_⟩
    · rw [← hsame]
      exact hstate
    · rw [hsame]
      exact hs.sound.watched.hears hpoll
  · exact ⟨⟨hsound, fun _ => hfinished⟩, hstays, .inr ⟨hforced, hfinished⟩⟩

end Task
end Rtsp
