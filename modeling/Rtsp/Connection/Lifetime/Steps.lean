import Rtsp.Connection.Lifetime.Sound

/-!
# The steps of a connection and those around it

Every step keeps the invariant (`Sound.step`). Of a poll of the connection that is what
`Task.Ends` says of polls (`Sound.pollConnection`), put together with the channel to the
shutdown handler, from which the message is taken once; of the handler it is that its
event is sent by the poll that finishes it or by the drop, and never by both.

Of those who wait, a step either leaves them alone, and then the events can only have
come in the meantime (`Waits.mono`), or is a poll of one of them (`Sound.poll`), which
returns whatever the state and says which events have come.
-/

namespace Rtsp

open Lib

namespace Lifetime

variable {URI URIError : Type} {s s' : Lifetime URI} {r : ConnectionShutdownReceiver}
  {default : Nat}

namespace Sound

/-- A shutdown is asked for. -/
theorem ask (hs : s.Sound default) (shutdownType : ShutdownType)
    (hhandles : s.handles = 0 → shutdownType = .graceful default) :
    (s.ask shutdownType).Sound default := by
  have hasked : ∀ asked channel, channel = asks asked →
      (ConnectionShutdownSender.shutdown ⟨default, asked.isEmpty⟩ channel shutdownType).2 =
        asks (asked ++ [shutdownType]) := by
    rintro asked _ rfl
    cases asked with
    | nil => rfl
    | cons => rfl
  refine { hs with
    sender := ?_
    handles := fun h => ?_
    initiate := fun task htask hwaits => ?_
    timer := fun task htask duration htimer => ?_
    receivers := fun r hr => (hs.receivers r hr).mono id id id }
  · show (s.shutdownSender.shutdown s.initiate shutdownType).1 =
      ⟨default, (s.asked ++ [shutdownType]).isEmpty⟩
    rw [hs.sender]
    cases s.asked with
    | nil => rfl
    | cons => rfl
  · rw [← hhandles h]
    exact List.getLast?_concat
  · show (s.shutdownSender.shutdown s.initiate shutdownType).2 = asks (s.asked ++ [shutdownType])
    rw [hs.sender]
    exact hasked _ _ (hs.initiate task htask hwaits)
  · have hfirst := hs.timer task htask duration htimer
    show (s.asked ++ [shutdownType]).head? = _
    rw [List.head?_append, hfirst]
    rfl

/-- **The connection is polled.** -/
theorem pollConnection (hs : s.Sound default) {task task' : Task URI}
    {env : Connection.Answers URI URIError} (htask : s.task = some task)
    (hinitiate : env.shutdown.initiate = s.initiate.poll.1) (hpoll : task.poll env = .ok task') :
    Sound default { s with
      task := some task'
      initiate := s.initiated task.connection.shutdown task'.connection.shutdown
      connectionEvent := s.sendConnectionEvent task.events task'.events } := by
  obtain ⟨hends, hstays, hheard⟩ := (hs.task task htask).poll hpoll
  have hover : ∀ {s' : Lifetime URI}, s'.task = some task' →
      s.connectionOver = true → s'.connectionOver = true := by
    intro s' htask' h
    rw [connectionOver_some htask] at h
    rw [connectionOver_some htask', hstays h]
  refine { hs with
    task := fun _ heq => Option.some.inj heq ▸ hends
    connectionEvent := ?_
    receivers := fun r hr => (hs.receivers r hr).mono (hover rfl) id id
    initiate := fun _ heq hwaits => ?_
    timer := fun _ heq duration htimer => ?_ }
  · show s.sendConnectionEvent task.events task'.events = event task'.finished
    rw [sendConnectionEvent, hs.connectionEvent, connectionOver_some htask]
    refine event_send hstays ?_
    rw [(hs.task task htask).events, hends.events]
    cases task.finished <;> cases task'.finished <;> decide
  · cases heq
    rcases hheard with hheard | ⟨hforced, -⟩
    · -- It still waits, so nothing was there.
      obtain ⟨hwaited, hnotReady⟩ := hheard.waits hwaits
      have hasks := hs.initiate task htask hwaited
      have hwaited' : task.connection.shutdown.rxInitiateShutdown = true := hwaited
      show s.initiated task.connection.shutdown task'.connection.shutdown = asks s.asked
      rw [initiated, if_pos hwaited', if_pos hwaits]
      rw [hinitiate, hasks] at hnotReady
      cases hasked : s.asked with
      | nil =>
        rw [hasks, hasked]
        rfl
      | cons first rest =>
        rw [hasked] at hnotReady
        cases hnotReady
    · have hshut : task'.connection.shutdown = ⟨false, none, false⟩ :=
        congrArg Watched.handler hforced
      rw [hshut] at hwaits
      cases hwaits
  · cases heq
    rcases hheard with hheard | ⟨hforced, -⟩
    · rcases hheard.timer duration htimer with hbefore | ⟨hwaited, hreceived⟩
      · exact hs.timer task htask duration hbefore
      · rw [hinitiate, hs.initiate task htask hwaited] at hreceived
        show s.asked.head? = _
        cases hasked : s.asked with
        | nil =>
          rw [hasked] at hreceived
          cases hreceived
        | cons first rest =>
          rw [hasked] at hreceived
          cases hreceived
          rfl
    · have hshut : task'.connection.shutdown = ⟨false, none, false⟩ :=
        congrArg Watched.handler hforced
      rw [hshut] at htimer
      cases htimer

/-- The connection is dropped: its event is sent by then. -/
theorem dropConnection (hs : s.Sound default) {task : Task URI} (htask : s.task = some task) :
    Sound default { s with
      task := none
      initiate := s.initiate.close
      connectionEvent := (s.sendConnectionEvent task.events task.drop.events).close } := by
  have hends := hs.task task htask
  have hdropped : task.drop.events = 1 := by
    rw [Task.drop, hends.sound.watched.forceShutdown]
  have hevent : (s.sendConnectionEvent task.events task.drop.events).close = event true := by
    rw [sendConnectionEvent, hdropped, hends.events, hs.connectionEvent, connectionOver_some htask]
    cases task.finished with
    | true => rfl
    | false => rfl
  exact { hs with
    task := fun task h => absurd h.symm (Option.some_ne_none task)
    connectionEvent := hevent
    receivers := fun r hr => (hs.receivers r hr).mono (fun _ => rfl) id id
    initiate := fun task h => absurd h.symm (Option.some_ne_none task)
    timer := fun task h => absurd h.symm (Option.some_ne_none task) }

/-- **The request handler is polled.** -/
theorem pollHandler [RequestURI URI URIError] (hs : s.Sound default)
    {handler : RequestHandler.Task URI} {env : RequestHandler.Answers} {a : Async Unit}
    {h : RequestHandler URI} {t : List (RequestHandler.Event URI)}
    (hhandler : s.handler = some handler)
    (hpoll : handler.handler.poll env = .ok (a, h, t)) :
    Sound default
      { s with handler := some (handler.polled a h), handlerEvent := s.sendHandlerEvent t } := by
  obtain ⟨hsound, hfired⟩ := (hs.handler handler hhandler).poll hpoll
  have hstays : handler.finished = true → (handler.polled a h).finished = true := by
    intro hfinished
    show (handler.finished || _) = true
    rw [hfinished, Bool.true_or]
  have hover : s.handlerOver = true → (handler.polled a h).finished = true := by
    rw [handlerOver_some hhandler]
    exact hstays
  have hsame : (s.sendHandlerEvent t).isSome = s.handlerEvent.isSome := Option.isSome_map
  refine { hs with
    handler := fun _ heq => Option.some.inj heq ▸ hsound
    service := fun _ => hsame.trans (hs.service (by rw [hhandler]; rfl))
    handlerEvent := fun e he => ?_
    receivers := fun r hr => (hs.receivers r hr).mono id (hsame.trans ·) hover }
  obtain ⟨event, hevent, rfl⟩ := Option.map_eq_some_iff.mp he
  show _ = Lifetime.event (handler.polled a h).finished
  rw [hs.handlerEvent event hevent, handlerOver_some hhandler]
  exact event_send hstays (any_isFired.trans hfired)

/-- The request handler is dropped: its event is sent by then. -/
theorem dropHandler (hs : s.Sound default) {handler : RequestHandler.Task URI}
    (hhandler : s.handler = some handler) :
    Sound default { s with
      handler := none
      handlerEvent :=
        (s.sendHandlerEvent (RequestHandler.shutdown (handler.handler, [])).2).map (·.close) } := by
  have hsame : ((s.sendHandlerEvent (RequestHandler.shutdown (handler.handler, [])).2).map
      (·.close)).isSome = s.handlerEvent.isSome := Option.isSome_map.trans Option.isSome_map
  refine { hs with
    handler := fun _ h => nomatch h
    service := fun h => nomatch h
    handlerEvent := fun e he => ?_
    receivers := fun r hr => (hs.receivers r hr).mono id (hsame.trans ·) fun _ => rfl }
  obtain ⟨sent, hsent, rfl⟩ := Option.map_eq_some_iff.mp he
  obtain ⟨event, hevent, rfl⟩ := Option.map_eq_some_iff.mp hsent
  show _ = Lifetime.event true
  rw [hs.handlerEvent event hevent, handlerOver_some hhandler, RequestHandler.shutdown,
    (hs.handler handler hhandler).event]
  cases handler.finished with
  | true => rfl
  | false => rfl

/-- What those who wait are told is what they wait for. -/
theorem poll (hs : s.Sound default) (hr : s.Waits r) : ∃ a r', r.poll s.answers = .ok (a, r') ∧
    (a = .ready () ↔ s.connectionOver = true ∧ s.handlerOver = true) ∧ s.Waits r' := by
  have hconnection : ∀ message, ConnectionShutdownReceiver.pollEvent message
      r.rxConnectionShutdownEvent s.answers.connection = .ok (!s.connectionOver) := by
    intro message
    have hover := hr.connection
    rw [answers, hs.connectionEvent]
    unfold ConnectionShutdownReceiver.pollEvent
    cases hwaits : r.rxConnectionShutdownEvent with
    | false =>
      rw [hover hwaits]
      rfl
    | true => cases s.connectionOver <;> rfl
  have hhandler : ∀ message, ConnectionShutdownReceiver.pollEvent message
      r.rxHandlerShutdownEvent s.answers.handler = .ok (!s.handlerOver) := by
    intro message
    have hover := hr.handler
    rw [answers]
    unfold ConnectionShutdownReceiver.pollEvent
    cases hwaits : r.rxHandlerShutdownEvent with
    | false =>
      rw [hover hwaits]
      rfl
    | true =>
      obtain ⟨e, he⟩ := Option.isSome_iff_exists.mp (hr.service hwaits)
      rw [he, hs.handlerEvent e he]
      cases s.handlerOver <;> rfl
  rw [ConnectionShutdownReceiver.poll, hconnection, ok_bind, hhandler, ok_bind]
  refine ⟨_, _, rfl, ?_, ⟨by simp, fun hwaits => ?_, by simp⟩⟩
  · cases s.connectionOver <;> cases s.handlerOver <;> simp
  · -- Without a handler it is over from the start.
    cases hservice : s.handler with
    | some handler => exact hs.service (by rw [hservice]; rfl)
    | none =>
      rw [handlerOver, hservice] at hwaits
      cases hwaits

variable [RequestURI URI URIError] {op : Op URI URIError}

/-- **Every step keeps it.** -/
theorem step (hs : s.Sound default) (h : Step s op s') : s'.Sound default := by
  cases h with
  | pollConnection htask hinitiate _ hpoll => exact hs.pollConnection htask hinitiate hpoll
  | send messages htask =>
    have hover := connectionOver_some htask
    exact { hs with
      task := fun _ heq => Option.some.inj heq ▸ (hs.task _ htask).send messages
      connectionEvent := hs.connectionEvent.trans (congrArg event hover)
      receivers := fun r hr => (hs.receivers r hr).mono hover.symm.trans id id
      initiate := fun _ heq hwaits => by
        cases heq
        exact hs.initiate _ htask hwaits
      timer := fun _ heq duration htimer => by
        cases heq
        exact hs.timer _ htask duration htimer }
  | dropConnection htask => exact hs.dropConnection htask
  | @arrive handler cseq request hhandler hopen =>
    have hsound := hs.handler _ hhandler
    have hover := handlerOver_some hhandler
    have hrunning : handler.finished = false := Bool.eq_false_iff.mpr fun hfinished => by
      rw [(hsound.finished hfinished).2.1] at hopen
      cases hopen
    exact { hs with
      handler := fun _ heq =>
        Option.some.inj heq ▸ ⟨hsound.event, fun h => nomatch hrunning.symm.trans h⟩
      service := fun _ => hs.service (by rw [hhandler]; rfl)
      handlerEvent := fun e he => (hs.handlerEvent e he).trans (congrArg event hover)
      receivers := fun r hr => (hs.receivers r hr).mono id id hover.symm.trans }
  | endIncoming hhandler =>
    have hsound := hs.handler _ hhandler
    have hover := handlerOver_some hhandler
    exact { hs with
      handler := fun _ heq => Option.some.inj heq ▸ ⟨hsound.event, fun hfinished =>
        ⟨(hsound.finished hfinished).1, rfl, (hsound.finished hfinished).2.2⟩⟩
      service := fun _ => hs.service (by rw [hhandler]; rfl)
      handlerEvent := fun e he => (hs.handlerEvent e he).trans (congrArg event hover)
      receivers := fun r hr => (hs.receivers r hr).mono id id hover.symm.trans }
  | pollHandler hhandler hpoll => exact hs.pollHandler hhandler hpoll
  | dropHandler hhandler => exact hs.dropHandler hhandler
  | cloneHandle =>
    exact { hs with
      handles := nofun
      receivers := fun r hr => (hs.receivers r hr).mono id id id }
  | dropHandle hhandles =>
    split
    · next hone =>
      have hdefault : s.shutdownSender.default = .graceful default := by
        rw [hs.sender]
        rfl
      have hasked := hs.ask s.shutdownSender.default fun _ => hdefault
      exact { hasked with
        handles := fun _ => List.getLast?_concat.trans (congrArg some hdefault)
        receivers := fun r hr => (hs.receivers r hr).mono id id id }
    · next hmore =>
      exact { hs with
        handles := fun h => absurd h (by dsimp only; omega)
        receivers := fun r hr => (hs.receivers r hr).mono id id id }
  | shutdown shutdownType hhandles =>
    exact hs.ask shutdownType fun h => absurd h (Nat.ne_of_gt hhandles)
  | shutdownReceiver =>
    refine { hs with receivers := fun r hr => ?_ }
    rcases List.mem_append.mp hr with hr | hr
    · exact (hs.receivers r hr).mono id id id
    · cases List.mem_singleton.mp hr
      refine ⟨nofun, id, fun hnone => ?_⟩
      cases hhandler : s.handler with
      | some handler =>
        have hservice := hs.service (by rw [hhandler]; rfl)
        cases hservice.symm.trans hnone
      | none => rfl
  | cloneReceiver hr =>
    refine { hs with receivers := fun r' hr' => ?_ }
    rcases List.mem_append.mp hr' with hr' | hr'
    · exact (hs.receivers r' hr').mono id id id
    · cases List.mem_singleton.mp hr'
      exact (hs.receivers _ (List.mem_of_getElem? hr)).mono id id id
  | pollReceiver hr hpoll =>
    refine { hs with receivers := fun r' hr' => ?_ }
    rcases List.mem_or_eq_of_mem_set hr' with hr' | rfl
    · exact (hs.receivers r' hr').mono id id id
    · obtain ⟨a, r'', hpoll', -, hwaits⟩ := hs.poll (hs.receivers _ (List.mem_of_getElem? hr))
      cases hpoll.symm.trans hpoll'
      exact hwaits.mono id id id

theorem of_run {service : Bool} {size : Nat} {duration : Option Nat} {ops : List (Op URI URIError)}
    (h : Run Step (start service size duration default) ops s) : s.Sound default :=
  h.invariant (sound_start service size duration default) fun _ _ _ hs hstep => hs.step hstep

end Sound

end Lifetime
end Rtsp
