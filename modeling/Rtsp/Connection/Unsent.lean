import Rtsp.Connection.Accounts

/-!
# Responses when the sender goes

The last part of a poll drops the sender without a look at what is still in it. There
are two ways to get there (`Drops`, and that there are no others is `drops_iff`): the
receiver is gone and the request handler has told that it is done, or the shutdown
handler has come to its last state. No handle asks for an immediate shutdown here, so the
latter means that the last handle was dropped and the time of the graceful shutdown is up,
or its timer fails. A response is then lost if the sink did not take and flush it in the
same poll, or if it came after the sender had been polled (`response_unsent`).

`Patient` excludes just that. It is stated by the answers of the sink, and by what the
request handler did between two parts of the poll, since those are what the rest of the
program has a hand in; it does not say that the response gets out, which is what
`responses_flushed` concludes. It is asked for in no other poll: while the sender is kept,
what the sink does not take is kept as well, and a sender that ends by itself has nothing
left to send.
-/

namespace Rtsp

open Lib

namespace ShutdownHandler

variable {h h' : ShutdownHandler} {env : Answers} {r : Async Unit}

/-- A poll comes to the state in which everything is let go. -/
def Stops (h : ShutdownHandler) (env : Answers) : Prop :=
  match h.state with
  | .running =>
    match env.initiate with
    | .received (.graceful _) => env.timer = .expired ∨ env.timer = .atCapacity
    | .received .immediate => True
    | .canceled => True
    | .notReady => False
  | .shuttingDown => env.timer = .expired ∨ env.timer = .atCapacity
  | .shutdown => True

theorem poll_of_shuttingDown (hh : h.state = .shuttingDown) (env : Answers) :
    h.poll env = match env.timer with
      | .expired => .ok (.ready (), h.forceShutdown)
      | .atCapacity => .ok (.ready (), h.forceShutdown)
      | .notReady => .ok (.notReady, h)
      | .shutdown => .error (.expect "shutdown timer should not be shutdown") := by
  obtain ⟨rx, timer, tx⟩ := h
  obtain ⟨initiate, delay⟩ := env
  cases rx with
  | true => cases hh
  | false =>
    cases timer with
    | none => cases hh
    | some duration => cases delay <;> rfl

theorem poll_of_shutdown (hh : h.state = .shutdown) (env : Answers) :
    h.poll env = .ok (.ready (), h) := by
  rw [poll, pollLoop, hh]

@[simp] theorem state_forceShutdown (h : ShutdownHandler) : h.forceShutdown.state = .shutdown := rfl

@[simp] theorem state_graceful (h : ShutdownHandler) (duration : Nat) :
    (h.handleShutdown (.graceful duration)).state = .shuttingDown := rfl

/-- **The state that a poll leaves**, told by the state before it and the answers. -/
theorem poll_state (hpoll : h.poll env = .ok (r, h')) :
    (h'.state = .running ↔ h.state = .running ∧ env.initiate = .notReady) ∧
      (h'.state = .shutdown ↔ h.Stops env) := by
  unfold Stops
  cases hstate : h.state with
  | running =>
    rw [poll_of_running hstate] at hpoll
    cases hinitiate : env.initiate with
    | notReady =>
      rw [hinitiate] at hpoll
      cases hpoll
      simp [hstate]
    | canceled =>
      rw [hinitiate] at hpoll
      cases hpoll
      simp
    | received shutdownType =>
      rw [hinitiate] at hpoll
      cases shutdownType with
      | immediate =>
        cases hpoll
        simp
      | graceful duration =>
        cases htimer : env.timer <;> rw [htimer] at hpoll <;> cases hpoll <;> simp
  | shuttingDown =>
    rw [poll_of_shuttingDown hstate] at hpoll
    cases htimer : env.timer with
    | expired | atCapacity =>
      rw [htimer] at hpoll
      cases hpoll
      simp
    | notReady =>
      rw [htimer] at hpoll
      cases hpoll
      simp [hstate]
    | shutdown =>
      rw [htimer] at hpoll
      cases hpoll
  | shutdown =>
    rw [poll_of_shutdown hstate] at hpoll
    cases hpoll
    simp [hstate]

end ShutdownHandler

namespace Connection

variable {URI URIError : Type}

/-- What is done in each state leaves the sender or drops it. -/
theorem sender_handleShutdownState (c : Connection URI) (env : Answers URI URIError) :
    (c.handleShutdownState env).2.sender =
      if c.shutdown.state = .running ∧ (c.receiver = none ∧ c.rxHandlerShutdownEvent = true) ∧
          env.handlerShutdownEvent ≠ .notReady ∨ c.shutdown.state = .shutdown
      then none else c.sender := by
  unfold handleShutdownState
  cases c.shutdown.state with
  | running =>
    show (c.updateAllowRequests.pollRequestHandlerShutdown env).sender = _
    have hgone : (c.updateAllowRequests.isReceiverShutdown &&
        c.updateAllowRequests.rxHandlerShutdownEvent) = true ↔
        c.receiver = none ∧ c.rxHandlerShutdownEvent = true := by
      simp [updateAllowRequests, isReceiverShutdown]
    unfold pollRequestHandlerShutdown
    by_cases hc : c.receiver = none ∧ c.rxHandlerShutdownEvent = true
    · rw [if_pos (hgone.mpr hc)]
      cases env.handlerShutdownEvent with
      | notReady => simp [updateAllowRequests]
      | received => simp [hc, shutdownSender]
      | canceled => simp [hc, shutdownSender]
    · rw [if_neg (mt hgone.mp hc)]
      simp [hc, updateAllowRequests]
  | shuttingDown =>
    show c.shutdownRequestReceiver.sender = _
    unfold shutdownRequestReceiver
    split <;> simp
  | shutdown => rfl

/-- The end of a poll only forces the shutdown. -/
theorem sender_conclude (handled : Async Unit × Connection URI) :
    (conclude handled).2.sender = handled.2.sender := by
  obtain ⟨result, c⟩ := handled
  cases result with
  | ready => rfl
  | notReady =>
    show c.finish.2.sender = c.sender
    unfold finish
    split
    · rfl
    · rfl

end Connection

namespace World

variable {URI URIError : Type} {w w' : World URI} {env : Connection.Answers URI URIError}

/-! ## The end of a poll -/

/-- The receiver is gone, no shutdown has been asked for, and the request handler has told that
    it is done. -/
structure Released (w : World URI) : Prop where
  running : w.connection.shutdown.state = .running
  unasked : w.initiate.poll.1 = .notReady
  receiver : w.connection.receiver = none
  service : w.connection.rxHandlerShutdownEvent = true
  told : w.handler.1.txShutdownEvent = false

/-- The last part of the poll drops the sender, which is there until then. -/
def Drops (w : World URI) (env : Connection.Answers URI URIError) : Prop :=
  w.connection.sender.isSome = true ∧
    (w.Released ∨ w.connection.shutdown.Stops (w.shutdownAnswers env))

/-- What the last part of a poll leaves: the sender goes if it drops it, and otherwise stays as it
    is. -/
theorem conclude_cases (h : w.conclude env = .ok w') :
    ∃ c initiate, w' = forward { w with connection := c, initiate } [] ∧
      (w.Drops env ∧ c.sender = none ∨ ¬ w.Drops env ∧ c.sender = w.connection.sender) := by
  obtain ⟨⟨r, shutdown⟩, hshutdown, h⟩ := bind_eq_ok h
  cases h
  refine ⟨_, _, rfl, ?_⟩
  obtain ⟨hrunning, hstops⟩ := ShutdownHandler.poll_state hshutdown
  rw [Connection.sender_conclude, Connection.sender_handleShutdownState]
  dsimp only
  have htold : w.handlerShutdownEvent ≠ .notReady ↔ w.handler.1.txShutdownEvent = false := by
    unfold handlerShutdownEvent
    cases w.handler.1.txShutdownEvent <;> simp
  have hgoes : (shutdown.state = .running ∧
      (w.connection.receiver = none ∧ w.connection.rxHandlerShutdownEvent = true) ∧
        w.handlerShutdownEvent ≠ .notReady ∨ shutdown.state = .shutdown) ↔
      w.Released ∨ w.connection.shutdown.Stops (w.shutdownAnswers env) := by
    rw [hrunning, hstops, htold]
    exact or_congr_left ⟨fun h => ⟨h.1.1, h.1.2, h.2.1.1, h.2.1.2, h.2.2⟩,
      fun h => ⟨⟨h.running, h.unasked⟩, ⟨h.receiver, h.service⟩, h.told⟩⟩
  unfold Drops
  by_cases hcause : w.Released ∨ w.connection.shutdown.Stops (w.shutdownAnswers env)
  · rw [if_pos (hgoes.mpr hcause)]
    cases hs : w.connection.sender with
    -- Without a sender none is dropped.
    | none => exact .inr ⟨fun hdrops => Bool.false_ne_true hdrops.1, rfl⟩
    | some s => exact .inl ⟨⟨rfl, hcause⟩, rfl⟩
  · rw [if_neg (mt hgoes.mp hcause)]
    exact .inr ⟨fun hdrops => hcause hdrops.2, rfl⟩

/-- **There are no other causes**: what `Drops` tells beforehand is that the sender is there before
    the last part of the poll, and gone after it. -/
theorem drops_iff (h : w.conclude env = .ok w') :
    w.Drops env ↔ w.connection.sender.isSome = true ∧ w'.connection.sender = none := by
  obtain ⟨c, initiate, rfl, hdropped | hkept⟩ := conclude_cases h
  · exact ⟨fun hdrops => ⟨hdrops.1, hdropped.2⟩, fun _ => hdropped.1⟩
  · refine ⟨fun hdrops => absurd hdrops hkept.1, fun ⟨hsome, hnone⟩ => ?_⟩
    have hsame : c.sender = none := hnone
    rw [← hkept.2, hsame] at hsome
    cases hsome

/-! ## The result -/

/-- The condition on a poll that drops the sender in its last part. If a response of the request
    handler had not been flushed when the sender was polled, the sink took all messages and was
    flushed then; and the request handler has added none since. -/
structure Patient (env : Connection.Answers URI URIError) (w₂ w₃ : World URI) : Prop where
  cleared : w₂.owes = true → ∃ s, w₂.connection.sender = some s ∧ s.Clears env.sender
  quiet : RequestHandler.responses w₃.handler.2 = RequestHandler.responses w₂.handler.2

/-- Nothing is owed once the sender is gone. -/
structure Settled (w : World URI) : Prop where
  accounts : Accounts w
  owes : w.connection.sender = none → w.owes = false

theorem Settled.receive (hw : Settled w) (h : w.receive env = .ok w') : Settled w' := by
  refine ⟨hw.accounts.receive h, fun hnone => ?_⟩
  obtain ⟨⟨c, t⟩, hreceiver, h⟩ := bind_eq_ok h
  cases h
  have hs : w.connection.sender = none :=
    Option.map_eq_none_iff.mp ((pollReceiver_sender hreceiver).symm.trans hnone)
  have hshut : w.connection.isSenderShutdown = true := by
    rw [Connection.isSenderShutdown, hs]
    rfl
  rw [← hw.owes hs, if_pos hshut]
  rfl

theorem Settled.send (hw : Settled w) (henv : env.sender.Reliable) : Settled (w.send env) := by
  refine ⟨hw.accounts.send henv, fun hnone => (owes_send hw.accounts henv).mpr fun howes => ?_⟩
  cases hs : w.connection.sender with
  | none =>
    rw [hw.owes hs] at howes
    cases howes
  | some s =>
    obtain ⟨-, hkept | ⟨-, hclears⟩⟩ := pollSender_cases w.connection hs henv
    · cases hkept.symm.trans hnone
    · exact ⟨s, rfl, hclears⟩

/-- The last part of a poll changes nothing in the account but the sender. -/
theorem Settled.conclude (hw : Settled w) (h : w.conclude env = .ok w')
    (howes : w.Drops env → w.owes = false) : Settled w' := by
  obtain ⟨c, initiate, rfl, ⟨hdrops, hnone⟩ | ⟨-, hsame⟩⟩ := conclude_cases h
  · exact ⟨(hw.accounts.reconnect (.inr hnone) initiate).forward [], fun _ => howes hdrops⟩
  · exact ⟨(hw.accounts.reconnect (.inl hsame) initiate).forward [],
      fun hgone => hw.owes (hsame.symm.trans hgone)⟩

section Result

variable [RequestURI URI URIError]

/-- A step that waits for the responses. -/
inductive PatientStep : World URI → Op URI URIError → World URI → Prop where
  | other {w₁ w₂} : Other w₁ w₂ → PatientStep w₁ .other w₂
  | poll {env : Connection.Answers URI URIError} {w₁ w₂ w₃ w₄} : Polls env w₁ w₂ w₃ w₄ →
      (w₃.Drops env → Patient env w₂ w₃) → PatientStep w₁ (.poll env) w₄

theorem Settled.others (hw : Settled w) (h : Others w w') : Settled w' := by
  refine ⟨hw.accounts.others h, fun hnone => ?_⟩
  have hs := h.adds.sender.mp hnone
  rw [owes_of_shut h hs]
  exact hw.owes hs

/-- The three parts of a poll, up to the last, and what is owed before that: nothing, exactly if
    the poll is patient. -/
theorem Polls.before {w₂ w₃ : World URI} (hpolls : Polls env w w₂ w₃ w') (hw : Settled w) :
    Settled w₃ ∧ (w₃.owes = false ↔ Patient env w₂ w₃) := by
  obtain ⟨w₁, hreceive, hothers⟩ := hpolls.received
  have hw₂ := (hw.receive hreceive).others hothers
  have hsent := hw₂.send hpolls.sink
  refine ⟨hsent.others hpolls.sent, ?_⟩
  rw [owes_others hsent.accounts hpolls.sent, owes_send hw₂.accounts hpolls.sink]
  exact ⟨fun h => ⟨h.1, h.2⟩, fun h => ⟨h.cleared, h.quiet⟩⟩

/-- **A patient step settles what is owed** before the sender goes. -/
theorem PatientStep.settled {op : Op URI URIError} (h : PatientStep w op w') (hw : Settled w) :
    Settled w' := by
  cases h with
  | other hother => exact hw.others (.single hother)
  | poll hpolls hpatient =>
    obtain ⟨hw₃, howes⟩ := hpolls.before hw
    exact hw₃.conclude hpolls.concluded fun hdrops => howes.mpr (hpatient hdrops)

/-- **A poll that drops the sender delivers everything exactly if it is patient.** -/
theorem Polls.delivered_iff {w₂ w₃ : World URI} (hpolls : Polls env w w₂ w₃ w')
    (hw : Settled w) : w'.Delivered ↔ Patient env w₂ w₃ := by
  obtain ⟨hw₃, howes⟩ := hpolls.before hw
  rw [← howes]
  -- Neither the messages nor what was flushed change in the last part.
  obtain ⟨c, initiate, rfl, -⟩ := conclude_cases hpolls.concluded
  exact hw₃.accounts.delivered_iff

/-- **No response is dropped with the sender**, in every run of patient steps: what the request
    handler has put into the channel, the sink has accepted in its place and flushed by the time
    the sender is gone. Behind such a run, a poll that drops the sender keeps it so exactly if it
    is patient. -/
theorem responses_flushed {size : Nat} {duration : Option Nat} {default : Nat}
    {ops : List (Op URI URIError)} (h : Run PatientStep (start size duration default) ops w) :
    fromHandler w.queued = (RequestHandler.responses w.handler.2).map .response ∧
      (w.connection.sender = none → w.Delivered) ∧
      ∀ (env : Connection.Answers URI URIError) w₂ w₃ w', Polls env w w₂ w₃ w' → w₃.Drops env →
        (w'.Delivered ↔ Patient env w₂ w₃) := by
  have hstart : Settled (start size duration default : World URI) :=
    ⟨accounts_start size duration default, nofun⟩
  have hw := h.invariant hstart fun _ _ _ hw hstep => hstep.settled hw
  exact ⟨hw.accounts.handler, fun hnone => hw.accounts.delivered (hw.owes hnone),
    fun env w₂ w₃ w' hpolls _ => hpolls.delivered_iff hw⟩

end Result

/-! ### A request, and the end of the connection -/

def setup : Request AsteriskURI :=
  ⟨[], HeaderMap.empty.typedInsert (⟨4, by decide⟩ : CSeq), .standard .setup, .asterisk,
    .rtsp2_0, rfl⟩

/-- The request comes in, and the request handler takes it. -/
def setupArrives : Connection.Answers AsteriskURI Unit :=
  { (Connection.Answers.idle : Connection.Answers AsteriskURI Unit) with
    receiver := { (Receiver.Answers.idle : Receiver.Answers AsteriskURI Unit) with
      stream := [.message (.request setup)]
      handler := [.ready] } }

/-- A sink that is neither told to fail nor to take anything. -/
theorem reliable_idle : Sender.Answers.idle.Reliable := ⟨nofun, nofun, nofun⟩

/-- The request is read, and given to the request handler. -/
def received : World AsteriskURI :=
  returned ((start 10 none 5).receive setupArrives) (by decide +kernel)

def forwarded : World AsteriskURI :=
  returned ((received.send setupArrives).conclude setupArrives) (by decide +kernel)

/-- The service has been called. -/
def called : World AsteriskURI :=
  forwarded.turn (RequestHandler.callService ⟨4, by decide⟩ setup
    ({ forwarded.handler.1 with incoming := [] }, forwarded.handler.2))

/-- The response is in the channel of the sender. -/
def answered : World AsteriskURI :=
  called.turn (RequestHandler.respond true ⟨4, by decide⟩ (.ofStatus .ok) called.handler)

theorem run_answered :
    Run PatientStep (start 10 none 5) [.poll setupArrives, .other, .other] answered := by
  have hconclude : (received.send setupArrives).conclude setupArrives = .ok forwarded :=
    eq_ok_returned (by decide +kernel)
  have hforwarded : Polls setupArrives (start 10 none 5) received (received.send setupArrives)
      forwarded :=
    ⟨reliable_idle, ⟨_, eq_ok_returned (by decide +kernel), .refl⟩, .refl, hconclude⟩
  have hcalled : Other forwarded called :=
    .turn (.call (by decide +kernel) (by decide +kernel) (by decide +kernel))
  have hserviced : called.handler.1.servicedRequest = some ⟨4, by decide⟩ := by decide +kernel
  have hopen : called.connection.sender.isSome = true := by decide +kernel
  have hanswered : Other called answered := .turn (hopen ▸ .respond _ hserviced)
  refine .snoc (.snoc (.snoc .start (.poll hforwarded fun hdrops => ?_)) (.other hcalled))
    (.other hanswered)
  -- The sender is still there.
  have hgone : forwarded.connection.sender = none := ((drops_iff hconclude).mp hdrops).2
  have hsender : forwarded.connection.sender.isSome = true := by decide +kernel
  rw [hgone] at hsender
  cases hsender

/-- The request handler tells that it is done. -/
def finished (w : World AsteriskURI) : World AsteriskURI :=
  w.turn (RequestHandler.shutdown w.handler)

/-- The stream has ended, and the request handler is done before the sender is polled. -/
theorem polls_finished {env : Connection.Answers AsteriskURI Unit} {w₁ w' : World AsteriskURI}
    (henv : env.sender.Reliable) (hreceive : answered.receive env = .ok w₁)
    (hserviced : w₁.handler.1.servicedRequest = none) (hincoming : w₁.handler.1.incoming = [])
    (hended : w₁.handler.1.incomingEnded = true)
    (h : ((finished w₁).send env).conclude env = .ok w') :
    Polls env answered (finished w₁) ((finished w₁).send env) w' :=
  ⟨henv, ⟨w₁, hreceive, .single (.turn (.shutdown hserviced hincoming hended))⟩, .refl, h⟩

/-- The stream has ended, and the sink takes a message and is flushed. -/
def streamEndsFlushed : Connection.Answers AsteriskURI Unit :=
  { Connection.streamEnds with sender := { Sender.Answers.idle with startSend := [.ready] } }

/-- The time of a graceful shutdown is up, and the sink takes a message and is flushed. -/
def timeIsUp : Connection.Answers AsteriskURI Unit :=
  { (Connection.Answers.idle : Connection.Answers AsteriskURI Unit) with
    sender := { Sender.Answers.idle with startSend := [.ready] }
    shutdown := ⟨.notReady, .expired⟩ }

/-- What has one message to send is cleared by a sink that takes one and is flushed. -/
theorem patient_of_pending {env : Connection.Answers AsteriskURI Unit} {w : World AsteriskURI}
    (hpending : w.connection.sender.map (·.pending.length) = some 1)
    (henv : env.sender = { Sender.Answers.idle with startSend := [.ready] }) :
    Patient env w (w.send env) := by
  refine ⟨fun _ => ?_, rfl⟩
  obtain ⟨s, hs, hlength⟩ := Option.map_eq_some_iff.mp hpending
  refine ⟨s, hs, ?_⟩
  rw [henv]
  exact ⟨by rw [hlength]; rfl, rfl⟩

/-- The sink takes the response in the poll that drops the sender: the request handler is found to
    be done, or the last handle was dropped and its shutdown has had its time. -/
theorem responses_flushed_answered :
    (∃ w : World AsteriskURI, w.handles = 1 ∧ w.connection.sender = none ∧
      w.queued.map (·.2) = [.handler] ∧ w.Delivered) ∧
    ∃ w : World AsteriskURI, w.handles = 0 ∧ w.connection.sender = none ∧
      w.queued.map (·.2) = [.handler] ∧ w.Delivered := by
  constructor
  · let w₁ := returned (answered.receive streamEndsFlushed) (by decide +kernel)
    let w₂ := finished w₁
    let w' := returned ((w₂.send streamEndsFlushed).conclude streamEndsFlushed) (by decide +kernel)
    have hpolls : Polls streamEndsFlushed answered w₂ (w₂.send streamEndsFlushed) w' :=
      polls_finished ⟨by decide, nofun, nofun⟩ (eq_ok_returned (by decide +kernel))
        (by decide +kernel) (by decide +kernel) (by decide +kernel)
        (eq_ok_returned (by decide +kernel))
    have hpatient : Patient streamEndsFlushed w₂ (w₂.send streamEndsFlushed) :=
      patient_of_pending (by decide +kernel) rfl
    have hrun := run_answered.snoc (.poll hpolls fun _ => hpatient)
    have hgone : w'.connection.sender = none := Option.isNone_iff_eq_none.mp (by decide +kernel)
    exact ⟨w', by decide +kernel, hgone, by decide +kernel, (responses_flushed hrun).2.1 hgone⟩
  · have hhandle : 0 < answered.handles := by decide +kernel
    let w₂ := returned (answered.dropHandle.receive timeIsUp) (by decide +kernel)
    let w' := returned ((w₂.send timeIsUp).conclude timeIsUp) (by decide +kernel)
    have hpolls : Polls timeIsUp answered.dropHandle w₂ (w₂.send timeIsUp) w' :=
      ⟨⟨by decide, nofun, nofun⟩, ⟨w₂, eq_ok_returned (by decide +kernel), .refl⟩, .refl,
        eq_ok_returned (by decide +kernel)⟩
    have hpatient : Patient timeIsUp w₂ (w₂.send timeIsUp) :=
      patient_of_pending (by decide +kernel) rfl
    have hrun := (run_answered.snoc (.other (.dropHandle hhandle))).snoc
      (.poll hpolls fun _ => hpatient)
    have hgone : w'.connection.sender = none := Option.isNone_iff_eq_none.mp (by decide +kernel)
    exact ⟨w', by decide +kernel, hgone, by decide +kernel, (responses_flushed hrun).2.1 hgone⟩

/-- **A response can be dropped with the sender**: the sink is not ready in the poll in which the
    request handler is found to be done, while the handle is still there. -/
theorem response_unsent : ¬ ∀ (size : Nat) duration default (ops : List (Op AsteriskURI Unit))
    (w : World AsteriskURI), Run Step (start size duration default) ops w →
    w.connection.sender = none → 0 < w.handles → w.Delivered := by
  intro h
  let w₁ := returned (answered.receive Connection.streamEnds) (by decide +kernel)
  let w' := returned (((finished w₁).send Connection.streamEnds).conclude Connection.streamEnds)
    (by decide +kernel)
  have hpolls : Polls Connection.streamEnds answered (finished w₁)
      ((finished w₁).send Connection.streamEnds) w' :=
    polls_finished reliable_idle (eq_ok_returned (by decide +kernel)) (by decide +kernel)
      (by decide +kernel) (by decide +kernel) (eq_ok_returned (by decide +kernel))
  have hrun : Run Step (start 10 none 5) _ answered := run_answered.mono fun _ _ _ hstep => by
    cases hstep with
    | other hother => exact .other hother
    | poll hpolls => exact .poll hpolls
  have hgone : w'.connection.sender = none := Option.isNone_iff_eq_none.mp (by decide +kernel)
  have hqueued : (w'.queued[0]?).map (·.2) = some .handler := by decide +kernel
  obtain ⟨⟨message, source⟩, hfirst, hsource⟩ := Option.map_eq_some_iff.mp hqueued
  obtain rfl : source = .handler := hsource
  have hflushed := (h 10 none 5 _ w' (hrun.snoc (.poll hpolls)) hgone (by decide +kernel) 0
    message hfirst).1
  revert hflushed
  decide +kernel

end World
end Rtsp
