import Rtsp.Connection.Running

/-!
# The end of a connection

A connection that receives nothing any more is over once its sender is gone, and
its sender goes for one of three reasons: it ends by itself, a shutdown is due at
once, or the request handler has told that it is done. A connection without a
request handler is never told so. `poll_finishes_iff` says when the poll of such
a connection is its last.

The condition is for a connection in this one situation: nobody has asked for a
shutdown, its receiver is gone, and there is no request handler left to wait for. A
connection whose peer has closed the stream comes to it. In other situations there is
something to wait for, and whether a poll is the last one is not asked.

`Ends` says when a poll of the sender is the last one, by what the sink answers to the
messages in turn. It is computed from the state and the answers before the poll; the
trace of the poll is not looked at.
-/

namespace Rtsp

open Lib

namespace Sender

variable {URI : Type}

/-- The messages that are still to be sent. -/
def pending (s : Sender URI) : List (Message URI) := s.bufferedMessage.toList ++ s.outgoing

/-- What the sink answers to `n` messages, up to the first that it does not take. -/
def refusal : List SendAnswer → Nat → Option SendAnswer
  | _, 0 => none
  | answers, n + 1 =>
    match answers.head?.getD .notReady with
    | .ready => refusal answers.tail n
    | answer => some answer

/-- A poll ends the sender: the sink fails, or there is nothing more to send, no handle on
    the sender is left, and the sink has been closed. -/
def Ends (s : Sender URI) (env : Answers) : Prop :=
  match refusal env.startSend s.pending.length with
  | some answer => answer = .closed
  | none => if env.ended then env.close ≠ .ok .notReady else env.pollComplete = .error ()

/-- Behind the messages, the flush or the close decides. -/
theorem writeLoop_result (env : Answers) (answers : List SendAnswer)
    (buffered : Option (Message URI)) (outgoing : List (Message URI)) (t : Trace URI) :
    (writeLoop env answers buffered outgoing t).1 =
      match refusal answers outgoing.length with
      | some .closed => .error ()
      | some _ => .ok .notReady
      | none => if env.ended then .ok (.ready ())
        else if env.pollComplete = .error () then .error () else .ok .notReady := by
  induction outgoing generalizing answers buffered t with
  | nil =>
    unfold writeLoop refusal
    rcases env.pollComplete with _ | (_ | _) <;> cases env.ended <;> simp
  | cons message outgoing ih =>
    rw [writeLoop, List.length_cons, refusal]
    cases answers.head?.getD .notReady with
    | ready => exact ih _ _ _
    | notReady => rfl
    | closed => rfl

/-- What a poll answers, from what the sink answered to the messages. -/
def outcome (env : Answers) : Option SendAnswer → Poll Unit Unit
  | some .closed => .error ()
  | some _ => .ok .notReady
  | none =>
    if env.ended then env.close
    else if env.pollComplete = .error () then .error () else .ok .notReady

theorem pollRest_result (s : Sender URI) (env : Answers) (answers : List SendAnswer)
    (t : Trace URI) :
    (s.pollRest env answers t).1 = outcome env (refusal answers s.outgoing.length) := by
  have hresult := writeLoop_result env answers s.bufferedMessage s.outgoing t
  unfold pollRest pollWrite
  generalize writeLoop env answers s.bufferedMessage s.outgoing t = written at hresult
  obtain ⟨result, s', t'⟩ := written
  dsimp only at hresult ⊢
  subst hresult
  cases refusal answers s.outgoing.length with
  | some answer => cases answer <;> rfl
  | none =>
    unfold outcome
    cases env.ended with
    | true => rcases env.close with _ | (_ | _) <;> rfl
    | false => by_cases h : env.pollComplete = .error () <;> simp [h]

theorem poll_result (s : Sender URI) (env : Answers) :
    (s.poll env).1 = outcome env (refusal env.startSend s.pending.length) := by
  unfold poll pending
  cases hbuffered : s.bufferedMessage with
  | none => exact pollRest_result s env _ _
  | some message =>
    dsimp only [Option.toList, List.cons_append, List.nil_append, List.length_cons]
    rw [refusal]
    cases env.startSend.head?.getD .notReady with
    | ready => exact pollRest_result { s with bufferedMessage := none } env _ _
    | notReady => rfl
    | closed => rfl

/-- **When a poll ends the sender.** -/
theorem poll_ends_iff (s : Sender URI) (env : Answers) :
    (s.poll env).1 ≠ .ok .notReady ↔ s.Ends env := by
  rw [poll_result]
  unfold Ends outcome
  cases refusal env.startSend s.pending.length with
  | some answer => cases answer <;> simp
  | none =>
    cases env.ended with
    | true => simp
    | false => by_cases h : env.pollComplete = .error () <;> simp [h]

end Sender

namespace ShutdownHandler

/-- What a poll does that may be the first to hear of a shutdown. -/
theorem poll_of_running {h : ShutdownHandler} (hh : h.state = .running) (env : Answers) :
    h.poll env = match env.initiate with
      | .notReady => .ok (.notReady, h)
      | .canceled => .ok (.ready (), h.forceShutdown)
      | .received .immediate => .ok (.ready (), h.forceShutdown)
      | .received (.graceful duration) =>
        match env.timer with
        | .expired => .ok (.ready (), h.forceShutdown)
        | .atCapacity => .ok (.ready (), h.forceShutdown)
        | .notReady => .ok (.notReady, h.handleShutdown (.graceful duration))
        | .shutdown => .error (.expect "shutdown timer should not be shutdown") := by
  obtain ⟨rx, timer, tx⟩ := h
  obtain ⟨initiate, delay⟩ := env
  cases rx with
  | false => cases timer <;> simp [state] at hh
  | true =>
    cases initiate with
    | notReady => rfl
    | canceled => rfl
    | received shutdownType =>
      cases shutdownType with
      | immediate => rfl
      | graceful duration => cases delay <;> rfl

end ShutdownHandler

namespace Connection

variable {URI URIError : Type} {c : Connection URI} {env : Answers URI URIError}

/-- There is no sender, or this poll ends it. -/
def SenderEnds (c : Connection URI) (env : Answers URI URIError) : Prop :=
  ∀ s, c.sender = some s → s.Ends env.sender

/-- What it takes for a connection to be over that receives nothing any more: a shutdown
    that is due at once, or an end of the sender, which the request handler may bring about
    as long as no graceful shutdown has been asked for. -/
def Closes (c : Connection URI) (env : Answers URI URIError) : Prop :=
  match env.shutdown.initiate with
  | .notReady => c.rxHandlerShutdownEvent = true ∨ c.SenderEnds env
  | .canceled => True
  | .received .immediate => True
  | .received (.graceful _) =>
    match env.shutdown.timer with
    | .expired => True
    | .atCapacity => True
    | .notReady => c.SenderEnds env
    | .shutdown => False

/-- Without a receiver, polling the sender only lets it go when it ends. -/
theorem pollSender_of_no_receiver (env : Answers URI URIError) (hc : c.receiver = none) :
    ∃ s, (c.pollSender env).1 = { c with sender := s } ∧ (s = none ↔ c.SenderEnds env) := by
  unfold pollSender SenderEnds
  cases hs : c.sender with
  | none => exact ⟨none, by simp [← hs], by simp⟩
  | some s =>
    have hends := s.poll_ends_iff env.sender
    dsimp only
    generalize s.poll env.sender = polled at hends
    obtain ⟨result, s', t⟩ := polled
    rcases result with _ | (_ | _)
    · exact ⟨none, by simp [shutdownRequestReceiver, shutdownSender, hc],
        by simpa using hends⟩
    · exact ⟨none, by simp [shutdownRequestReceiver, shutdownSender, hc],
        by simpa using hends⟩
    · exact ⟨some s', rfl, by simpa using hends⟩

/-- The poll returns, and the connection has told that it is over. -/
def Over (result : Async Unit × Connection URI) : Prop :=
  result.1 = .ready () ∧ result.2.shutdown.txShutdownEvent = false

/-- A connection that goes on is over once both of its halves are gone. -/
theorem over_finish (hc : c.receiver = none) : Over c.finish ↔ c.sender = none := by
  unfold finish isShutdown isReceiverShutdown isSenderShutdown
  rw [hc]
  cases hs : c.sender with
  | none => simp [Over, ShutdownHandler.forceShutdown, ShutdownHandler.handleShutdown]
  | some s => simp [Over]

/-- **When a connection that receives nothing any more is over**: no request handler will
    answer, because there is none or it has told that it is done; then this poll returns
    and has told so itself exactly if the connection closes. -/
theorem poll_finishes_iff (hstate : c.shutdown.state = .running) (hreceiver : c.receiver = none)
    (hhandler : c.rxHandlerShutdownEvent = true → env.handlerShutdownEvent ≠ .notReady) :
    (∃ c' t, c.poll env = .ok (.ready (), c', t) ∧ c'.shutdown.txShutdownEvent = false) ↔
      c.Closes env := by
  obtain ⟨s, hs, hends⟩ := pollSender_of_no_receiver env hreceiver
  have hpollReceiver : c.pollReceiver env = .ok (c, .empty) := by
    unfold pollReceiver
    rw [hreceiver]
  -- What follows on the poll of the shutdown handler.
  have hresult : ∀ r shutdown, c.shutdown.poll env.shutdown = .ok (r, shutdown) →
      ((∃ c' t, c.poll env = .ok (.ready (), c', t) ∧ c'.shutdown.txShutdownEvent = false) ↔
        Over (conclude (handleShutdownState { c with sender := s, shutdown } env))) := by
    intro r shutdown hshutdown
    have hsame : (c.pollSender env).1.shutdown = c.shutdown := by rw [hs]
    obtain ⟨t, hpoll⟩ := poll_of hpollReceiver (hsame ▸ hshutdown)
    rw [hs] at hpoll
    constructor
    · rintro ⟨c', t', hready, hsent⟩
      have heq := Except.ok.inj (hpoll.symm.trans hready)
      exact ⟨congrArg (·.1) heq, (congrArg (·.2.1.shutdown.txShutdownEvent) heq).trans hsent⟩
    · rintro ⟨hready, hsent⟩
      exact ⟨_, t, hpoll.trans (by rw [hready]), hsent⟩
  have himmediate (h : c.shutdown.poll env.shutdown =
      .ok (.ready (), c.shutdown.forceShutdown)) :
      ∃ c' t, c.poll env = .ok (.ready (), c', t) ∧ c'.shutdown.txShutdownEvent = false :=
    (hresult _ _ h).mpr ⟨rfl, rfl⟩
  have hshutdown := ShutdownHandler.poll_of_running hstate env.shutdown
  unfold Closes
  cases hinitiate : env.shutdown.initiate with
  | notReady =>
    rw [hinitiate] at hshutdown
    rw [hresult _ _ hshutdown, handleShutdownState, hstate]
    -- The state stays, and the request handler's event lets the sender go.
    show Over (finish (pollRequestHandlerShutdown _ env)) ↔ _
    unfold pollRequestHandlerShutdown
    rw [show (updateAllowRequests { c with sender := s }).isReceiverShutdown = true by
      simp [updateAllowRequests, isReceiverShutdown, hreceiver]]
    rw [Bool.true_and]
    split
    · next hevent =>
      have hevent : c.rxHandlerShutdownEvent = true := hevent
      refine iff_of_true ?_ (.inl hevent)
      have hgone : Over (shutdownSender (updateAllowRequests { c with sender := s })).finish :=
        (over_finish (c := shutdownSender (updateAllowRequests { c with sender := s }))
          hreceiver).mpr rfl
      cases hanswer : env.handlerShutdownEvent with
      | notReady => exact absurd hanswer (hhandler hevent)
      | received => exact hgone
      | canceled => exact hgone
    · next hevent =>
      have hevent : ¬ c.rxHandlerShutdownEvent = true := hevent
      rw [or_iff_right hevent]
      exact (over_finish (c := updateAllowRequests { c with sender := s }) hreceiver).trans hends
  | canceled =>
    rw [hinitiate] at hshutdown
    exact iff_of_true (himmediate hshutdown) trivial
  | received shutdownType =>
    cases shutdownType with
    | immediate =>
      rw [hinitiate] at hshutdown
      exact iff_of_true (himmediate hshutdown) trivial
    | graceful duration =>
      rw [hinitiate] at hshutdown
      cases htimer : env.shutdown.timer with
      | expired =>
        rw [htimer] at hshutdown
        exact iff_of_true (himmediate hshutdown) trivial
      | atCapacity =>
        rw [htimer] at hshutdown
        exact iff_of_true (himmediate hshutdown) trivial
      | notReady =>
        rw [htimer] at hshutdown
        rw [hresult _ _ hshutdown]
        have hnone : shutdownRequestReceiver { c with
            sender := s, shutdown := c.shutdown.handleShutdown (.graceful duration) } =
            { c with sender := s, shutdown := c.shutdown.handleShutdown (.graceful duration) } := by
          rw [shutdownRequestReceiver, hreceiver]
        show Over (finish { shutdownRequestReceiver _ with allowRequests := false }) ↔ _
        rw [hnone]
        exact Iff.trans (over_finish (c := { c with
          allowRequests := false
          sender := s
          shutdown := c.shutdown.handleShutdown (.graceful duration) }) hreceiver) hends
      | shutdown =>
        rw [htimer] at hshutdown
        refine iff_of_false ?_ id
        rintro ⟨c', t, hpoll, -⟩
        obtain ⟨c₁, r, shutdown, hc₁, -, hpanic, -⟩ := poll_inv hpoll
        have hsame : c = c₁ := congrArg (·.1) (Except.ok.inj (hpollReceiver.symm.trans hc₁))
        rw [← hsame, hs, hshutdown] at hpanic
        cases hpanic

/-- The stream has ended. -/
def streamEnds : Answers AsteriskURI Unit :=
  { (Answers.idle : Answers AsteriskURI Unit) with
    receiver := { (Receiver.Answers.idle : Receiver.Answers AsteriskURI Unit) with
      stream := [.ended] } }

/-- With a request handler that has told that it is done, the connection is over. -/
theorem poll_finishes_iff_done : ∃ c' t, Connection.poll
    ({ (withConfig true 10 : Connection AsteriskURI) with receiver := none })
    { streamEnds with handlerShutdownEvent := .received () } = .ok (.ready (), c', t) ∧
      c'.shutdown.txShutdownEvent = false :=
  (poll_finishes_iff rfl rfl fun _ => by simp).mpr (.inl rfl)

/-- **A connection without a request handler goes on** when its stream has ended and nothing
    is left to be sent. -/
theorem poll_never_finishes :
    ¬ ∀ service size (ops : List (Op AsteriskURI Unit)) c,
      Run Step (withConfig service size) ops c →
      c.shutdown.state = .running → c.receiver = none →
      ∀ env : Answers AsteriskURI Unit,
        (c.rxHandlerShutdownEvent = true → env.handlerShutdownEvent ≠ .notReady) →
        ∃ c' t, c.poll env = .ok (.ready (), c', t) ∧ c'.shutdown.txShutdownEvent = false := by
  intro h
  let c := (returned ((withConfig false 10).poll streamEnds) (by decide +kernel)).2.1
  have hrun : Run Step (withConfig false 10) [.poll streamEnds] c :=
    .snoc .start (.poll (eq_ok_returned (by decide +kernel)))
  have hreceiver : c.receiver = none := Option.isNone_iff_eq_none.mp (by decide +kernel)
  have hevent : c.rxHandlerShutdownEvent = false := by decide +kernel
  have hidle : c.poll (.idle : Answers AsteriskURI Unit) = .ok (.notReady, _) :=
    eq_ok_of_returned (by decide +kernel) (by decide +kernel)
  obtain ⟨c', t, hpoll, -⟩ := h _ _ _ _ hrun (by decide +kernel) hreceiver .idle fun h => by
    rw [hevent] at h
    cases h
  have hready := congrArg (·.1) (Except.ok.inj (hidle.symm.trans hpoll))
  cases hready

end Connection
end Rtsp
