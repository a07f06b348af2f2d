import Mathlib.Logic.Relation
import Rtsp.Connection.Receiver

/-!
# What a poll of the receiver does

A poll of the receiver is a sequence of actions, each on one of its parts
(`poll_acts`). What every action keeps, a poll keeps; only what depends on the
order of the actions, or on the answer of the poll, needs the code again.

The reason for it is that invariants about requests, replies and responses would
otherwise have to be taken through the loops of `poll_stream`, `poll` and the rest, each
time anew. `Action` has a constructor for each thing that the code does to the receiver
or writes into the trace. An action may be taken more often than the code would take it:
the relation says what can happen and leaves out under which answers it does.

`ReadsTo` is the exception. How far a poll reads depends on the buffer, and so the loop
over the stream is described once more, answer by answer, with the result it comes to.
It is what the results about full buffers and about requests in sequence go through.
-/

namespace Rtsp

namespace ForwardingReceiver

variable {URI : Type}

/-- The handler is told to be gone only by an answer that says so. -/
theorem forward_ok {f : ForwardingReceiver URI} {n : CSeq} {answers : List SendAnswer}
    (h : .closed ∉ answers) : ∃ r, (f.forward n answers).1 = .ok r := by
  induction answers generalizing f n with
  | nil =>
    rw [forward]
    split
    · exact ⟨_, rfl⟩
    · exact ⟨_, rfl⟩
  | cons answer answers ih =>
    rw [forward]
    split
    · exact ⟨_, rfl⟩
    · cases answer with
      | ready => exact ih fun hmem => h (.tail _ hmem)
      | notReady => exact ⟨_, rfl⟩
      | closed => exact absurd (.head _) h

theorem poll_ok {f : ForwardingReceiver URI} {answers : List SendAnswer}
    (h : .closed ∉ answers) : ∃ r, (f.poll answers).1 = .ok r := by
  rw [poll]
  split
  · exact forward_ok h
  · exact ⟨_, rfl⟩

end ForwardingReceiver

namespace Receiver

variable {URI URIError : Type}

/-! ## Shutting down -/

/-- Shutting requests down: what is due stays, and the stream and the handle on the sender
    are let go if responses are shut down, too. -/
theorem shutdownRequestReceiver_eq (r : Receiver URI) : r.shutdownRequestReceiver =
    { r with
      forwardingReceiver := r.forwardingReceiver.filter (·.hasRequestsReady)
      requestsAllowed := false
      senderHandle := r.senderHandle && r.responseReceiver.isSome
      stream := r.stream && r.responseReceiver.isSome } := by
  obtain ⟨timer, f, allowed, p, sender, stream⟩ := r
  cases f with
  | none => cases p <;> simp [shutdownRequestReceiver, isResponseReceiverShutdown]
  | some f =>
    cases hready : f.hasRequestsReady <;> cases p <;>
      simp [shutdownRequestReceiver, isResponseReceiverShutdown, Option.filter, hready]

/-- Shutting responses down. -/
theorem shutdownResponseReceiver_eq (env : Answers URI URIError) (r : Receiver URI)
    (t : Trace URI URIError) : ∃ ds, shutdownResponseReceiver env (r, t) =
    ({ r with
      responseReceiver := none
      senderHandle := r.senderHandle && r.requestsAllowed
      stream := r.stream && r.requestsAllowed }, t.deliver ds) := by
  obtain ⟨timer, f, allowed, p, sender, stream⟩ := r
  refine ⟨(p.map (·.drop env.closed env.lateUpdates)).getD [], ?_⟩
  cases p <;> cases allowed <;>
    simp [shutdownResponseReceiver, dropResponseReceiver, isRequestReceiverShutdown, Trace.deliver]

/-- The actions a poll is made of. -/
inductive Action (env : Answers URI URIError) :
    State URI URIError → State URI URIError → Prop where
  /-- The stream answers. -/
  | answer {r t} (a : StreamAnswer URI URIError) : Action env (r, t) (r, t.answer a)
  /-- The stream is taken out, or put back. -/
  | stream {r t} (b : Bool) : Action env (r, t) ({ r with stream := b }, t)
  | timer {r t} (b : Bool) : Action env (r, t) ({ r with decodingTimer := b }, t)
  /-- A request is handled. -/
  | handle {r t f} (request : Request URI) : r.requestsAllowed = true →
      r.forwardingReceiver = some f → f.isFull = false →
      Action env (r, t)
        ({ r with forwardingReceiver := some (f.handleRequest request).2 },
          t.handle request (f.handleRequest request).1)
  /-- A response or an update is handled. -/
  | respond {r t p} (p' : ResponseReceiver) (ds : Deliveries) : r.responseReceiver = some p →
      Action env (r, t) ({ r with responseReceiver := some p' }, t.deliver ds)
  | reply {r t} (message : Response) : Action env (r, t) (r, t.reply message)
  | shutRequests {r t} : Action env (r, t) (r.shutdownRequestReceiver, t)
  | shutResponses {s} : Action env s (shutdownResponseReceiver env s)
  /-- Requests are forwarded, and the forwarding receiver stays. -/
  | forward {r t f a} : r.forwardingReceiver = some f → (f.poll env.handler).1 = .ok a →
      (a = .ready () → r.requestsAllowed = true) →
      Action env (r, t)
        ({ r with forwardingReceiver := some (f.poll env.handler).2.1 },
          t.forward (f.poll env.handler).2.2)
  /-- Requests are forwarded, and none is due or will come. -/
  | finish {r t f} : r.forwardingReceiver = some f →
      (f.poll env.handler).1 = .ok (.ready ()) → r.requestsAllowed = false →
      Action env (r, t)
        ({ r with forwardingReceiver := some (f.poll env.handler).2.1 }.shutdownForwardingReceiver,
          t.forward (f.poll env.handler).2.2)
  /-- The handler is gone. -/
  | lose {r t f} : r.forwardingReceiver = some f → (f.poll env.handler).1 = .error () →
      Action env (r, t)
        ({ r with forwardingReceiver := some (f.poll env.handler).2.1 }.shutdownForwardingReceiver,
          t.forward (f.poll env.handler).2.2)

/-- Any number of actions. -/
abbrev Acts (env : Answers URI URIError) : State URI URIError → State URI URIError → Prop :=
  Relation.ReflTransGen (Action env)

variable {env : Answers URI URIError} {s s' : State URI URIError} {r r' : Receiver URI}
  {t t' : Trace URI URIError}

/-! ## Reading -/

/-- How a message is handled, where that does not panic. -/
inductive Handles (env : Answers URI URIError) (r : Receiver URI) (t : Trace URI URIError) :
    Message URI → Except RequestReceiverError Unit → State URI URIError → Prop where
  | request {request f} : r.requestsAllowed = true → r.forwardingReceiver = some f →
      Handles env r t (.request request) (f.handleRequest request).1
        ({ r with forwardingReceiver := some (f.handleRequest request).2 },
          t.handle request (f.handleRequest request).1)
  | shut {request} : r.requestsAllowed = false → Handles env r t (.request request) (.ok ()) (r, t)
  | response {response p} : r.responseReceiver = some p →
      Handles env r t (.response response) (.ok ())
        ({ r with responseReceiver := some (p.handleResponse env.closed response).1 },
          t.deliver (p.handleResponse env.closed response).2)
  | ignored {response} : r.responseReceiver = none →
      Handles env r t (.response response) (.ok ()) (r, t)

theorem handles_of_handleMessage {message : Message URI}
    {result : Except RequestReceiverError Unit}
    (h : handleMessage env message (r, t) = .ok (result, s')) :
    Handles env r t message result s' := by
  cases message with
  | request request =>
    simp only [handleMessage] at h
    split at h
    · next hallowed =>
      cases hf : r.forwardingReceiver with
      | none =>
        rw [hf] at h
        cases h
      | some f =>
        rw [hf] at h
        cases h
        exact .request hallowed hf
    · next hallowed =>
      cases h
      exact .shut (Bool.eq_false_iff.mpr hallowed)
  | response response =>
    simp only [handleMessage] at h
    split at h
    · next p hp =>
      cases h
      exact .response hp
    · next hnone =>
      cases h
      exact .ignored hnone

/-- How reading comes to its end, where it does not panic. -/
inductive ReadsTo (env : Answers URI URIError) : List (StreamAnswer URI URIError) →
    State URI URIError → Poll Unit (ProtocolError URIError) → State URI URIError → Prop where
  /-- The stream is not looked at. -/
  | full {answers r t} : r.forwardingReceiver.any (·.isFull) = true →
      ReadsTo env answers (r, t) (.ok .notReady) ({ r with stream := true }, t)
  | notReady {answers r t} : r.forwardingReceiver.any (·.isFull) = false →
      (∀ message rest, answers ≠ .message message :: rest) →
      ReadsTo env answers (r, t) (.ok .notReady) ({ r with stream := true }, t.answer .notReady)
  | message {message answers r t s₁ result s'} : r.forwardingReceiver.any (·.isFull) = false →
      Handles env r (t.answer (.message message)) message (.ok ()) s₁ →
      ReadsTo env answers s₁ result s' → ReadsTo env (.message message :: answers) (r, t) result s'
  | rejected {message answers r t error r₁ t₁ t₂ result s'} :
      r.forwardingReceiver.any (·.isFull) = false →
      Handles env r (t.answer (.message message)) message (.error error) (r₁, t₁) →
      handleRequestReceiverError env r₁ error t₁ = .ok t₂ → ReadsTo env answers (r₁, t₂) result s' →
      ReadsTo env (.message message :: answers) (r, t) result s'
  | ended {answers r t} : r.forwardingReceiver.any (·.isFull) = false →
      ReadsTo env (.ended :: answers) (r, t) (.ok (.ready ())) (r, t.answer .ended)
  | error {error answers r t t'} : r.forwardingReceiver.any (·.isFull) = false →
      handleProtocolError env r error (t.answer (.error error)) = .ok t' →
      ReadsTo env (.error error :: answers) (r, t) (.error error) (r, t')

theorem readsTo_of_readLoop {answers : List (StreamAnswer URI URIError)}
    {result : Poll Unit (ProtocolError URIError)}
    (h : readLoop env answers s = .ok (result, s')) : ReadsTo env answers s result s' := by
  induction answers generalizing s with
  | nil =>
    obtain ⟨r, t⟩ := s
    rw [readLoop.eq_def] at h
    dsimp only at h
    split at h
    · next hfull =>
      cases h
      exact .full hfull
    · next hroom =>
      cases h
      exact .notReady (Bool.eq_false_iff.mpr hroom) fun _ _ h => by cases h
  | cons answer answers ih =>
    obtain ⟨r, t⟩ := s
    rw [readLoop.eq_def] at h
    dsimp only at h
    split at h
    · next hfull =>
      cases h
      exact .full hfull
    · next hroom =>
      have hroom := Bool.eq_false_iff.mpr hroom
      cases answer with
      | message message =>
        obtain ⟨⟨result', r', t'⟩, hmessage, h⟩ := bind_eq_ok h
        cases result' with
        | ok => exact .message hroom (handles_of_handleMessage hmessage) (ih h)
        | error error =>
          obtain ⟨t'', herror, h⟩ := bind_eq_ok h
          exact .rejected hroom (handles_of_handleMessage hmessage) herror (ih h)
      | notReady =>
        cases h
        exact .notReady hroom fun _ _ h => by cases h
      | ended =>
        cases h
        exact .ended hroom
      | error error =>
        obtain ⟨t', herror, h⟩ := bind_eq_ok h
        cases h
        exact .error hroom herror

/-! ## Receiving -/

theorem sendMessage_acts {message : Response} (h : sendMessage env message t = .ok t') :
    Acts env (r, t) (r, t') := by
  unfold sendMessage at h
  split at h
  · cases h
    exact .single (.reply _)
  · cases h

theorem handleProtocolError_acts {error : ProtocolError URIError}
    (h : handleProtocolError env r error t = .ok t') : Acts env (r, t) (r, t') := by
  unfold handleProtocolError at h
  split at h
  · split at h
    · exact sendMessage_acts h
    · cases h
      exact .refl
  · cases h
    exact .refl

theorem handleRequestReceiverError_acts {error : RequestReceiverError}
    (h : handleRequestReceiverError env r error t = .ok t') : Acts env (r, t) (r, t') := by
  unfold handleRequestReceiverError at h
  split at h
  · split at h
    · exact sendMessage_acts h
    · exact sendMessage_acts h
  · cases h

theorem Handles.acts {message : Message URI} {result : Except RequestReceiverError Unit}
    (hroom : r.forwardingReceiver.any (·.isFull) = false)
    (h : Handles env r t message result s') : Acts env (r, t) s' := by
  cases h with
  | request hallowed hf =>
    rw [hf] at hroom
    exact .single (.handle _ hallowed hf hroom)
  | response hp => exact .single (.respond _ _ hp)
  | shut _ => exact .refl
  | ignored _ => exact .refl

theorem ReadsTo.acts {answers : List (StreamAnswer URI URIError)}
    {result : Poll Unit (ProtocolError URIError)} (h : ReadsTo env answers s result s') :
    Acts env s s' := by
  induction h with
  | full _ => exact .single (.stream true)
  | notReady _ _ => exact .trans (.single (.answer _)) (.single (.stream true))
  | message hroom hmessage _ ih =>
    exact .head (.answer _) ((hmessage.acts hroom).trans ih)
  | rejected hroom hmessage herror _ ih =>
    have hacts := (hmessage.acts hroom).trans (handleRequestReceiverError_acts herror)
    exact .head (.answer _) (hacts.trans ih)
  | ended _ => exact .single (.answer _)
  | error _ herror => exact .head (.answer _) (handleProtocolError_acts herror)

theorem pollStream_acts {result : Poll Unit (ProtocolError URIError)}
    (h : pollStream env s = .ok (result, s')) : Acts env s s' := by
  obtain ⟨r, t⟩ := s
  simp only [pollStream] at h
  split at h
  · exact .trans (.single (.stream false)) (readsTo_of_readLoop h).acts
  · cases h
    exact .refl

/-- Codec events start and stop the decoding timer, and do nothing else. -/
theorem handleCodecEvents_eq (events : List CodecEvent) (r : Receiver URI) :
    ∃ b, events.foldl handleCodecEvent r = { r with decodingTimer := b } := by
  induction events generalizing r with
  | nil => exact ⟨r.decodingTimer, rfl⟩
  | cons event events ih =>
    obtain ⟨b, hb⟩ := ih (handleCodecEvent r event)
    refine ⟨b, ?_⟩
    rw [List.foldl_cons, hb]
    cases event <;> rfl

theorem pollCodecEvents_eq (h : pollCodecEvents env r = .ok r') :
    ∃ b, r' = { r with decodingTimer := b } := by
  obtain ⟨b, hb⟩ := handleCodecEvents_eq env.codecEvents r
  unfold pollCodecEvents at h
  dsimp only at h
  split at h
  · cases h
    exact ⟨b, hb⟩
  · cases h

theorem pollResponseReceiver_acts : Acts env s (pollResponseReceiver env s) := by
  obtain ⟨r, t⟩ := s
  unfold pollResponseReceiver
  dsimp only
  split
  · next p hp =>
    have hpolled : Action env (r, t)
        ({ r with responseReceiver := some (p.poll env.updates env.updatesEnd).2 }, t.deliver []) :=
      .respond _ _ hp
    rw [show t.deliver [] = t by simp [Trace.deliver]] at hpolled
    split
    · exact .trans (.single hpolled) (.single .shutResponses)
    · exact .single hpolled
  · exact .refl

/-- Updates leave requests alone, and ask nothing of the stream. -/
theorem pollResponseReceiver_keeps (env : Answers URI URIError) (r : Receiver URI)
    (t : Trace URI URIError) :
    (pollResponseReceiver env (r, t)).1.forwardingReceiver = r.forwardingReceiver ∧
      (pollResponseReceiver env (r, t)).1.requestsAllowed = r.requestsAllowed ∧
      (pollResponseReceiver env (r, t)).2.answered = t.answered := by
  unfold pollResponseReceiver
  dsimp only
  split
  · split
    · obtain ⟨ds, hshut⟩ := shutdownResponseReceiver_eq env
        { r with responseReceiver := some _ } t
      rw [hshut]
      exact ⟨rfl, rfl, rfl⟩
    · exact ⟨rfl, rfl, rfl⟩
  · exact ⟨rfl, rfl, rfl⟩

theorem pollReceiving_acts {a : Async Unit} (h : pollReceiving env s = .ok (a, s')) :
    Acts env s s' := by
  obtain ⟨⟨result, r, t⟩, hstream, h⟩ := bind_eq_ok h
  have hacts := pollResponseReceiver_acts.trans (pollStream_acts hstream)
  rcases result with _ | (_ | _)
  · cases h
    exact hacts
  · cases h
    exact hacts
  · obtain ⟨r₁, hevents, h⟩ := bind_eq_ok h
    obtain ⟨timer, -, h⟩ := bind_eq_ok h
    obtain ⟨b, rfl⟩ := pollCodecEvents_eq hevents
    have htimer := hacts.tail (.timer b)
    rcases timer with _ | (_ | _)
    · cases h
      exact htimer
    · cases h
      exact htimer
    · cases h
      exact htimer

/-! ## The whole poll -/

theorem shutdownReceiving_acts : Acts env s (shutdownReceiving env s) :=
  .trans (.single .shutRequests) (.single .shutResponses)

/-- The second half of a poll is at most one action. -/
theorem pollForwarding_acts : Acts env s (pollForwarding env s).2 := by
  obtain ⟨r, t⟩ := s
  unfold pollForwarding
  dsimp only
  split
  · next f hf =>
    split
    · next hresult => exact .single (.lose hf hresult)
    · next hresult =>
      split
      · next hshut =>
        have hallowed : r.requestsAllowed = false := Bool.not_eq_true' _ ▸ hshut
        exact .single (.finish hf hresult hallowed)
      · next hshut =>
        have hallowed : r.requestsAllowed = true := by
          simpa [isRequestReceiverShutdown] using hshut
        exact .single (.forward hf hresult fun _ => hallowed)
    · next hresult => exact .single (.forward hf hresult nofun)
  · exact .refl

/-- **A poll is a sequence of actions.** -/
theorem poll_acts {a : Async Unit} (h : r.poll env = .ok (a, s')) :
    Acts env (r, .empty) s' := by
  obtain ⟨⟨received, s⟩, hreceiving, h⟩ := bind_eq_ok h
  have hacts := pollReceiving_acts hreceiving
  cases received with
  | ready =>
    cases h
    exact (hacts.trans shutdownReceiving_acts).trans pollForwarding_acts
  | notReady =>
    cases h
    exact hacts.trans pollForwarding_acts

end Receiver
end Rtsp
