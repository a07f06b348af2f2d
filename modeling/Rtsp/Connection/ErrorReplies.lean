import Rtsp.Connection.Running

/-!
# Replies to errors

The receiver replies to errors through its handle on the sender, and takes it
for granted that the sender is still there. While requests are received, it is
(`Connection.Sound`). The handle is kept as long as responses are received,
though, and a connection whose sink has failed goes on receiving responses
without a sender. The reply to a request that cannot be decoded then panics,
and this is the only case (`poll_ne_senderGone_iff`).

To say when a poll panics, all other panics must be told apart from this one, and they
are, by the text of the `expect` (`senderGone`). A poll that panics at something else is
not contradicted by anything here.

`Unanswerable` is a condition on the connection before the poll and on what its stream
is going to answer. The stream has to be followed as far as its first error that is
replied to, past the messages in front of it; these cannot keep it from getting there,
as a receiver that takes no requests in does not fill its buffer.
-/

namespace Rtsp

open Lib

namespace Receiver

variable {URI URIError : Type} {env : Answers URI URIError} {s s' : State URI URIError}
  {r r' : Receiver URI} {t t' : Trace URI URIError}

/-- The panic of `send_message`. -/
def senderGone : Panic := .expect "`Receiver.sender_handle` should not have been dropped"

/-! ## Reading -/

/-- The error that reading comes to, if nothing but messages is before it. -/
def endsInError : List (StreamAnswer URI URIError) → Option (ProtocolError URIError)
  | .message _ :: answers => endsInError answers
  | .error error :: _ => some error
  | _ => none

/-- The stream comes to an error that is replied to. -/
def EndsInReply (answers : List (StreamAnswer URI URIError)) : Prop :=
  ∃ error message, endsInError answers = some error ∧ protocolErrorReply error = some message

theorem sendMessage_senderGone {message : Response} :
    sendMessage env message t = .error senderGone ↔ env.senderOpen = false := by
  unfold sendMessage
  cases env.senderOpen <;> simp [senderGone]

theorem handleProtocolError_senderGone {error : ProtocolError URIError} :
    handleProtocolError env r error t = .error senderGone ↔
      env.senderOpen = false ∧ r.senderHandle = true ∧
        ∃ message, protocolErrorReply error = some message := by
  unfold handleProtocolError
  cases r.senderHandle with
  | false => simp
  | true =>
    cases protocolErrorReply error with
    | none => simp
    | some message => simp [sendMessage_senderGone]

theorem handleRequestReceiverError_senderGone {error : RequestReceiverError}
    (hopen : env.senderOpen = true) :
    handleRequestReceiverError env r error t ≠ .error senderGone := by
  unfold handleRequestReceiverError
  split
  · cases error <;> simp [sendMessage_senderGone, hopen]
  · simp [senderGone]

/-- A message does not panic for want of a sender; and once requests are shut down it is
    handled without an error, and leaves requests and the handle on the sender alone. -/
theorem handleMessage_shut (message : Message URI)
    (hshut : r.requestsAllowed = false) : ∃ p ds, handleMessage env message (r, t) =
      .ok (.ok (), { r with responseReceiver := p }, t.deliver ds) := by
  have hnothing : t.deliver [] = t := by simp [Trace.deliver]
  cases message with
  | request request =>
    refine ⟨r.responseReceiver, [], ?_⟩
    simp only [handleMessage]
    rw [if_neg (by simp [hshut]), hnothing]
  | response response =>
    simp only [handleMessage]
    split
    · exact ⟨some _, _, rfl⟩
    · exact ⟨r.responseReceiver, [], by rw [hnothing]⟩

theorem handleMessage_senderGone {message : Message URI} :
    handleMessage env message (r, t) ≠ .error senderGone := by
  cases message with
  | request request =>
    simp only [handleMessage]
    split
    · cases r.forwardingReceiver <;> simp [expect, senderGone]
    · simp
  | response response =>
    simp only [handleMessage]
    split <;> simp

/-- **Reading panics for want of a sender** exactly when the stream comes to an error that
    is replied to, the handle on the sender is still there, and the sender is not. -/
theorem readLoop_senderGone {answers : List (StreamAnswer URI URIError)}
    (hallowed : r.requestsAllowed = true → env.senderOpen = true) :
    readLoop env answers (r, t) = .error senderGone ↔
      env.senderOpen = false ∧ r.senderHandle = true ∧
        r.forwardingReceiver.any (·.isFull) = false ∧ EndsInReply answers := by
  induction answers generalizing r t with
  | nil =>
    rw [readLoop.eq_def]
    dsimp only
    split <;> simp [EndsInReply, endsInError]
  | cons answer answers ih =>
    rw [readLoop.eq_def]
    dsimp only
    split
    · next hfull => simp [hfull]
    · next hroom =>
      have hroom := Bool.eq_false_iff.mpr hroom
      cases answer with
      | message message =>
        dsimp only
        rcases Bool.eq_false_or_eq_true r.requestsAllowed with hr | hr
        · -- The sender is there, and nothing panics for want of it.
          have hopen := hallowed hr
          have hrest : ∀ {r' t'}, readLoop env answers (r', t') ≠ .error senderGone := by
            intro r' t' hpanic
            have hgone := ((ih fun _ => hopen).mp hpanic).1
            rw [hopen] at hgone
            cases hgone
          refine iff_of_false (fun hpanic => ?_) (by simp [hopen])
          rcases bind_eq_error_iff.mp hpanic with hmessage | ⟨⟨result, r', t'⟩, -, hpanic⟩
          · exact handleMessage_senderGone hmessage
          · cases result with
            | ok => exact hrest hpanic
            | error error =>
              rcases bind_eq_error_iff.mp hpanic with herror | ⟨t'', -, hpanic⟩
              · exact handleRequestReceiverError_senderGone hopen herror
              · exact hrest hpanic
        · obtain ⟨p, ds, hmessage⟩ := handleMessage_shut message hr
          rw [hmessage]
          exact ih (r := { r with responseReceiver := p })
            (t := (t.answer (.message message)).deliver ds) hallowed
      | notReady => simp [EndsInReply, endsInError]
      | ended => simp [EndsInReply, endsInError]
      | error error =>
        simp [bind_eq_error_iff, handleProtocolError_senderGone, EndsInReply, endsInError, hroom]

/-! ## A poll of the receiver -/

/-- The response receiver goes on behind the updates of this poll. -/
def listens (r : Receiver URI) (env : Answers URI URIError) : Bool :=
  r.responseReceiver.any fun p => !p.isDone && !env.updatesEnd

/-- What a poll comes to, that only receives responses any more, is an error it replies
    to. -/
def Replies (r : Receiver URI) (env : Answers URI URIError) : Prop :=
  r.stream = true ∧ r.listens env = true ∧ r.forwardingReceiver.any (·.isFull) = false ∧
    EndsInReply env.stream

/-- Behind the updates, the handle on the sender and the stream are there if responses are
    still received. -/
theorem pollResponseReceiver_shut (env : Answers URI URIError) (t : Trace URI URIError)
    (hr : r.Sound) (hshut : r.requestsAllowed = false) :
    (pollResponseReceiver env (r, t)).1.senderHandle = r.listens env ∧
      (r.listens env = true → (pollResponseReceiver env (r, t)).1.stream = r.stream) := by
  have hsender := hr.senderHandle
  rw [hshut, Bool.false_or] at hsender
  obtain ⟨timer, f, allowed, p, sender, stream⟩ := r
  dsimp only at hshut hsender
  subst hshut hsender
  cases p with
  | none => exact ⟨rfl, fun _ => rfl⟩
  | some p =>
    unfold pollResponseReceiver listens ResponseReceiver.poll
    cases hdone : p.isDone with
    | true =>
      obtain ⟨ds, hshutdown⟩ := shutdownResponseReceiver_eq env
        (⟨timer, f, false, some p, true, stream⟩ : Receiver URI) t
      simp [hdone, hshutdown]
    | false =>
      cases hend : env.updatesEnd with
      | true =>
        obtain ⟨ds, hshutdown⟩ := shutdownResponseReceiver_eq env
          (⟨timer, f, false, some { env.updates.foldl ResponseReceiver.handlePendingRequestUpdate p
            with isDone := true }, true, stream⟩ : Receiver URI) t
        simp [hdone, hshutdown]
      | false => simp [hdone]

/-- Only reading panics for want of a sender. -/
theorem poll_senderGone_iff_pollStream :
    r.poll env = .error senderGone ↔
      pollStream env (pollResponseReceiver env (r, .empty)) = .error senderGone := by
  unfold poll pollReceiving
  rw [bind_eq_error_iff, bind_eq_error_iff]
  constructor
  · rintro ((hstream | ⟨⟨result, r₁, t₁⟩, -, hrest⟩) | ⟨⟨a, s⟩, -, hrest⟩)
    · exact hstream
    · rcases result with _ | (_ | _)
      · cases hrest
      · cases hrest
      · rcases bind_eq_error_iff.mp hrest with hevents | ⟨r₂, -, hrest⟩
        · unfold pollCodecEvents at hevents
          dsimp only at hevents
          split at hevents <;> simp [senderGone] at hevents
        rcases bind_eq_error_iff.mp hrest with htimer | ⟨timer, -, hrest⟩
        · unfold pollDecodingTimer at htimer
          split at htimer
          · split at htimer <;> simp [senderGone] at htimer
          · cases htimer
        · rcases timer with _ | (_ | _) <;> cases hrest
    · cases hrest
  · exact fun hstream => .inl (.inl hstream)

/-- **A poll panics for want of a sender** exactly if it only receives responses any more,
    and what it comes to is an error it replies to. -/
theorem poll_senderGone (env : Answers URI URIError) (hr : r.Sound)
    (hallowed : r.requestsAllowed = true → env.senderOpen = true) :
    r.poll env = .error senderGone ↔
      env.senderOpen = false ∧ r.requestsAllowed = false ∧ r.Replies env := by
  rw [poll_senderGone_iff_pollStream]
  obtain ⟨hforwarding, hkept, -⟩ :=
    pollResponseReceiver_keeps env r (.empty : Trace URI URIError)
  have hread : pollStream env (pollResponseReceiver env (r, .empty)) = .error senderGone ↔
      (pollResponseReceiver env (r, .empty)).1.stream = true ∧ env.senderOpen = false ∧
        (pollResponseReceiver env (r, .empty)).1.senderHandle = true ∧
        r.forwardingReceiver.any (·.isFull) = false ∧ EndsInReply env.stream := by
    rw [← hforwarding]
    rw [← hkept] at hallowed
    generalize pollResponseReceiver env (r, .empty) = s at hallowed
    obtain ⟨r₀, t₀⟩ := s
    unfold pollStream
    dsimp only at hallowed ⊢
    cases hstream : r₀.stream with
    | true =>
      rw [if_pos rfl, and_iff_right rfl]
      exact readLoop_senderGone (r := { r₀ with stream := false }) hallowed
    | false => simp
  rw [hread]
  rcases Bool.eq_false_or_eq_true r.requestsAllowed with hr' | hshut
  · simp [hallowed hr', hr']
  · obtain ⟨hsender, hstream⟩ := pollResponseReceiver_shut env .empty hr hshut
    rw [hsender]
    constructor
    · rintro ⟨hopen, hgone, hlistens, hroom, hends⟩
      exact ⟨hgone, hshut, hstream hlistens ▸ hopen, hlistens, hroom, hends⟩
    · rintro ⟨hgone, -, hopen, hlistens, hroom, hends⟩
      exact ⟨(hstream hlistens).trans hopen, hgone, hlistens, hroom, hends⟩

end Receiver

namespace ShutdownHandler

/-- The shutdown handler sends nothing. -/
theorem pollLoop_senderGone {env : Answers} {turns : Nat} {h : ShutdownHandler} :
    pollLoop env turns h ≠ .error Receiver.senderGone := by
  induction turns generalizing h with
  | zero => simp [pollLoop, Receiver.senderGone]
  | succ turns ih =>
    rw [pollLoop]
    split
    · intro hpanic
      rcases bind_eq_error_iff.mp hpanic with hrunning | ⟨⟨result, h'⟩, -, hpanic⟩
      · unfold pollRunning at hrunning
        split at hrunning
        · split at hrunning <;> cases hrunning
        · simp [Receiver.senderGone] at hrunning
      · cases result with
        | ready => exact ih hpanic
        | notReady => cases hpanic
    · intro hpanic
      rcases bind_eq_error_iff.mp hpanic with hshutting | ⟨⟨result, h'⟩, -, hpanic⟩
      · unfold pollShuttingDown at hshutting
        split at hshutting
        · split at hshutting <;> simp [Receiver.senderGone] at hshutting
        · simp [Receiver.senderGone] at hshutting
      · cases result with
        | ready => exact ih hpanic
        | notReady => cases hpanic
    · exact nofun

end ShutdownHandler

namespace Connection

variable {URI URIError : Type} {c : Connection URI} {env : Answers URI URIError}

/-- The receiver has to reply to an error, and there is no sender to take the reply. -/
def Unanswerable (c : Connection URI) (env : Answers URI URIError) : Prop :=
  c.sender = none ∧ ∃ r, c.receiver = some r ∧ r.Replies env.receiver

theorem pollReceiver_senderGone (hc : c.Sound) :
    c.pollReceiver env = .error Receiver.senderGone ↔ c.Unanswerable env := by
  unfold pollReceiver Unanswerable
  cases hr : c.receiver with
  | none => simp
  | some r =>
    have hallowed : r.requestsAllowed = true → c.sender.isSome = true := fun hallowed => by
      cases hs : c.sender with
      | some s => rfl
      | none =>
        rw [hc.sender hs r hr] at hallowed
        cases hallowed
    have hpoll := Receiver.poll_senderGone (c.receiverAnswers env) (hc.receiver r hr) hallowed
    refine Iff.trans (bind_eq_error_iff.trans ⟨?_, .inl⟩) (hpoll.trans ?_)
    · rintro (hpanic | ⟨⟨a, r', t⟩, -, hpanic⟩)
      · exact hpanic
      · cases a <;> cases hpanic
    · rw [show ((c.receiverAnswers env).senderOpen = false ↔ c.sender = none) by
        simp [receiverAnswers]]
      constructor
      · rintro ⟨hnone, -, hreplies⟩
        exact ⟨hnone, r, rfl, hreplies⟩
      · rintro ⟨hnone, r', hr', hreplies⟩
        obtain rfl : r = r' := Option.some.inj hr'
        exact ⟨hnone, hc.sender hnone r hr, hreplies⟩

/-- **Replies to errors panic for want of a sender** in no poll of a connection, but
    exactly in those where it goes on receiving responses without a sender and comes to an
    error it replies to. -/
theorem poll_ne_senderGone_iff {service : Bool} {size : Nat} {ops : List (Op URI URIError)}
    (hrun : Run Step (withConfig service size) ops c) :
    c.poll env ≠ .error Receiver.senderGone ↔ ¬ c.Unanswerable env := by
  rw [← pollReceiver_senderGone (sound_run hrun)]
  refine not_congr ⟨fun hpanic => ?_, fun hreceiver => ?_⟩
  · rcases bind_eq_error_iff.mp hpanic with hreceiver | ⟨⟨c₁, t⟩, -, hpanic⟩
    · exact hreceiver
    · rcases bind_eq_error_iff.mp hpanic with hshutdown | ⟨⟨r, shutdown⟩, -, hpanic⟩
      · exact absurd hshutdown ShutdownHandler.pollLoop_senderGone
      · cases hpanic
  · exact bind_eq_error_iff.mpr (.inl hreceiver)

/-- A sink that fails. -/
def sinkFails : Answers AsteriskURI Unit :=
  { (Answers.idle : Answers AsteriskURI Unit) with
    sender := { Sender.Answers.idle with pollComplete := .error () } }

/-- A request of another version. -/
def otherVersion : Answers AsteriskURI Unit :=
  { (Answers.idle : Answers AsteriskURI Unit) with
    receiver := { (Receiver.Answers.idle : Receiver.Answers AsteriskURI Unit) with
      stream := [.error (.decodeError (.request .unsupportedVersion))] } }

/-- As long as the sender is there, the request of another version is replied to. -/
theorem poll_ne_senderGone_otherVersion :
    (withConfig true 10).poll otherVersion ≠ .error Receiver.senderGone :=
  (poll_ne_senderGone_iff .start).mpr fun h => by cases h.1

/-- **The reply can panic**: the sink fails, and then a request of another version comes in
    on a connection that still waits for responses. -/
theorem reply_panics :
    ¬ ∀ service size (ops : List (Op AsteriskURI Unit)) c,
      Run Step (withConfig service size) ops c →
      ∀ env : Answers AsteriskURI Unit, c.poll env ≠ .error Receiver.senderGone := by
  intro h
  let c := (returned ((withConfig true 10).poll sinkFails) (by decide +kernel)).2.1
  have hrun : Run Step (withConfig true 10) [.poll sinkFails] c :=
    .snoc .start (.poll (eq_ok_returned (by decide +kernel)))
  exact h _ _ _ _ hrun otherVersion (eq_error_of_panicOf (by decide +kernel))

end Connection
end Rtsp
