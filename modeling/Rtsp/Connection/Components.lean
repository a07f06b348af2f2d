import Rtsp.Connection.ErrorReplies

/-!
# What the parts of a receiver have in common

The receiver is polled, and told to shut its parts down, in any order
(`Performs`). What it keeps of the forwarding receiver, the response receiver,
the handle on the sender and the stream fits together before and after each of
these calls (`Coherent`), and so three of its panics are out of reach: a request
is never handled without a forwarding receiver, its rejection never without a
handle on the sender, and codec events are never polled without the stream.

The source has these conditions nowhere but in the texts of its `expect`s. A part is
dropped by setting its field to `None`, in four functions some of which call others, and
`poll` takes some of the fields for granted; `Coherent` is what the four have to keep to
for `poll` not to panic.

The functions are called as the connection could call them and also as it does not, in
any order and again after the end. The stream is out of its field while it is being
read, and in that time the receiver is not coherent; `Reading` is what is left of it
then.

Two panics remain. One is for the runtime, whose timer must not be gone, and the other
is for the connection, which drops the sender while the receiver still has something to
reply (`Connection.Closing`).
-/

namespace Rtsp

open Lib

namespace Receiver

variable {URI URIError : Type}

/-! ## The calls -/

/-- What is called on a receiver. -/
inductive Command (URI URIError : Type) where
  | poll (env : Answers URI URIError)
  | shutdownRequestReceiver
  | shutdownResponseReceiver (env : Answers URI URIError)
  | shutdownReceiving (env : Answers URI URIError)
  | shutdownForwardingReceiver

inductive Performs : Receiver URI → Command URI URIError → Receiver URI → Prop where
  | poll {r env a r' t} : r.poll env = .ok (a, r', t) → Performs r (.poll env) r'
  | shutdownRequestReceiver {r} : Performs r .shutdownRequestReceiver r.shutdownRequestReceiver
  | shutdownResponseReceiver {r env} (t : Trace URI URIError) :
      Performs r (.shutdownResponseReceiver env) (shutdownResponseReceiver env (r, t)).1
  | shutdownReceiving {r env} (t : Trace URI URIError) :
      Performs r (.shutdownReceiving env) (shutdownReceiving env (r, t)).1
  | shutdownForwardingReceiver {r} :
      Performs r .shutdownForwardingReceiver r.shutdownForwardingReceiver

/-- How the parts of a receiver fit together. -/
structure Coherent (r : Receiver URI) : Prop where
  forwarding : r.requestsAllowed = true → r.forwardingReceiver.isSome = true
  /-- Rejected requests are replied to. -/
  rejecting : r.requestsAllowed = true → r.senderHandle = true
  responding : r.responseReceiver.isSome = true → r.senderHandle = true
  /-- The stream is let go with the last of the two. -/
  stream : r.requestsAllowed = false → r.responseReceiver = none → r.stream = false

/-- The panics that are left: the runtime's timer is gone, or the sender is. -/
inductive Excused (env : Answers URI URIError) : Panic → Prop where
  | timer : env.decodingTimer = .shutdown →
      Excused env (.expect "decoding timer should not be shutdown")
  | sender : env.senderOpen = false → Excused env senderGone

variable {r r' : Receiver URI} {env : Answers URI URIError} {t t' : Trace URI URIError}
  {s : State URI URIError} {p : Panic}

theorem coherent_new (size : Nat) : (new size : Receiver URI).Coherent :=
  ⟨fun _ => rfl, fun _ => rfl, fun _ => rfl, nofun⟩

/-! ## Shutting down -/

namespace Coherent

theorem shutdownRequestReceiver (hr : r.Coherent) : r.shutdownRequestReceiver.Coherent := by
  rw [shutdownRequestReceiver_eq]
  -- Requests are not allowed any more; the handle and the stream stay for the responses.
  refine ⟨nofun, nofun, fun hresponses => ?_, fun _ hnone => ?_⟩
  · show (r.senderHandle && r.responseReceiver.isSome) = true
    rw [show r.responseReceiver.isSome = true from hresponses, Bool.and_true]
    exact hr.responding hresponses
  · show (r.stream && r.responseReceiver.isSome) = false
    rw [show r.responseReceiver = none from hnone]
    exact Bool.and_false _

theorem shutdownResponseReceiver (hr : r.Coherent) (t : Trace URI URIError) :
    (shutdownResponseReceiver env (r, t)).1.Coherent := by
  obtain ⟨ds, hshut⟩ := shutdownResponseReceiver_eq env r t
  rw [hshut]
  refine ⟨hr.forwarding, fun hallowed => ?_, nofun, fun hshut _ => ?_⟩
  · show (r.senderHandle && r.requestsAllowed) = true
    rw [show r.requestsAllowed = true from hallowed, Bool.and_true]
    exact hr.rejecting hallowed
  · show (r.stream && r.requestsAllowed) = false
    rw [show r.requestsAllowed = false from hshut]
    exact Bool.and_false _

theorem shutdownReceiving (hr : r.Coherent) (t : Trace URI URIError) :
    (shutdownReceiving env (r, t)).1.Coherent :=
  hr.shutdownRequestReceiver.shutdownResponseReceiver t

/-- The forwarding receiver goes with the requests. -/
theorem shutdownForwardingReceiver (hr : r.Coherent) : r.shutdownForwardingReceiver.Coherent := by
  have hshut : r.shutdownForwardingReceiver =
      { r.shutdownRequestReceiver with forwardingReceiver := none } := by
    unfold Receiver.shutdownForwardingReceiver
    rw [shutdownRequestReceiver_eq, shutdownRequestReceiver_eq]
    rfl
  have hcoherent := hr.shutdownRequestReceiver
  rw [hshut]
  refine ⟨fun hallowed => ?_, hcoherent.rejecting, hcoherent.responding, hcoherent.stream⟩
  rw [shutdownRequestReceiver_eq] at hallowed
  cases hallowed

end Coherent

/-! ## Reading -/

/-- What reading leaves alone. -/
structure Keeps (r r' : Receiver URI) : Prop where
  requestsAllowed : r'.requestsAllowed = r.requestsAllowed
  senderHandle : r'.senderHandle = r.senderHandle
  forwardingReceiver : r'.forwardingReceiver.isSome = r.forwardingReceiver.isSome
  responseReceiver : r'.responseReceiver.isSome = r.responseReceiver.isSome

namespace Keeps

theorem refl (r : Receiver URI) : Keeps r r := ⟨rfl, rfl, rfl, rfl⟩

theorem trans {r₁ r₂ r₃ : Receiver URI} (h : Keeps r₁ r₂) (h' : Keeps r₂ r₃) : Keeps r₁ r₃ :=
  ⟨h'.requestsAllowed.trans h.requestsAllowed, h'.senderHandle.trans h.senderHandle,
    h'.forwardingReceiver.trans h.forwardingReceiver,
    h'.responseReceiver.trans h.responseReceiver⟩

/-- Reading that does not bring a stream back keeps a receiver coherent. -/
theorem coherent (h : Keeps r r') (hr : r.Coherent)
    (hstream : r.stream = false → r'.stream = false) : r'.Coherent := by
  refine ⟨?_, ?_, ?_, ?_⟩
  · rw [h.requestsAllowed, h.forwardingReceiver]
    exact hr.forwarding
  · rw [h.requestsAllowed, h.senderHandle]
    exact hr.rejecting
  · rw [h.responseReceiver, h.senderHandle]
    exact hr.responding
  · intro hallowed hnone
    have hresponses := h.responseReceiver
    rw [hnone] at hresponses
    exact hstream (hr.stream (h.requestsAllowed.symm.trans hallowed)
      (by simpa using hresponses.symm))

end Keeps

/-- What a read needs of the receiver: whether or not the stream is taken out. -/
structure Reading (r : Receiver URI) : Prop where
  forwarding : r.requestsAllowed = true → r.forwardingReceiver.isSome = true
  rejecting : r.requestsAllowed = true → r.senderHandle = true

theorem Reading.keeps (h : r.Reading) (hkeeps : Keeps r r') : r'.Reading := by
  constructor
  · rw [hkeeps.requestsAllowed, hkeeps.forwardingReceiver]
    exact h.forwarding
  · rw [hkeeps.requestsAllowed, hkeeps.senderHandle]
    exact h.rejecting

/-- How a message is handled: a rejection is one of a request. -/
theorem handleMessage_reading (env : Answers URI URIError) (t : Trace URI URIError) (h : r.Reading)
    (message : Message URI) :
    ∃ result r' t', handleMessage env message (r, t) = .ok (result, r', t') ∧ Keeps r r' ∧
      (∀ error, result = .error error → r.requestsAllowed = true) := by
  cases message with
  | request request =>
    simp only [handleMessage]
    split
    · next hallowed =>
      obtain ⟨f, hf⟩ := Option.isSome_iff_exists.mp (h.forwarding hallowed)
      rw [hf]
      exact ⟨_, _, _, rfl, ⟨rfl, rfl, by rw [hf]; rfl, rfl⟩, fun _ _ => hallowed⟩
    · exact ⟨_, _, _, rfl, .refl r, fun _ h => by cases h⟩
  | response response =>
    simp only [handleMessage]
    split
    · next p hp => exact ⟨_, _, _, rfl, ⟨rfl, rfl, rfl, by rw [hp]; rfl⟩, fun _ h => by cases h⟩
    · exact ⟨_, _, _, rfl, .refl r, fun _ h => by cases h⟩

/-- What reading can come to. -/
inductive Reads (env : Answers URI URIError) (r : Receiver URI) :
    Rust (Poll Unit (ProtocolError URIError) × State URI URIError) → Prop where
  | read {result r' t'} : Keeps r r' → (result = .ok .notReady → r'.stream = true) →
      Reads env r (.ok (result, r', t'))
  | panic : env.senderOpen = false → Reads env r (.error senderGone)

theorem Reads.of_keeps {result : Rust (Poll Unit (ProtocolError URIError) × State URI URIError)}
    (h : Keeps r r') (hreads : Reads env r' result) : Reads env r result := by
  cases hreads with
  | read hkeeps hstream => exact .read (h.trans hkeeps) hstream
  | panic hgone => exact .panic hgone

theorem sendMessage_cases (env : Answers URI URIError) (message : Response)
    (t : Trace URI URIError) : (∃ t', sendMessage env message t = .ok t') ∨
      env.senderOpen = false ∧ sendMessage env message t = .error senderGone := by
  unfold sendMessage
  cases hopen : env.senderOpen with
  | true => exact .inl ⟨_, rfl⟩
  | false => exact .inr ⟨rfl, rfl⟩

theorem handleProtocolError_cases (error : ProtocolError URIError) :
    (∃ t', handleProtocolError env r error t = .ok t') ∨
      env.senderOpen = false ∧ handleProtocolError env r error t = .error senderGone := by
  unfold handleProtocolError
  split
  · split
    · exact sendMessage_cases env _ t
    · exact .inl ⟨_, rfl⟩
  · exact .inl ⟨_, rfl⟩

theorem handleRequestReceiverError_cases (hsender : r.senderHandle = true)
    (error : RequestReceiverError) :
    (∃ t', handleRequestReceiverError env r error t = .ok t') ∨
      env.senderOpen = false ∧ handleRequestReceiverError env r error t = .error senderGone := by
  unfold handleRequestReceiverError
  rw [if_pos hsender]
  cases error with
  | badRequest => exact sendMessage_cases env _ t
  | cseqDifferenceTooLarge => exact sendMessage_cases env _ t

/-- The stream is put back where the loop is left without an end. -/
theorem readLoop_reads (h : r.Reading) (answers : List (StreamAnswer URI URIError)) :
    Reads env r (readLoop env answers (r, t)) := by
  induction answers generalizing r t with
  | nil =>
    rw [readLoop.eq_def]
    dsimp only
    split
    · exact .read ⟨rfl, rfl, rfl, rfl⟩ fun _ => rfl
    · exact .read ⟨rfl, rfl, rfl, rfl⟩ fun _ => rfl
  | cons answer answers ih =>
    rw [readLoop.eq_def]
    dsimp only
    split
    -- A forwarding receiver that is full ends the loop before the stream is looked at.
    · exact .read ⟨rfl, rfl, rfl, rfl⟩ fun _ => rfl
    · cases answer with
      | notReady => exact .read ⟨rfl, rfl, rfl, rfl⟩ fun _ => rfl
      | ended => exact .read (.refl r) fun h => by cases h
      | error error =>
        dsimp only
        rcases handleProtocolError_cases error with ⟨t', hreply⟩ | ⟨hgone, hpanic⟩
        · rw [hreply]
          exact .read (.refl r) fun h => by cases h
        · rw [hpanic]
          exact .panic hgone
      | message message =>
        obtain ⟨result, r₁, t₁, hmessage, hkeeps, hrejected⟩ :=
          handleMessage_reading env (t.answer (.message message)) h message
        dsimp only
        rw [hmessage, ok_bind]
        have hreading := h.keeps hkeeps
        cases result with
        | ok => exact .of_keeps hkeeps (ih hreading)
        | error error =>
          dsimp only
          -- Only requests are rejected, so they are allowed, and there is a handle to reply on.
          have hsender : r₁.senderHandle = true :=
            hreading.rejecting (hkeeps.requestsAllowed.trans (hrejected error rfl))
          rcases handleRequestReceiverError_cases hsender error with ⟨t', hreply⟩ | ⟨hgone, hpanic⟩
          · rw [hreply, ok_bind]
            exact .of_keeps hkeeps (ih hreading)
          · rw [hpanic]
            exact .panic hgone

/-! ## Polling -/

/-- What the stream does to a coherent receiver. -/
theorem pollStream_reads (hr : r.Coherent) : Reads env r (pollStream env (r, t)) := by
  simp only [pollStream]
  split
  · have htaken : Reading { r with stream := false } := ⟨hr.forwarding, hr.rejecting⟩
    have hkeeps : Keeps r { r with stream := false } := ⟨rfl, rfl, rfl, rfl⟩
    exact .of_keeps hkeeps (readLoop_reads htaken env.stream)
  · exact .read (.refl r) fun h => by cases h

/-- **Codec events are polled only while the stream is there.** -/
theorem pollStream_coherent {result : Poll Unit (ProtocolError URIError)} (hr : r.Coherent)
    (h : pollStream env (r, t) = .ok (result, r', t')) :
    r'.Coherent ∧ (result = .ok .notReady → r'.stream = true) := by
  have hreads : Reads env r (pollStream env (r, t)) := pollStream_reads hr
  rw [h] at hreads
  cases hreads with
  | read hkeeps hstream =>
    refine ⟨hkeeps.coherent hr fun hgone => ?_, hstream⟩
    -- Without a stream nothing is read.
    simp only [pollStream, hgone] at h
    cases h
    exact hgone

theorem pollResponseReceiver_coherent (hr : r.Coherent) (t : Trace URI URIError) :
    (pollResponseReceiver env (r, t)).1.Coherent := by
  unfold pollResponseReceiver
  dsimp only
  split
  · next p hp =>
    have hupdated : Coherent
        { r with responseReceiver := some (p.poll env.updates env.updatesEnd).2 } :=
      ⟨hr.forwarding, hr.rejecting, fun _ => hr.responding (by rw [hp]; rfl), nofun⟩
    split
    · exact hupdated.shutdownResponseReceiver t
    · exact hupdated
  · exact hr

theorem pollCodecEvents_of_stream (env : Answers URI URIError) (hstream : r.stream = true) :
    ∃ b, pollCodecEvents env r = .ok { r with decodingTimer := b } := by
  obtain ⟨b, hb⟩ := handleCodecEvents_eq env.codecEvents r
  refine ⟨b, ?_⟩
  unfold pollCodecEvents
  simp [hb, hstream]

/-- How receiving comes out. -/
inductive Receives (env : Answers URI URIError) :
    Rust (Async Unit × State URI URIError) → Prop where
  | received (a : Async Unit) (s₁ : State URI URIError) : s₁.1.Coherent →
      Receives env (.ok (a, s₁))
  | panic (q : Panic) : Excused env q → Receives env (.error q)

theorem pollReceiving_receives (hr : r.Coherent) (t : Trace URI URIError) :
    Receives env (pollReceiving env (r, t)) := by
  have hupdated : (pollResponseReceiver env (r, t)).1.Coherent := pollResponseReceiver_coherent hr t
  have hreads : Reads env (pollResponseReceiver env (r, t)).1
    (pollStream env (pollResponseReceiver env (r, t))) := pollStream_reads hupdated
  unfold pollReceiving
  cases hread : pollStream env (pollResponseReceiver env (r, t)) with
  | error p =>
    rw [hread] at hreads
    cases hreads with
    | panic hgone => exact .panic _ (.sender hgone)
  | ok x =>
    obtain ⟨result, r₁, t₁⟩ := x
    obtain ⟨hcoherent, hstream⟩ := pollStream_coherent hupdated hread
    rw [ok_bind]
    rcases result with _ | (_ | _)
    · exact .received _ _ hcoherent
    · exact .received _ _ hcoherent
    -- The stream was not ready, so it is there, and the codec with it.
    · obtain ⟨b, hb⟩ := pollCodecEvents_of_stream env (hstream rfl)
      have hpolled : Coherent { r₁ with decodingTimer := b } :=
        ⟨hcoherent.forwarding, hcoherent.rejecting, hcoherent.responding, hcoherent.stream⟩
      dsimp only
      rw [hb, ok_bind]
      unfold pollDecodingTimer
      split
      · split
        · exact .received _ _ hpolled
        · exact .received _ _ hpolled
        · exact .received _ _ hpolled
        · next htimer => exact .panic _ (.timer htimer)
      · exact .received _ _ hpolled

theorem pollForwarding_coherent (hr : r.Coherent) (t : Trace URI URIError) :
    (pollForwarding env (r, t)).2.1.Coherent := by
  unfold pollForwarding
  dsimp only
  split
  · next f hf =>
    have hpolled : Coherent { r with forwardingReceiver := some (f.poll env.handler).2.1 } :=
      ⟨fun _ => rfl, hr.rejecting, hr.responding, hr.stream⟩
    split
    · exact hpolled.shutdownForwardingReceiver
    · split
      · exact hpolled.shutdownForwardingReceiver
      · exact hpolled
    · exact hpolled
  · exact hr

/-- **A poll of a coherent receiver leaves a coherent one**, or panics for want of a timer or a
    sender. -/
theorem poll_receives (hr : r.Coherent) (env : Answers URI URIError) :
    Receives env (r.poll env) := by
  have hreceives : Receives env (pollReceiving env (r, .empty)) := pollReceiving_receives hr .empty
  unfold poll
  generalize pollReceiving env (r, .empty) = received at hreceives
  cases hreceives with
  | panic p hp => exact .panic p hp
  | received a s hs =>
    rw [ok_bind]
    cases a with
    | ready => exact .received _ _ (pollForwarding_coherent (hs.shutdownReceiving s.2) _)
    | notReady => exact .received _ _ (pollForwarding_coherent hs _)

theorem Coherent.performs {c : Command URI URIError} (hr : r.Coherent) (h : Performs r c r') :
    r'.Coherent := by
  cases h with
  | @poll env a _ t hpoll =>
    have hreceives := poll_receives hr env
    rw [hpoll] at hreceives
    cases hreceives with
    | received _ _ hcoherent => exact hcoherent
  | shutdownRequestReceiver => exact hr.shutdownRequestReceiver
  | shutdownResponseReceiver t => exact hr.shutdownResponseReceiver t
  | shutdownReceiving t => exact hr.shutdownReceiving t
  | shutdownForwardingReceiver => exact hr.shutdownForwardingReceiver

/-- The panics that a coherent receiver keeps out of reach. -/
def unreachable : List Panic :=
  [.expect "presence of request receiver should imply forwarding",
    .expect "request receiver error should imply message sending is active",
    .expect "`Receiver.rx_codec_event` should not end"]

theorem Excused.not_mem_unreachable (h : Excused env p) : p ∉ unreachable := by
  cases h with
  | timer => decide
  | sender => decide

/-! ## The result -/

/-- **A receiver is coherent in every run.** Codec events are polled only while the stream is
    there, and the panics that the invariant excludes are out of reach. -/
theorem coherent_run {size : Nat} {commands : List (Command URI URIError)}
    (h : Run Performs (new size) commands r) :
    r.Coherent ∧ ∀ env : Answers URI URIError,
      (∀ s, pollStream env (pollResponseReceiver env (r, .empty)) = .ok (.ok .notReady, s) →
        s.1.stream = true) ∧
      ∀ p ∈ unreachable, r.poll env ≠ .error p := by
  have hcoherent : r.Coherent :=
    h.invariant (coherent_new size) fun _ _ _ hr hstep => hr.performs hstep
  refine ⟨hcoherent, fun env => ⟨fun s hread => ?_, fun p hp hpanic => ?_⟩⟩
  · exact (pollStream_coherent (pollResponseReceiver_coherent hcoherent .empty) hread).2 rfl
  · have hreceives := poll_receives hcoherent env
    rw [hpanic] at hreceives
    cases hreceives with
    | panic _ hexcused => exact hexcused.not_mem_unreachable hp

/-- A receiver whose requests and then its stream have ended. -/
theorem coherent_run_ended :
    let ended : Answers AsteriskURI Unit :=
      { (Answers.idle : Answers AsteriskURI Unit) with stream := [.ended] }
    ∃ r : Receiver AsteriskURI, r.Coherent ∧ r.stream = false ∧
      ∀ p ∈ unreachable, r.poll ended ≠ .error p := by
  intro ended
  let r : Receiver AsteriskURI := (new 10).shutdownRequestReceiver
  let r' := (returned (r.poll ended) (by decide +kernel)).2.1
  have hrun : Run Performs (new 10) [.shutdownRequestReceiver, .poll ended] r' :=
    .snoc (.snoc .start .shutdownRequestReceiver) (.poll (eq_ok_returned (by decide +kernel)))
  obtain ⟨hcoherent, hpolls⟩ := coherent_run hrun
  exact ⟨r', hcoherent, by decide +kernel, (hpolls ended).2⟩

end Receiver
end Rtsp
