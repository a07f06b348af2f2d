import Rtsp.Connection.Sound

/-!
# Where a poll of the receiver leaves it

A poll that is not ready should leave a wake-up behind: the stream has answered
that there is nothing to read, or the buffer is full, and the handler will ask
for more. Reading stops at a full buffer, though, before requests are forwarded
out of it. So the poll leaves the stream unread and the buffer not full exactly
when what there is to read fills the buffer and the handler takes a request out
of it (`parked_iff`).

A wake-up is not something the model can see. What it can see is what the stream and the
channel answered last, and from that it follows who has been asked to wake the task: a
stream that answered `NotReady` has, and so has a full channel. A poll that stopped
reading for another reason has left nobody who would know that there is more to read.

`Overrun` is therefore stated about the state and the answers before the poll. It says
what the messages in front of the receiver amount to, not what the poll made of them.

Whether the connection gets woken for another reason, by a response that the handler
sends or a timer, is not considered. It may well be; but nothing makes sure of it.
-/

namespace Rtsp

open Lib

namespace ForwardingReceiver

variable {URI URIError : Type}

/-- The buffer at which reading stops, if what there is to read fills it. Requests are
    handled while they are allowed, and ignored afterwards. -/
def filledBy (allowed : Bool) (f : ForwardingReceiver URI) :
    List (StreamAnswer URI URIError) → Option (ForwardingReceiver URI)
  | .message (.request request) :: answers =>
    if f.isFull then some f
    else filledBy allowed (if allowed then (f.handleRequest request).2 else f) answers
  | .message (.response _) :: answers => if f.isFull then some f else filledBy allowed f answers
  | _ => if f.isFull then some f else none

theorem filledBy_of_full {f : ForwardingReceiver URI} (h : f.isFull = true) (allowed : Bool)
    (answers : List (StreamAnswer URI URIError)) : f.filledBy allowed answers = some f := by
  unfold filledBy
  split <;> rw [if_pos h]

/-! ## The first answer of the handler -/

variable {f : ForwardingReceiver URI} {answers : List SendAnswer}

/-- What the handler answers to the first send. -/
def firstAnswer (answers : List SendAnswer) : SendAnswer := answers.head?.getD .notReady

theorem poll_of_not_ready (answers : List SendAnswer) (h : f.hasRequestsReady = false) :
    (f.poll answers).1 = .ok (.ready ()) ∧ (f.poll answers).2.2 = [] := by
  unfold hasRequestsReady at h
  unfold poll
  split at h
  · next n _ =>
    have hlookup : f.bufferedRequests.lookup n = none := by simpa using h
    cases answers <;> simp [forward, hlookup]
  · exact ⟨rfl, rfl⟩

/-- **The first answer decides** what becomes of a request that is due. -/
theorem poll_of_ready (answers : List SendAnswer) (h : f.hasRequestsReady = true) :
    match firstAnswer answers with
    | .ready => (f.poll answers).2.2 ≠ []
    | .notReady => (f.poll answers).1 = .ok .notReady ∧ (f.poll answers).2.2 = []
    | .closed => (f.poll answers).1 = .error () := by
  unfold hasRequestsReady at h
  unfold poll
  split at h
  · next n _ =>
    obtain ⟨request, hlookup⟩ := Option.isSome_iff_exists.mp h
    cases answers with
    | nil => simp [firstAnswer, forward, hlookup]
    | cons answer answers => cases answer <;> simp [firstAnswer, forward, hlookup]
  · cases h

end ForwardingReceiver

namespace Receiver

variable {URI URIError : Type} {env : Answers URI URIError} {r r' : Receiver URI}
  {t t' : Trace URI URIError}

/-! ## Reading -/

/-- A message leaves requests as they were, but for the forwarding receiver. -/
theorem Handles.forwarding {message : Message URI} {result : Except RequestReceiverError Unit}
    {s' : State URI URIError} (h : Handles env r t message result s') :
    s'.1.requestsAllowed = r.requestsAllowed ∧ s'.2.answered = t.answered ∧
      s'.1.forwardingReceiver = match message with
        | .request message => if r.requestsAllowed
          then r.forwardingReceiver.map fun f => (f.handleRequest message).2
          else r.forwardingReceiver
        | .response _ => r.forwardingReceiver := by
  cases h with
  | request hallowed hf =>
    refine ⟨rfl, rfl, ?_⟩
    rw [hf]
    exact (if_pos hallowed).symm
  | shut hshut =>
    refine ⟨rfl, rfl, ?_⟩
    dsimp only
    rw [hshut]
    rfl
  | response _ => exact ⟨rfl, rfl, rfl⟩
  | ignored _ => exact ⟨rfl, rfl, rfl⟩

theorem handleRequestReceiverError_answered {error : RequestReceiverError}
    (h : handleRequestReceiverError env r error t = .ok t') : t'.answered = t.answered := by
  unfold handleRequestReceiverError sendMessage at h
  split at h
  · cases error
    all_goals
      dsimp only at h
      split at h
      · cases h
        rfl
      · cases h
  · cases h

/-- The buffer at which the reading of a poll stops. -/
def filledBy (r : Receiver URI) (answers : List (StreamAnswer URI URIError)) :
    Option (ForwardingReceiver URI) :=
  r.forwardingReceiver.bind (·.filledBy r.requestsAllowed answers)

theorem filledBy_of_full (answers : List (StreamAnswer URI URIError))
    (h : r.forwardingReceiver.any (·.isFull) = true) :
    r.filledBy answers = r.forwardingReceiver ∧ ∃ g, r.forwardingReceiver = some g ∧
      g.isFull = true := by
  rw [filledBy]
  cases hg : r.forwardingReceiver with
  | none =>
    rw [hg] at h
    cases h
  | some g =>
    rw [hg] at h
    exact ⟨ForwardingReceiver.filledBy_of_full h _ _, g, rfl, h⟩

/-- A message that is read leaves the rest of the stream to fill the buffer. -/
theorem filledBy_message {message : Message URI} {answers : List (StreamAnswer URI URIError)}
    {result : Except RequestReceiverError Unit} {s' : State URI URIError}
    (hroom : r.forwardingReceiver.any (·.isFull) = false)
    (h : Handles env r t message result s') :
    r.filledBy (.message message :: answers) = s'.1.filledBy answers := by
  obtain ⟨hallowed, -, hforwarding⟩ := h.forwarding
  rw [filledBy, filledBy, hallowed, hforwarding]
  cases hf : r.forwardingReceiver with
  | none => cases message <;> simp
  | some f =>
    have hfull : f.isFull = false := by simpa [hf] using hroom
    cases message with
    | request request =>
      cases r.requestsAllowed <;> simp [ForwardingReceiver.filledBy, hfull]
    | response response => simp [ForwardingReceiver.filledBy, hfull]

/-- Without a message to read, nothing fills the buffer. -/
theorem filledBy_stop {answers : List (StreamAnswer URI URIError)}
    (hroom : r.forwardingReceiver.any (·.isFull) = false)
    (h : ∀ message rest, answers ≠ .message message :: rest) : r.filledBy answers = none := by
  rw [filledBy]
  cases hf : r.forwardingReceiver with
  | none => rfl
  | some f =>
    have hfull : f.isFull = false := by simpa [hf] using hroom
    cases answers with
    | nil => simp [ForwardingReceiver.filledBy, hfull]
    | cons answer answers =>
      cases answer with
      | message message => exact absurd rfl (h _ _)
      | _ => simp [ForwardingReceiver.filledBy, hfull]

/-- Reading has stopped at this buffer, or because the stream has no more. -/
def Stops (filled : Option (ForwardingReceiver URI)) (t : Trace URI URIError)
    (s' : State URI URIError) : Prop :=
  match filled with
  | some g => s'.1.forwardingReceiver = some g ∧ g.isFull = true ∧
      (.notReady ∈ s'.2.answered → .notReady ∈ t.answered)
  | none => .notReady ∈ s'.2.answered

/-- A message is not the stream's answer that it has no more. -/
theorem Stops.of_message {filled : Option (ForwardingReceiver URI)} {s' : State URI URIError}
    {message : Message URI} (h : Stops filled t' s')
    (hanswered : t'.answered = t.answered ++ [.message message]) : Stops filled t s' := by
  cases filled with
  | none => exact h
  | some g =>
    obtain ⟨hg, hfull, hbefore⟩ := h
    refine ⟨hg, hfull, fun hmem => ?_⟩
    rw [hanswered] at hbefore
    rcases List.mem_append.mp (hbefore hmem) with hmem | hmem
    · exact hmem
    · cases List.mem_singleton.mp hmem

/-- **Reading stops at a full buffer, or because the stream has no more.** -/
theorem ReadsTo.stops {answers : List (StreamAnswer URI URIError)} {s s' : State URI URIError}
    {result : Poll Unit (ProtocolError URIError)} (h : ReadsTo env answers s result s')
    (hresult : result = .ok .notReady) : Stops (s.1.filledBy answers) s.2 s' := by
  induction h with
  | @full answers r t hfull =>
    obtain ⟨hfilled, g, hg, hfull⟩ := filledBy_of_full answers hfull
    dsimp only
    rw [hfilled, hg]
    exact ⟨rfl, hfull, id⟩
  | notReady hroom hmessages =>
    dsimp only
    rw [filledBy_stop hroom hmessages]
    exact List.mem_append_right _ (.head _)
  | message hroom hmessage _ ih =>
    dsimp only
    rw [filledBy_message hroom hmessage]
    exact (ih hresult).of_message hmessage.forwarding.2.1
  | rejected hroom hmessage herror _ ih =>
    have hanswered := handleRequestReceiverError_answered herror
    dsimp only
    rw [filledBy_message hroom hmessage]
    exact (ih hresult).of_message (hanswered.trans hmessage.forwarding.2.1)
  | ended _ => cases hresult
  | error _ _ => cases hresult

/-! ## The whole poll -/

/-- Nothing in the second half of a poll brings the stream back, or asks it. -/
theorem pollForwarding_keeps (env : Answers URI URIError) (s : State URI URIError) :
    (s.1.stream = false → (pollForwarding env s).2.1.stream = false) ∧
      (pollForwarding env s).2.2.answered = s.2.answered := by
  obtain ⟨r, t⟩ := s
  unfold pollForwarding
  dsimp only
  split
  · split
    · rw [shutdownForwardingReceiver, shutdownRequestReceiver_eq]
      exact ⟨fun h => by simp [h], rfl⟩
    · split
      · rw [shutdownForwardingReceiver, shutdownRequestReceiver_eq]
        exact ⟨fun h => by simp [h], rfl⟩
      · exact ⟨id, rfl⟩
    · exact ⟨id, rfl⟩
  · exact ⟨id, rfl⟩

theorem shutdownReceiving_stream (env : Answers URI URIError) (s : State URI URIError) :
    (shutdownReceiving env s).1.stream = false := by
  obtain ⟨r, t⟩ := s
  rw [shutdownReceiving, shutdownRequestReceiver_eq]
  obtain ⟨ds, hshut⟩ := shutdownResponseReceiver_eq env
    { r with
      forwardingReceiver := r.forwardingReceiver.filter (·.hasRequestsReady)
      requestsAllowed := false
      senderHandle := r.senderHandle && r.responseReceiver.isSome
      stream := r.stream && r.responseReceiver.isSome } t
  rw [hshut]
  simp

/-- **A poll that leaves the stream open has read it, and then forwarded requests.** -/
theorem poll_open {a : Async Unit} (h : r.poll env = .ok (a, r', t)) (hopen : r'.stream = true) :
    ∃ r₁ t₁ b, pollStream env (pollResponseReceiver env (r, .empty)) =
        .ok (.ok .notReady, r₁, t₁) ∧
      (pollForwarding env ({ r₁ with decodingTimer := b }, t₁)).2 = (r', t) := by
  obtain ⟨⟨received, s⟩, hreceiving, h⟩ := bind_eq_ok h
  cases received with
  | ready =>
    -- Receiving has been shut down, which lets the stream go.
    have hlast : (pollForwarding env (shutdownReceiving env s)).2 = (r', t) :=
      congrArg Prod.snd (Except.ok.inj h)
    have hshut := (pollForwarding_keeps env _).1 (shutdownReceiving_stream env s)
    rw [hlast] at hshut
    rw [show r'.stream = false from hshut] at hopen
    cases hopen
  | notReady =>
    have hlast : (pollForwarding env s).2 = (r', t) := congrArg Prod.snd (Except.ok.inj h)
    obtain ⟨⟨result, r₁, t₁⟩, hstream, hreceiving⟩ := bind_eq_ok hreceiving
    rcases result with _ | (_ | _)
    · cases hreceiving
    · cases hreceiving
    · obtain ⟨r₂, hevents, hreceiving⟩ := bind_eq_ok hreceiving
      obtain ⟨timer, -, hreceiving⟩ := bind_eq_ok hreceiving
      obtain ⟨b, rfl⟩ := pollCodecEvents_eq hevents
      rcases timer with _ | (_ | _)
      · cases hreceiving
      · cases hreceiving
      · cases hreceiving
        exact ⟨r₁, t₁, b, hstream, hlast⟩

/-- What becomes of the forwarding receiver in the second half of a poll. -/
theorem pollForwarding_forwarding {s : State URI URIError} {g : ForwardingReceiver URI}
    (hg : s.1.forwardingReceiver = some g) :
    (pollForwarding env s).2.1.forwardingReceiver = match (g.poll env.handler).1 with
      | .error () => none
      | .ok (.ready ()) => if s.1.requestsAllowed then some (g.poll env.handler).2.1 else none
      | .ok .notReady => some (g.poll env.handler).2.1 := by
  obtain ⟨r, t⟩ := s
  unfold pollForwarding
  dsimp only at hg ⊢
  rw [hg]
  dsimp only
  generalize g.poll env.handler = polled
  obtain ⟨result, g', sent⟩ := polled
  rcases result with _ | (_ | _)
  · dsimp only
    rw [shutdownForwardingReceiver, shutdownRequestReceiver_eq]
    rfl
  · cases hallowed : r.requestsAllowed with
    | true => simp [isRequestReceiverShutdown]
    | false =>
      dsimp only
      rw [if_pos (by rfl), shutdownForwardingReceiver, shutdownRequestReceiver_eq]
      rfl
  · rfl

/-- What there is to read fills the buffer while a request in it is due, and the handler
    does not answer that it has no room. -/
def Overrun (r : Receiver URI) (env : Answers URI URIError) : Prop :=
  ∃ g, r.filledBy env.stream = some g ∧ g.hasRequestsReady = true ∧
    ForwardingReceiver.firstAnswer env.handler ≠ .notReady

/-- A full buffer stays full exactly if no request leaves it. -/
theorem full_after_forwarding {s : State URI URIError} (env : Answers URI URIError)
    {g : ForwardingReceiver URI}
    (hs : s.1.Sound) (hg : s.1.forwardingReceiver = some g) (hfull : g.isFull = true) :
    (pollForwarding env s).2.1.forwardingReceiver.any (·.isFull) = true ↔
      (g.hasRequestsReady = true → ForwardingReceiver.firstAnswer env.handler = .notReady) := by
  rw [pollForwarding_forwarding hg]
  have hsize : g.requestBufferSize ≤ g.bufferedRequests.entries.length := of_decide_eq_true hfull
  have hfits := hs.fits g hg
  -- As long as the handler listens, the buffer is full if nothing has been sent.
  have hkept : ∀ a, (g.poll env.handler).1 = .ok a →
      ((g.poll env.handler).2.1.isFull = true ↔ (g.poll env.handler).2.2 = []) := by
    intro a ha
    obtain ⟨hsame, hlength⟩ := ForwardingReceiver.poll_length ha
    rw [ForwardingReceiver.isFull, decide_eq_true_iff, hsame, ← List.length_eq_zero_iff]
    omega
  cases hready : g.hasRequestsReady with
  | false =>
    have hallowed : s.1.requestsAllowed = true := by
      cases h : s.1.requestsAllowed with
      | true => rfl
      | false => rw [hs.due g h hg] at hready; cases hready
    obtain ⟨hresult, hsent⟩ := ForwardingReceiver.poll_of_not_ready env.handler hready
    rw [hresult, if_pos hallowed]
    exact iff_of_true ((hkept _ hresult).mpr hsent) fun h => by cases h
  | true =>
    have hfirst := ForwardingReceiver.poll_of_ready env.handler hready
    cases hanswer : ForwardingReceiver.firstAnswer env.handler with
    | notReady =>
      rw [hanswer] at hfirst
      rw [hfirst.1]
      exact iff_of_true ((hkept _ hfirst.1).mpr hfirst.2) fun _ => rfl
    | closed =>
      rw [hanswer] at hfirst
      rw [show (g.poll env.handler).1 = .error () from hfirst]
      exact iff_of_false (fun h => by cases h) fun h => by cases h rfl
    | ready =>
      rw [hanswer] at hfirst
      refine iff_of_false ?_ fun h => by cases h rfl
      cases hresult : (g.poll env.handler).1 with
      | error => exact fun h => by cases h
      | ok a =>
        have hless : ¬ (g.poll env.handler).2.1.isFull = true :=
          fun h => hfirst ((hkept a hresult).mp h)
        cases a with
        | ready =>
          dsimp only
          split
          · exact hless
          · exact fun h => by cases h
        | notReady => exact hless

/-- **A poll leaves a wake-up behind exactly if it is not overrun**: in any run, a poll
    that is not ready and leaves the stream open has been told that there is nothing to
    read, or leaves the buffer full, unless what it read filled the buffer and the handler
    took from it. -/
theorem parked_iff {size : Nat} {ops : List (Op URI URIError)} (hrun : Run Step (new size) ops r)
    (hpoll : r.poll env = .ok (.notReady, r', t)) (hopen : r'.stream = true) :
    (.notReady ∈ t.answered ∨ r'.forwardingReceiver.any (·.isFull) = true) ↔ ¬ r.Overrun env := by
  obtain ⟨r₁, t₁, b, hstream, hlast⟩ := poll_open hpoll hopen
  obtain ⟨hforwarding, hallowed, hanswered⟩ :=
    pollResponseReceiver_keeps env r (.empty : Trace URI URIError)
  have hsound : ({ r₁ with decodingTimer := b } : Receiver URI).Sound :=
    ((sound_run hrun).acts (s := (r, .empty))
      (pollResponseReceiver_acts.trans (pollStream_acts hstream))).action
      (Action.timer b : Action env (r₁, t₁) _)
  -- What was answered is known after reading.
  have hasked : t.answered = t₁.answered := by
    have hkeeps := (pollForwarding_keeps env ({ r₁ with decodingTimer := b }, t₁)).2
    rwa [hlast] at hkeeps
  generalize hs : pollResponseReceiver env (r, .empty) = s at hstream hforwarding hallowed hanswered
  obtain ⟨r₀, t₀⟩ := s
  unfold pollStream at hstream
  dsimp only at hstream
  split at hstream
  · have hread := (readsTo_of_readLoop hstream).stops rfl
    have hfilled : ({ r₀ with stream := false } : Receiver URI).filledBy env.stream =
        r.filledBy env.stream := by
      rw [filledBy, filledBy]
      exact congrArg₂ (fun f a => Option.bind f (·.filledBy a env.stream)) hforwarding hallowed
    rw [hfilled] at hread
    cases hg : r.filledBy env.stream with
    | none =>
      rw [hg] at hread
      refine iff_of_true (.inl (hasked ▸ hread)) ?_
      rintro ⟨g, hg', -⟩
      rw [hg] at hg'
      cases hg'
    | some g =>
      rw [hg] at hread
      obtain ⟨hkept, hfull, hanswers⟩ := hread
      have hnot : .notReady ∉ t.answered := by
        intro hmem
        rw [hasked] at hmem
        have hbefore := hanswers hmem
        rw [hanswered] at hbefore
        cases hbefore
      have hafter := full_after_forwarding (s := (_, t₁)) env hsound hkept hfull
      rw [hlast] at hafter
      rw [or_iff_right hnot]
      refine hafter.trans ⟨?_, ?_⟩
      · rintro hfirst ⟨g', hg', hready, hanswer⟩
        obtain rfl : g = g' := Option.some.inj (hg.symm.trans hg')
        exact hanswer (hfirst hready)
      · intro hover hready
        exact Decidable.byContradiction fun hanswer => hover ⟨g, hg, hready, hanswer⟩
  · cases hstream

/-- Two requests to be read, and room for both in the handler. -/
def twoRequests : Answers AsteriskURI Unit :=
  { (Answers.idle : Answers AsteriskURI Unit) with
    stream := [5, 6].map fun n => .message (.request (ForwardingReceiver.numbered n))
    handler := [.ready, .ready] }

/-- A buffer for three requests is not filled by two. -/
theorem parked_iff_twoRequests : ¬ (new 3).Overrun twoRequests := by
  let s := returned ((new 3).poll twoRequests) (by decide +kernel)
  have hpoll : (new 3).poll twoRequests = .ok (.notReady, s.2.1, s.2.2) :=
    eq_ok_of_returned _ (by decide +kernel)
  exact (parked_iff .start hpoll (by decide +kernel)).mp (.inl (by decide +kernel))

/-- **A poll can leave the second of two requests unread, and the buffer empty**, when the
    buffer has room for one. -/
theorem parked_unread :
    ¬ ∀ size (ops : List (Op AsteriskURI Unit)) r, Run Step (new size) ops r →
      ∀ (env : Answers AsteriskURI Unit) r' t, r.poll env = .ok (.notReady, r', t) →
        r'.stream = true →
        .notReady ∈ t.answered ∨ r'.forwardingReceiver.any (·.isFull) = true := by
  intro h
  let s := returned ((new 1).poll twoRequests) (by decide +kernel)
  have hpoll : (new 1).poll twoRequests = .ok (.notReady, s.2.1, s.2.2) :=
    eq_ok_of_returned _ (by decide +kernel)
  rcases h 1 [] _ .start _ _ _ hpoll (by decide +kernel) with hanswered | hfull
  · revert hanswered
    decide +kernel
  · revert hfull
    decide +kernel

end Receiver
end Rtsp
