import Rtsp.Connection.Components
import Rtsp.Connection.Parking
import Rtsp.Network.Network

/-!
# A receiver reads on

A receiver that takes requests in never gets stuck on a stream of requests in sequence.
When the handler has room for what the buffer holds, a poll forwards all of it
(`Sequence.all_forwarded`), and so the next poll reads on (`TakesIn.poll`).

This is about what a poll *can* do, for one particular choice of answers: the stream has
these messages, and the channel has this much room (`Answers.attentive`). It is needed
where a run has to be found, not where something is to hold in all runs, and it says
nothing about polls under other answers.

A receiver with a full buffer does not read, which is its backpressure. It is not stuck,
because a full buffer of requests in sequence has one that is due: the numbers of a
counted stream leave no gaps (`Network.Intake`). With gaps the receiver could wait for
ever, and with a peer that does not number its requests as this library does it may.
-/

namespace Rtsp

open Lib

namespace ForwardingReceiver

variable {URI : Type} {f : ForwardingReceiver URI} {answers : List SendAnswer}

/-- With room for the whole buffer, forwarding goes on until a request is missing. -/
theorem forward_room {n : CSeq} {room : Nat}
    (hroom : f.bufferedRequests.entries.length ≤ room) :
    (f.forward n (List.replicate room .ready)).1 = .ok (.ready ()) := by
  induction room generalizing f n with
  | zero =>
    have hempty : f.bufferedRequests.lookup n = none := by
      cases hlookup : f.bufferedRequests.lookup n with
      | none => rfl
      | some request =>
        have hone := (perm_cons_erase hlookup).length_eq
        rw [length_contents, Nat.le_zero.mp hroom] at hone
        cases hone
    rw [List.replicate_zero, forward, hempty]
  | succ room ih =>
    rw [List.replicate_succ, forward]
    split
    · rfl
    · next request hlookup =>
      have hone := (perm_cons_erase hlookup).length_eq
      rw [List.length_cons, length_contents, length_contents] at hone
      rw [hone] at hroom
      exact ih (Nat.le_of_succ_le_succ hroom)

/-- A poll that is ready leaves no request that is due. -/
theorem hasRequestsReady_of_ready (h : (f.poll answers).1 = .ok (.ready ())) :
    (f.poll answers).2.1.hasRequestsReady = false := by
  rcases f.poll_cases answers with ⟨hnone, hpoll⟩ | ⟨n, f₁, n₁, -, -, hends⟩
  · rw [hpoll]
    show hasRequestsReady f = false
    unfold hasRequestsReady
    rw [hnone]
  · rw [h] at hends
    generalize (f.poll answers).2.1 = f' at hends
    cases hends with
    | ready hlookup =>
      unfold hasRequestsReady
      dsimp only
      rw [hlookup]
      rfl

theorem poll_room {room : Nat} (hroom : f.bufferedRequests.entries.length ≤ room) :
    (f.poll (List.replicate room .ready)).1 = .ok (.ready ()) := by
  unfold poll
  split
  · exact forward_room hroom
  · rfl

end ForwardingReceiver

namespace Receiver

variable {URI URIError : Type} {env : Answers URI URIError} {r r' : Receiver URI}
  {s s' : State URI URIError} {first : CSeq} {size : Nat}

/-! ## Nothing is held back -/

/-- **Requests in sequence are not held back**: when none is due, the buffer is empty. -/
theorem InSequence.all_forwarded (hs : InSequence first size s) (hcounted : s.2.Counted first)
    {f : ForwardingReceiver URI} (hf : s.1.forwardingReceiver = some f)
    (hready : f.hasRequestsReady = false) : contents f.bufferedRequests = [] := by
  have hsequence := hs.sequence hcounted
  have haccount : s.2.accepted.Perm (s.2.forwarded ++ contents f.bufferedRequests) :=
    hs.books.account f hf
  have hexpected : f.incomingSequenceNumber =
      (Line.firstCSeq s.2.handled).map (·.ahead s.2.forwarded.length) := hs.books.expected f hf
  obtain ⟨held, hheld⟩ := hsequence.forwarded hcounted hs.books
  cases held with
  | nil =>
    -- As many were taken in as were forwarded.
    have hlength := haccount.length_eq
    rw [← hheld, List.append_nil, List.length_append] at hlength
    exact List.length_eq_zero_iff.mp (Nat.add_eq_left.mp hlength.symm)
  | cons e held =>
    -- The first one that was not is due.
    have hplace : s.2.accepted[s.2.forwarded.length]? = some e := by
      rw [← hheld, List.getElem?_append_right (Nat.le_refl _), Nat.sub_self]
      rfl
    rw [hsequence.accepted, List.getElem?_mapIdx] at hplace
    obtain ⟨request, hrequest, rfl⟩ := Option.map_eq_some_iff.mp hplace
    have hne : s.2.handled ≠ [] := fun hnil => by
      rw [hnil] at hrequest
      cases hrequest
    rw [hsequence.firstCSeq hcounted hne, Option.map_some] at hexpected
    have hmem : (first.ahead s.2.forwarded.length, request) ∈ contents f.bufferedRequests := by
      rw [← hheld] at haccount
      exact ((List.perm_append_left_iff _).mp haccount).subset (.head _)
    unfold ForwardingReceiver.hasRequestsReady at hready
    rw [hexpected] at hready
    dsimp only at hready
    rw [mem_contents.mp hmem] at hready
    cases hready

/-! ## Reading -/

/-- A message is read. -/
theorem Trace.messages_answer (t : Trace URI URIError) (m : Message URI) :
    (t.answer (.message m)).messages = t.messages ++ [m] := by
  show (t.answered ++ [_]).filterMap _ = _
  rw [List.filterMap_append]
  rfl

/-- What reading does where there are nothing but messages to read. -/
structure ReadsMessages (messages : List (Message URI)) (s s' : State URI URIError) : Prop where
  requestsAllowed : s'.1.requestsAllowed = s.1.requestsAllowed
  messages : ∃ read, read <+: messages ∧ s'.2.messages = s.2.messages ++ read ∧
    (s.1.forwardingReceiver.any (·.isFull) = false → messages ≠ [] → read ≠ [])
  errors : ∀ e, .error e ∈ s'.2.answered → .error e ∈ s.2.answered

/-- One message is read, and then the others. -/
theorem ReadsMessages.cons {t : Trace URI URIError} {s₁ : State URI URIError}
    {message : Message URI} {messages : List (Message URI)} (h : ReadsMessages messages s₁ s')
    (hallowed : s₁.1.requestsAllowed = r.requestsAllowed)
    (hanswered : s₁.2.answered = t.answered ++ [.message message]) :
    ReadsMessages (message :: messages) (r, t) s' := by
  obtain ⟨read, hread, hmessages, -⟩ := h.messages
  refine ⟨h.requestsAllowed.trans hallowed, ⟨message :: read, ?_, ?_, fun _ _ => nofun⟩, ?_⟩
  · exact (List.prefix_cons_inj message).mpr hread
  · have hone : s₁.2.messages = t.messages ++ [message] := by
      rw [← Trace.messages_answer]
      exact congrArg (List.filterMap StreamAnswer.message?) hanswered
    rw [hmessages, hone, List.append_assoc]
    rfl
  · intro e he
    have hmem := h.errors e he
    rw [hanswered] at hmem
    rcases List.mem_append.mp hmem with hmem | hmem
    · exact hmem
    · cases List.mem_singleton.mp hmem

theorem ReadsTo.messages {messages : List (Message URI)}
    {result : Poll Unit (ProtocolError URIError)}
    (h : ReadsTo env (messages.map .message) s result s') :
    result = .ok .notReady ∧ ReadsMessages messages s s' := by
  generalize hanswers : messages.map StreamAnswer.message = answers at h
  induction h generalizing messages with
  | full hfull =>
    refine ⟨rfl, rfl, ⟨[], List.nil_prefix, (List.append_nil _).symm, fun hroom => ?_⟩,
      fun _ => id⟩
    rw [hfull] at hroom
    cases hroom
  | @notReady answers r t hroom hmessages =>
    have hnone : messages = [] := by
      cases messages with
      | nil => rfl
      | cons m messages => exact absurd hanswers.symm (hmessages m _)
    refine ⟨rfl, rfl, ⟨[], List.nil_prefix, ?_, fun _ hsome => absurd hnone hsome⟩, fun e he => ?_⟩
    · show (t.answered ++ [_]).filterMap _ = _
      rw [List.filterMap_append]
      rfl
    · exact (List.mem_append.mp he).resolve_right nofun
  | message hroom hmessage _ ih =>
    obtain ⟨m, messages, rfl, hm, hrest⟩ := List.map_eq_cons_iff.mp hanswers
    cases hm
    obtain ⟨hresult, hreads⟩ := ih hrest
    exact ⟨hresult, hreads.cons hmessage.forwarding.1 hmessage.forwarding.2.1⟩
  | rejected hroom hmessage herror _ ih =>
    obtain ⟨m, messages, rfl, hm, hrest⟩ := List.map_eq_cons_iff.mp hanswers
    cases hm
    obtain ⟨hresult, hreads⟩ := ih hrest
    exact ⟨hresult, hreads.cons hmessage.forwarding.1
      ((handleRequestReceiverError_answered herror).trans hmessage.forwarding.2.1)⟩
  | ended _ =>
    obtain ⟨_, _, _, hm, -⟩ := List.map_eq_cons_iff.mp hanswers
    cases hm
  | error _ _ =>
    obtain ⟨_, _, _, hm, -⟩ := List.map_eq_cons_iff.mp hanswers
    cases hm

/-! ## The whole poll -/

/-- The answers of a poll that has these messages to read, while the handler has so much room
    and nothing else goes on. -/
def Answers.attentive (messages : List (Message URI)) (room : Nat) : Answers URI URIError :=
  { (Answers.idle : Answers URI URIError) with
    stream := messages.map .message, handler := List.replicate room .ready }

/-- A receiver that takes requests in from a stream that goes on. -/
structure TakesIn (r : Receiver URI) : Prop where
  requestsAllowed : r.requestsAllowed = true
  stream : r.stream = true

/-- Updates leave the stream of such a receiver alone. -/
theorem TakesIn.pollResponseReceiver (hr : r.TakesIn) (t : Trace URI URIError) :
    (pollResponseReceiver env (r, t)).1.TakesIn := by
  unfold Receiver.pollResponseReceiver
  dsimp only
  split
  · split
    · obtain ⟨ds, hshut⟩ := shutdownResponseReceiver_eq env
        { r with responseReceiver := some _ } t
      rw [hshut]
      refine ⟨hr.requestsAllowed, ?_⟩
      show (r.stream && r.requestsAllowed) = true
      rw [hr.stream, hr.requestsAllowed]
      rfl
    · exact ⟨hr.requestsAllowed, hr.stream⟩
  · exact hr

/-- What is received in such a poll: messages. -/
theorem TakesIn.pollReceiving (hr : r.TakesIn) (hcoherent : r.Coherent)
    {messages : List (Message URI)} {room : Nat} {a : Async Unit}
    (h : pollReceiving (.attentive messages room) (r, (.empty : Trace URI URIError)) =
      .ok (a, s)) :
    a = .notReady ∧ s.1.TakesIn ∧ ReadsMessages messages (r, .empty) s := by
  obtain ⟨⟨result, r₁, t₁⟩, hstream, h⟩ := bind_eq_ok h
  obtain ⟨hforwarding, hallowed, hanswered⟩ := pollResponseReceiver_keeps
    (.attentive messages room) r (.empty : Trace URI URIError)
  have htakes : (Receiver.pollResponseReceiver (.attentive messages room)
      (r, (.empty : Trace URI URIError))).1.TakesIn := hr.pollResponseReceiver .empty
  have hupdated : (Receiver.pollResponseReceiver (.attentive messages room)
      (r, (.empty : Trace URI URIError))).1.Coherent :=
    pollResponseReceiver_coherent hcoherent .empty
  generalize Receiver.pollResponseReceiver (.attentive messages room)
    (r, (.empty : Trace URI URIError)) = s₀ at *
  obtain ⟨r₀, t₀⟩ := s₀
  have hcoherent₁ := pollStream_coherent hupdated hstream
  unfold pollStream at hstream
  dsimp only at hstream
  rw [if_pos htakes.stream] at hstream
  obtain ⟨rfl, hreads⟩ := (readsTo_of_readLoop hstream).messages
  obtain ⟨r₂, hevents, h⟩ := bind_eq_ok h
  obtain ⟨b, rfl⟩ := pollCodecEvents_eq hevents
  have htimer : pollDecodingTimer (.attentive messages room : Answers URI URIError)
      { r₁ with decodingTimer := b } = .ok (.ok .notReady) := by
    unfold pollDecodingTimer
    split
    · rfl
    · rfl
  rw [htimer] at h
  cases h
  refine ⟨rfl, ⟨hreads.requestsAllowed.trans htakes.requestsAllowed, hcoherent₁.2 rfl⟩,
    hreads.requestsAllowed.trans hallowed, ?_, ?_⟩
  · obtain ⟨read, hread, hmessages, hsome⟩ := hreads.messages
    refine ⟨read, hread, ?_, fun hroom => hsome ?_⟩
    · rw [hmessages]
      exact congrArg (·.filterMap StreamAnswer.message? ++ read) hanswered
    · show r₀.forwardingReceiver.any _ = false
      rw [show r₀.forwardingReceiver = r.forwardingReceiver from hforwarding]
      exact hroom
  · intro e he
    exact (congrArg (.error e ∈ ·) hanswered).mp (hreads.errors e he)

/-- What is due is forwarded, and the forwarding receiver stays. -/
theorem pollForwarding_ready {t : Trace URI URIError} {f : ForwardingReceiver URI}
    (hf : r.forwardingReceiver = some f) (hallowed : r.requestsAllowed = true)
    (hresult : (f.poll env.handler).1 = .ok (.ready ())) :
    (pollForwarding env (r, t)).2 =
      ({ r with forwardingReceiver := some (f.poll env.handler).2.1 },
        t.forward (f.poll env.handler).2.2) := by
  unfold pollForwarding
  dsimp only
  rw [hf]
  dsimp only
  rw [hresult]
  simp [isRequestReceiverShutdown, hallowed]

/-- **A poll that is attentive** reads on if there is room in the buffer, and then forwards
    whatever is due. -/
theorem TakesIn.poll (hr : r.TakesIn) (hcoherent : r.Coherent) (hsound : r.Sound)
    (hsized : ∀ f, r.forwardingReceiver = some f → f.requestBufferSize = size)
    (messages : List (Message URI)) :
    ∃ a r' t, r.poll (.attentive messages size : Answers URI URIError) = .ok (a, r', t) ∧
      r'.TakesIn ∧ (∀ f, r'.forwardingReceiver = some f → f.hasRequestsReady = false) ∧
      ReadsMessages messages (r, .empty) (r', t) := by
  have hreceives := poll_receives hcoherent (.attentive messages size : Answers URI URIError)
  cases hpoll : r.poll (.attentive messages size : Answers URI URIError) with
  | error p =>
    rw [hpoll] at hreceives
    cases hreceives with
    | panic _ hexcused =>
      cases hexcused with
      | timer htimer => cases htimer
      | sender hgone => cases hgone
  | ok polled =>
    obtain ⟨a, r', t⟩ := polled
    refine ⟨a, r', t, rfl, ?_⟩
    obtain ⟨⟨received, s₁⟩, hreceiving, hlast⟩ := bind_eq_ok hpoll
    obtain ⟨rfl, htakes, hreads⟩ := hr.pollReceiving hcoherent hreceiving
    have hacts := pollReceiving_acts hreceiving
    have hsound₁ : s₁.1.Sound := hsound.acts hacts
    have hsized₁ := hacts.sized (s := (r, .empty)) hsized
    obtain ⟨r₁, t₁⟩ := s₁
    obtain ⟨f, hf⟩ := Option.isSome_iff_exists.mp (hsound₁.present htakes.requestsAllowed)
    have hresult : (f.poll (List.replicate size .ready)).1 = .ok (.ready ()) :=
      ForwardingReceiver.poll_room (hsized₁ f hf ▸ hsound₁.fits f hf)
    have hlast : (pollForwarding (.attentive messages size : Answers URI URIError)
        (r₁, t₁)).2 = (r', t) := congrArg Prod.snd (Except.ok.inj hlast)
    rw [pollForwarding_ready hf htakes.requestsAllowed hresult] at hlast
    cases hlast
    refine ⟨⟨htakes.requestsAllowed, htakes.stream⟩, fun g hg => ?_, hreads.requestsAllowed,
      hreads.messages, hreads.errors⟩
    cases hg
    exact ForwardingReceiver.hasRequestsReady_of_ready hresult

end Receiver
end Rtsp
