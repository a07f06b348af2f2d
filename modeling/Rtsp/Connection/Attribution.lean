import Rtsp.Connection.Sound

/-!
# Replies to rejected requests

A request that the receiver rejects is answered with one of the library's shared
responses. These have no headers, and none is added, so the reply does not say
which request it is for. The peer, if it runs this library, matches replies by
their `CSeq` and ignores one that has none (`unattributed`).

That a request was rejected, and that it has been answered under its number, are said by
counting: more requests with that number have been handled than were taken in, and there
are as many replies with the number as are needed to make up for it. No single reply has
to be linked to a single request, which the traces could not do, and nothing is lost:
where no reply carries any number, no reply can be the missing one.

A run has the receiver polled over and over, with everything that its polls put into
their traces, and told at any time to take no more requests (`Recorded`). What its
environment answers is up to the run.

`handleResponse_of_typedInsert` is there to show that the fault is with the reply and
not with the peer. The same response with the number in it would have reached its owner.
-/

namespace Rtsp

open Lib

namespace ResponseReceiver

/-- A reply without headers is ignored, whatever is pending. -/
theorem handleResponse_of_empty {reply : Response} (h : reply.headers = .empty)
    (p : ResponseReceiver) (closed : ReplyChannel → Bool) :
    p.handleResponse closed reply = (p, []) := by
  rw [handleResponse, h]
  rfl

/-- **It is the missing number that loses a reply**: with it, the owner of the request would
    have been sent the reply. -/
theorem handleResponse_of_typedInsert {p : ResponseReceiver} {closed : ReplyChannel → Bool}
    {reply : Response} {cseq : CSeq} {tx : ReplyChannel}
    (hpending : p.pendingRequests.lookup cseq = some tx) (hlistens : closed tx = false)
    (hfinal : reply.statusCode ≠ .standard .«continue») :
    (p.handleResponse closed { reply with headers := reply.headers.typedInsert cseq }).2 =
      [(tx, .response { reply with headers := reply.headers.typedInsert cseq })] := by
  rw [handleResponse, CSeq.typedGet_typedInsert]
  simp [hpending, hfinal, send, hlistens]

end ResponseReceiver

namespace Receiver

variable {URI URIError : Type} {env : Answers URI URIError} {r r' : Receiver URI}
  {t t' : Trace URI URIError}

/-! ## The requests and replies of a trace -/

namespace Trace

/-- How many of the requests handled carry this `CSeq`. -/
def numbered (t : Trace URI URIError) (cseq : CSeq) : Nat :=
  t.handled.countP fun request => request.headers.typedGet CSeq = some cseq

/-- How many requests were taken in under this `CSeq`. -/
def taken (t : Trace URI URIError) (cseq : CSeq) : Nat :=
  t.accepted.countP fun e => e.1 = cseq

/-- How many of the replies carry this `CSeq`. -/
def answeredWith (t : Trace URI URIError) (cseq : CSeq) : Nat :=
  t.replies.countP fun reply => reply.headers.typedGet CSeq = some cseq

/-- A request with this `CSeq` was rejected. -/
def Rejected (t : Trace URI URIError) (cseq : CSeq) : Prop := t.taken cseq < t.numbered cseq

/-- For each request with this `CSeq` that was rejected, there is a reply that carries it. -/
def Attributed (t : Trace URI URIError) (cseq : CSeq) : Prop :=
  t.numbered cseq ≤ t.taken cseq + t.answeredWith cseq

/-- One trace behind another. -/
def append (t t' : Trace URI URIError) : Trace URI URIError where
  answered := t.answered ++ t'.answered
  handled := t.handled ++ t'.handled
  accepted := t.accepted ++ t'.accepted
  forwarded := t.forwarded ++ t'.forwarded
  replies := t.replies ++ t'.replies
  deliveries := t.deliveries ++ t'.deliveries

/-- What holds of every trace: each request rejected is answered, and no reply says which
    request it is for. -/
structure Anonymous (t : Trace URI URIError) : Prop where
  headers : ∀ reply ∈ t.replies, reply.headers = .empty
  taken : ∀ cseq, t.taken cseq ≤ t.numbered cseq
  answered : t.handled.length ≤ t.accepted.length + t.replies.length

namespace Anonymous

theorem empty : (Trace.empty : Trace URI URIError).Anonymous where
  headers _ h := by cases h
  taken _ := Nat.le_refl _
  answered := Nat.le_refl _

theorem append (h : t.Anonymous) (h' : t'.Anonymous) : (t.append t').Anonymous where
  headers reply hmem := by
    rcases List.mem_append.mp hmem with hmem | hmem
    · exact h.headers reply hmem
    · exact h'.headers reply hmem
  taken cseq := by
    have hsum := Nat.add_le_add (h.taken cseq) (h'.taken cseq)
    simpa only [Trace.taken, numbered, Trace.append, List.countP_append] using hsum
  answered := by
    have hfirst := h.answered
    have hsecond := h'.answered
    simp only [Trace.append, List.length_append]
    omega

theorem reply (h : t.Anonymous) {message : Response} (hmessage : message.headers = .empty) :
    (t.reply message).Anonymous where
  headers reply hmem := by
    rcases List.mem_append.mp hmem with hmem | hmem
    · exact h.headers reply hmem
    · rw [List.mem_singleton.mp hmem]
      exact hmessage
  taken := h.taken
  answered := by
    have hbefore := h.answered
    simp only [Trace.reply, List.length_append, List.length_singleton]
    omega

/-- What is taken in was handled under the same number. -/
theorem handle_ok (h : t.Anonymous) {request : Request URI} {cseq : CSeq}
    (hcseq : request.headers.typedGet CSeq = some cseq) :
    (t.handle request (.ok ())).Anonymous where
  headers := h.headers
  taken c := by
    have hbefore := h.taken c
    simp only [Trace.taken, numbered, handle, ForwardingReceiver.takenIn_ok hcseq,
      List.countP_append, List.countP_singleton, hcseq, Option.some.injEq] at hbefore ⊢
    exact Nat.add_le_add_right hbefore _
  answered := by
    have hbefore := h.answered
    simp only [handle, ForwardingReceiver.takenIn_ok hcseq, List.length_append,
      List.length_singleton]
    omega

/-- A request that was not taken in, and a reply for it. -/
theorem handle_error (h : t.Anonymous) (request : Request URI) (error : RequestReceiverError)
    {reply : Response} (hreply : reply.headers = .empty) :
    ((t.handle request (.error error)).reply reply).Anonymous where
  headers := (h.reply hreply).headers
  taken cseq := by
    have hbefore := h.taken cseq
    simp only [Trace.taken, numbered, handle, Trace.reply, ForwardingReceiver.takenIn_error,
      List.append_nil, List.countP_append] at hbefore ⊢
    exact Nat.le_trans hbefore (Nat.le_add_right _ _)
  answered := by
    have hbefore := h.answered
    simp only [handle, Trace.reply, ForwardingReceiver.takenIn_error, List.append_nil,
      List.length_append, List.length_singleton]
    omega

/-- What a trace tells of requests and replies is all that matters. -/
theorem congr (h : t.Anonymous) (hhandled : t'.handled = t.handled)
    (haccepted : t'.accepted = t.accepted) (hreplies : t'.replies = t.replies) :
    t'.Anonymous where
  headers := by
    rw [hreplies]
    exact h.headers
  taken cseq := by
    rw [Trace.taken, numbered, haccepted, hhandled]
    exact h.taken cseq
  answered := by
    rw [hhandled, haccepted, hreplies]
    exact h.answered

end Anonymous
end Trace

/-! ## Reading -/

/-- What is sent by `send_message`. -/
theorem sendMessage_eq {message : Response} (h : sendMessage env message t = .ok t') :
    t' = t.reply message := by
  unfold sendMessage at h
  split at h
  · cases h
    rfl
  · cases h

/-- **A rejected request is answered with one of the shared responses.** -/
theorem handleRequestReceiverError_reply {error : RequestReceiverError}
    (h : handleRequestReceiverError env r error t = .ok t') :
    ∃ reply : Response, reply.headers = .empty ∧ t' = t.reply reply := by
  unfold handleRequestReceiverError at h
  split at h
  · cases error with
    | badRequest => exact ⟨BAD_REQUEST_RESPONSE, rfl, sendMessage_eq h⟩
    | cseqDifferenceTooLarge => exact ⟨FORBIDDEN_RESPONSE, rfl, sendMessage_eq h⟩
  · cases h

theorem protocolErrorReply_headers {error : ProtocolError URIError} {reply : Response}
    (h : protocolErrorReply error = some reply) : reply.headers = .empty := by
  unfold protocolErrorReply at h
  split at h
  all_goals
    cases h
    try rfl

theorem handleProtocolError_anonymous {error : ProtocolError URIError} (ht : t.Anonymous)
    (h : handleProtocolError env r error t = .ok t') : t'.Anonymous := by
  unfold handleProtocolError at h
  split at h
  · split at h
    · next message hmessage =>
      rw [sendMessage_eq h]
      exact ht.reply (protocolErrorReply_headers hmessage)
    · cases h
      exact ht
  · cases h
    exact ht

/-- A message leaves the trace anonymous, once a reply has been sent if it is rejected. -/
theorem Handles.anonymous {message : Message URI} {result : Except RequestReceiverError Unit}
    {s' : State URI URIError} (ht : t.Anonymous) (h : Handles env r t message result s') :
    (result = .ok () → s'.2.Anonymous) ∧ ∀ error, result = .error error →
      ∀ reply : Response, reply.headers = .empty → (s'.2.reply reply).Anonymous := by
  cases h with
  | @request request f _ _ =>
    refine ⟨fun hok => ?_, fun error herror reply hreply => ?_⟩
    · -- Only a request with a number is taken in.
      have hcases := f.handleRequest_cases request
      rw [hok] at hcases ⊢
      generalize (f.handleRequest request).2 = f' at hcases
      cases hcases with
      | accepted hcseq => exact ht.handle_ok hcseq
    · rw [herror]
      exact ht.handle_error request error hreply
  | response _ => exact ⟨fun _ => ht.congr rfl rfl rfl, fun _ h => by cases h⟩
  | shut _ => exact ⟨fun _ => ht, fun _ h => by cases h⟩
  | ignored _ => exact ⟨fun _ => ht, fun _ h => by cases h⟩

/-- **Reading leaves the trace anonymous.** -/
theorem ReadsTo.anonymous {answers : List (StreamAnswer URI URIError)}
    {result : Poll Unit (ProtocolError URIError)} {s s' : State URI URIError}
    (h : ReadsTo env answers s result s') (ht : s.2.Anonymous) : s'.2.Anonymous := by
  have hanswer : ∀ {t : Trace URI URIError} {answer : StreamAnswer URI URIError}, t.Anonymous →
      (t.answer answer).Anonymous := fun ht => ht.congr rfl rfl rfl
  induction h with
  | full _ => exact ht
  | notReady _ _ => exact hanswer ht
  | message _ hmessage _ ih => exact ih ((hmessage.anonymous (hanswer ht)).1 rfl)
  | rejected _ hmessage herror _ ih =>
    obtain ⟨reply, hreply, rfl⟩ := handleRequestReceiverError_reply herror
    exact ih ((hmessage.anonymous (hanswer ht)).2 _ rfl reply hreply)
  | ended _ => exact hanswer ht
  | error _ herror => exact handleProtocolError_anonymous (hanswer ht) herror

theorem pollStream_anonymous {result : Poll Unit (ProtocolError URIError)} (ht : t.Anonymous)
    (h : pollStream env (r, t) = .ok (result, r', t')) : t'.Anonymous := by
  simp only [pollStream] at h
  split at h
  · exact (readsTo_of_readLoop h).anonymous ht
  · cases h
    exact ht

/-! ## The whole poll -/

theorem shutdownResponseReceiver_anonymous {s : State URI URIError} (hs : s.2.Anonymous) :
    (shutdownResponseReceiver env s).2.Anonymous := by
  obtain ⟨ds, hshut⟩ := shutdownResponseReceiver_eq env s.1 s.2
  rw [hshut]
  exact hs.congr rfl rfl rfl

theorem pollResponseReceiver_anonymous (ht : t.Anonymous) :
    (pollResponseReceiver env (r, t)).2.Anonymous := by
  unfold pollResponseReceiver
  dsimp only
  split
  · split
    · exact shutdownResponseReceiver_anonymous ht
    · exact ht
  · exact ht

theorem pollForwarding_anonymous {s : State URI URIError} (hs : s.2.Anonymous) :
    (pollForwarding env s).2.2.Anonymous := by
  obtain ⟨r, t⟩ := s
  unfold pollForwarding
  dsimp only
  split
  · split
    · exact hs.congr rfl rfl rfl
    · split
      · exact hs.congr rfl rfl rfl
      · exact hs.congr rfl rfl rfl
    · exact hs.congr rfl rfl rfl
  · exact hs

/-- **A poll leaves an anonymous trace.** -/
theorem poll_anonymous {a : Async Unit} (h : r.poll env = .ok (a, r', t)) : t.Anonymous := by
  obtain ⟨⟨received, r₁, t₁⟩, hreceiving, h⟩ := bind_eq_ok h
  obtain ⟨⟨result, r₂, t₂⟩, hstream, hreceiving⟩ := bind_eq_ok hreceiving
  have hread : t₂.Anonymous := pollStream_anonymous (pollResponseReceiver_anonymous .empty) hstream
  have hreceived : t₁.Anonymous := by
    rcases result with _ | (_ | _)
    · cases hreceiving
      exact hread
    · cases hreceiving
      exact hread
    · obtain ⟨r₃, -, hreceiving⟩ := bind_eq_ok hreceiving
      obtain ⟨timer, -, hreceiving⟩ := bind_eq_ok hreceiving
      rcases timer with _ | (_ | _)
      · cases hreceiving
        exact hread
      · cases hreceiving
        exact hread
      · cases hreceiving
        exact hread
  cases received with
  | ready =>
    have hlast : (pollForwarding env (shutdownReceiving env (r₁, t₁))).2 = (r', t) :=
      congrArg Prod.snd (Except.ok.inj h)
    have hshut : (shutdownReceiving env (r₁, t₁)).2.Anonymous :=
      shutdownResponseReceiver_anonymous hreceived
    have hforwarded : (pollForwarding env (shutdownReceiving env (r₁, t₁))).2.2.Anonymous :=
      pollForwarding_anonymous hshut
    rwa [hlast] at hforwarded
  | notReady =>
    have hlast : (pollForwarding env (r₁, t₁)).2 = (r', t) :=
      congrArg Prod.snd (Except.ok.inj h)
    have hforwarded : (pollForwarding env (r₁, t₁)).2.2.Anonymous :=
      pollForwarding_anonymous hreceived
    rwa [hlast] at hforwarded

/-! ## The result -/

/-- A receiver in use, with all that its polls have left in their traces. -/
inductive Recorded : State URI URIError → Op URI URIError → State URI URIError → Prop where
  | poll {s env a s'} : Receiver.poll s.1 env = .ok (a, s') →
      Recorded s (.poll env) (s'.1, s.2.append s'.2)
  | shutdownRequestReceiver {s} :
      Recorded s .shutdownRequestReceiver (s.1.shutdownRequestReceiver, s.2)

theorem recorded_anonymous {size : Nat} {ops : List (Op URI URIError)} {s : State URI URIError}
    (h : Run Recorded (new size, .empty) ops s) : s.2.Anonymous := by
  refine h.invariant (I := fun s => s.2.Anonymous) .empty fun s₁ op s₂ hs₁ hstep => ?_
  cases hstep with
  | poll hpoll => exact hs₁.append (poll_anonymous hpoll)
  | shutdownRequestReceiver => exact hs₁

/-- **No rejected request is answered under its number.** Each is answered, but no reply
    has a number, and every peer ignores all of them. -/
theorem unattributed {size : Nat} {ops : List (Op URI URIError)} {s : State URI URIError}
    (h : Run Recorded (new size, .empty) ops s) :
    (∀ cseq, s.2.Rejected cseq → ¬ s.2.Attributed cseq) ∧
      s.2.handled.length ≤ s.2.accepted.length + s.2.replies.length ∧
      ∀ reply ∈ s.2.replies, reply.headers.typedGet CSeq = none ∧
        ∀ (peer : ResponseReceiver) closed, peer.handleResponse closed reply = (peer, []) := by
  have hanonymous := recorded_anonymous h
  have hnone : ∀ reply ∈ s.2.replies, reply.headers.typedGet CSeq = none := by
    intro reply hmem
    rw [hanonymous.headers reply hmem]
    rfl
  refine ⟨fun cseq hrejected hattributed => ?_, hanonymous.answered, fun reply hmem => ?_⟩
  · have hunanswered : s.2.answeredWith cseq = 0 := by
      refine List.countP_eq_zero.mpr fun reply hmem => ?_
      simp [hnone reply hmem]
    rw [Trace.Attributed, hunanswered] at hattributed
    exact Nat.not_lt.mpr hattributed hrejected
  · exact ⟨hnone reply hmem,
      ResponseReceiver.handleResponse_of_empty (hanonymous.headers reply hmem)⟩

/-! ## A request sent twice -/

/-- The same request twice, and room for both. -/
def sameRequest : Answers AsteriskURI Unit :=
  { (Answers.idle : Answers AsteriskURI Unit) with
    stream := [5, 5].map fun n => .message (.request (ForwardingReceiver.numbered n)) }

/-- The second one is rejected: its number is in the buffer. -/
theorem unattributed_sameRequest : ∃ t : Trace AsteriskURI Unit,
    t.Rejected ⟨5, by decide⟩ ∧ ¬ t.Attributed ⟨5, by decide⟩ ∧ t.replies.length = 1 := by
  let s := returned ((new 3).poll sameRequest) (by decide +kernel)
  have hrun : Run Recorded (new 3, .empty) [.poll sameRequest]
      (s.2.1, (Trace.empty : Trace AsteriskURI Unit).append s.2.2) :=
    .snoc .start (.poll (a := .notReady) (eq_ok_of_returned _ (by decide +kernel)))
  have hrejected : (Trace.empty.append s.2.2).Rejected ⟨5, by decide⟩ := by
    unfold Trace.Rejected
    decide +kernel
  exact ⟨_, hrejected, (unattributed hrun).1 _ hrejected, by decide +kernel⟩

/-- **A rejected request can go without a reply that carries its number.** -/
theorem rejected_unanswered :
    ¬ ∀ size (ops : List (Op AsteriskURI Unit)) s, Run Recorded (new size, .empty) ops s →
      ∀ cseq, s.2.Attributed cseq := by
  intro h
  let s := returned ((new 3).poll sameRequest) (by decide +kernel)
  have hrun : Run Recorded (new 3, .empty) [.poll sameRequest]
      (s.2.1, (Trace.empty : Trace AsteriskURI Unit).append s.2.2) :=
    .snoc .start (.poll (a := .notReady) (eq_ok_of_returned _ (by decide +kernel)))
  have hattributed := h _ _ _ hrun ⟨5, by decide⟩
  unfold Trace.Attributed at hattributed
  revert hattributed
  decide +kernel

end Receiver
end Rtsp
