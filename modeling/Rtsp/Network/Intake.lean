import Rtsp.Connection.Attribution
import Rtsp.Connection.InOrder
import Rtsp.Connection.Matching

/-!
# Requests in sequence

A peer that runs this library numbers its requests one after the other, and the
stream keeps their order. A receiver that reads such a stream (`Counted`) turns no
request away and replies to none (`InSequence`), whatever its buffer holds and
however full the channel to the handler is: there is room for one more request
whenever the stream is read, and the next number is just behind what the buffer
holds.

The condition on the stream, and not the receiver, is what is special here. A receiver
takes requests from peers of all kinds, holds back those that come too early and turns
down those that are too far ahead; what it does then is the subject of
`Connection.InOrder` and of `Connection.ErrorReplies`. `Counted` is the stream of a
peer whose calls number the requests, fewer than 10^9 of them so that no number comes
twice.

`Sequence` is what the receiver has done with it so far. Its first part is for receivers
that have stopped taking requests in: they read on, and drop what they read, and only
while they are allowed are the requests handled all of those read.
-/

namespace Rtsp

open Lib

namespace CSeq

/-- The number `i` places on is as far ahead. -/
theorem distance_ahead (c : CSeq) {i : Nat} (hi : i < 10 ^ 9) : c.distance (c.ahead i) = i := by
  have hc := c.le_max
  show ((c.val + i) % (MAX_CSEQ + 1) + (MAX_CSEQ + 1) - c.val) % (MAX_CSEQ + 1) = i
  unfold MAX_CSEQ at *
  omega

end CSeq

namespace ForwardingReceiver

variable {URI : Type} {f : ForwardingReceiver URI} {request : Request URI} {cseq : CSeq}

/-- A request that is near enough, and the first one of its number, is taken in. -/
theorem handleRequest_ok (hcseq : request.headers.typedGet CSeq = some cseq)
    (hnear : (f.incomingSequenceNumber.getD cseq).distance cseq ≤ f.requestBufferSize % 2 ^ 32)
    (hfree : f.bufferedRequests.lookup cseq = none) :
    (f.handleRequest request).1 = .ok () := by
  have hcases := f.handleRequest_cases request
  generalize (f.handleRequest request).1 = result at hcases
  generalize (f.handleRequest request).2 = f' at hcases
  cases hcases with
  | noCSeq hnone =>
    rw [hcseq] at hnone
    cases hnone
  | tooFar hcseq' hfar =>
    rw [hcseq] at hcseq'
    cases hcseq'
    have hsub := CSeq.val_sub (f.incomingSequenceNumber.getD cseq) cseq
    split at hsub
    · omega
    · omega
  | occupied hcseq' hother =>
    rw [hcseq] at hcseq'
    cases hcseq'
    rw [hfree] at hother
    cases hother
  | accepted => rfl

end ForwardingReceiver

/-- The books stay right over any number of moves. -/
theorem Line.Books.moves {URI : Type} {l l' : Line URI} (hl : l.Books)
    (h : Relation.ReflTransGen Line.Step l l') : l'.Books := by
  induction h with
  | refl => exact hl
  | tail _ hmove ih => exact ih.step hmove

/-- The request in an answer of the stream. -/
def StreamAnswer.request? {URI URIError : Type} : StreamAnswer URI URIError → Option (Request URI)
  | .message (.request request) => some request
  | .message (.response _) => none
  | .notReady | .ended | .error _ => none

namespace Receiver

variable {URI URIError : Type} {env : Answers URI URIError} {r : Receiver URI}
  {t t' T : Trace URI URIError} {s s' : State URI URIError} {first : CSeq} {size : Nat}

/-! ## What the stream answers -/

namespace Trace

/-- The requests that have been read. -/
def requests (t : Trace URI URIError) : List (Request URI) :=
  t.answered.filterMap StreamAnswer.request?

/-- The stream of a peer that runs this library: its requests are numbered one after the
    other, and nothing on it is refused by the decoders. -/
structure Counted (first : CSeq) (t : Trace URI URIError) : Prop where
  numbers : ∀ i request, t.requests[i]? = some request →
    request.headers.typedGet CSeq = some (first.ahead i)
  few : t.requests.length < 10 ^ 9
  errors : ∀ e, .error e ∈ t.answered → protocolErrorReply e = none

theorem requests_answer (t : Trace URI URIError) (a : StreamAnswer URI URIError) :
    (t.answer a).requests = t.requests ++ a.request?.toList := by
  show (t.answered ++ [a]).filterMap StreamAnswer.request? = _
  rw [List.filterMap_append, List.filterMap_cons, List.filterMap_nil]
  cases a.request? <;> rfl

/-- What was read before is counted, too. -/
theorem Counted.of_shorter (h : t'.Counted first) (hshorter : t.answered <+: t'.answered) :
    t.Counted first := by
  obtain ⟨more, hmore⟩ := hshorter
  have hrequests : t'.requests = t.requests ++ more.filterMap StreamAnswer.request? := by
    rw [requests, ← hmore, List.filterMap_append]
    rfl
  refine ⟨fun i request hi => h.numbers i request ?_, ?_, fun e he => h.errors e ?_⟩
  · rw [hrequests, List.getElem?_append_left (List.getElem?_eq_some_iff.mp hi).1, hi]
  · have hfew := h.few
    rw [hrequests, List.length_append] at hfew
    exact Nat.lt_of_le_of_lt (Nat.le_add_right _ _) hfew
  · rw [← hmore]
    exact List.mem_append_left _ he

end Trace

/-! ## The sequence -/

/-- What the receiver has done with the requests read: those handled are the first of them,
    all of them as long as requests are allowed; each was taken in under its number; and
    there was nothing to reply to. -/
structure Sequence (first : CSeq) (s : State URI URIError) : Prop where
  handled : s.2.handled <+: s.2.requests
  all : s.1.requestsAllowed = true → s.2.handled = s.2.requests
  accepted : s.2.accepted = s.2.handled.mapIdx fun i request => (first.ahead i, request)
  replies : s.2.replies = []

/-- A receiver with all that has passed through it, as a session. -/
def session (s : State URI URIError) : Session URI :=
  ⟨s.1, s.2.handled, s.2.accepted, s.2.forwarded⟩

/-- **A receiver keeps to the sequence** of the requests it reads. -/
structure InSequence (first : CSeq) (size : Nat) (s : State URI URIError) : Prop where
  books : (session s).line.Books
  sized : ∀ f, s.1.forwardingReceiver = some f → f.requestBufferSize = size
  sequence : s.2.Counted first → Sequence first s

theorem inSequence_new (first : CSeq) (size : Nat) :
    InSequence first size (new size, (Trace.empty : Trace URI URIError)) where
  books := Line.books_new size
  sized f hf := by cases hf; rfl
  sequence _ := ⟨List.prefix_rfl, fun _ => rfl, rfl, rfl⟩

namespace Sequence

/-- What was handled is numbered one after the other. -/
theorem numbers (hs : Sequence first s) (hcounted : s.2.Counted first) {i : Nat}
    {request : Request URI} (hi : s.2.handled[i]? = some request) :
    request.headers.typedGet CSeq = some (first.ahead i) := by
  obtain ⟨more, hmore⟩ := hs.handled
  refine hcounted.numbers i request ?_
  rw [← hmore, List.getElem?_append_left (List.getElem?_eq_some_iff.mp hi).1, hi]

theorem few (hs : Sequence first s) (hcounted : s.2.Counted first) :
    s.2.handled.length < 10 ^ 9 :=
  Nat.lt_of_le_of_lt hs.handled.length_le hcounted.few

/-- The first number is that of the first request handled. -/
theorem firstCSeq (hs : Sequence first s) (hcounted : s.2.Counted first)
    (hne : s.2.handled ≠ []) : Line.firstCSeq s.2.handled = some first := by
  cases hhandled : s.2.handled with
  | nil => exact absurd hhandled hne
  | cons request rest =>
    have hfirst : s.2.handled[0]? = some request := by
      rw [hhandled]
      rfl
    have hnumber := hs.numbers hcounted hfirst
    rw [CSeq.ahead_zero] at hnumber
    rw [Line.firstCSeq, List.findSome?_cons, hnumber]

theorem mem_accepted (hs : Sequence first s) {e : CSeq × Request URI} (he : e ∈ s.2.accepted) :
    ∃ i, s.2.handled[i]? = some e.2 ∧ e.1 = first.ahead i := by
  rw [hs.accepted] at he
  obtain ⟨i, hi, rfl⟩ := List.mem_mapIdx.mp he
  exact ⟨i, List.getElem?_eq_getElem hi, rfl⟩

/-- **What has been forwarded are the first of the requests taken in**, in their order. -/
theorem forwarded (hs : Sequence first s) (hcounted : s.2.Counted first)
    (hbooks : (session s).line.Books) : s.2.forwarded <+: s.2.accepted := by
  have hinOrder := Session.inOrder_of_books hbooks
  have hsubset : ∀ e ∈ s.2.forwarded, e ∈ s.2.accepted := fun e he =>
    hinOrder.accepted.1.subset he
  have hlength : s.2.forwarded.length ≤ s.2.handled.length := by
    have hle := hinOrder.accepted.1.length_le
    rw [show (session s).accepted = s.2.accepted from rfl, hs.accepted, List.length_mapIdx] at hle
    exact hle
  refine List.prefix_iff_getElem?.mpr fun i hi => ?_
  have hmem := hsubset _ (List.getElem_mem hi)
  obtain ⟨j, hj, hnumber⟩ := hs.mem_accepted hmem
  have hne : s.2.handled ≠ [] := fun hnil => by
    rw [hnil] at hj
    cases hj
  -- The request forwarded in this place has the number of the place.
  have hplace : (s.2.forwarded[i]).1 = first.ahead i := by
    have hmap := hinOrder.numbers first (hs.firstCSeq hcounted hne)
    have hget := congrArg (·[i]?) hmap
    simpa [session, hi] using hget
  have hij : i = j := by
    refine first.ahead_injective ?_ ?_ (hplace.symm.trans hnumber)
    · exact Nat.lt_of_lt_of_le hi (Nat.le_trans hlength (Nat.le_of_lt (hs.few hcounted)))
    · exact Nat.lt_trans (List.getElem?_eq_some_iff.mp hj).1 (hs.few hcounted)
  subst hij
  rw [hs.accepted, List.getElem?_mapIdx, hj, Option.map_some, ← hplace]

/-- **The next request is taken in**, if there is room for one more. -/
theorem handleRequest (hs : Sequence first s) (hcounted : s.2.Counted first)
    (hbooks : (session s).line.Books) (hsize : size < 2 ^ 32)
    {f : ForwardingReceiver URI} (hf : s.1.forwardingReceiver = some f)
    (hsized : f.requestBufferSize = size) (hroom : f.isFull = false) {request : Request URI}
    (hnumber : request.headers.typedGet CSeq = some (first.ahead s.2.handled.length)) :
    (f.handleRequest request).1 = .ok () := by
  have haccount : s.2.accepted.Perm (s.2.forwarded ++ contents f.bufferedRequests) :=
    hbooks.account f hf
  have hfew := hs.few hcounted
  have hheld : s.2.forwarded.length + f.bufferedRequests.entries.length =
      s.2.handled.length := by
    have hlength := haccount.length_eq
    rw [List.length_append, length_contents, hs.accepted, List.length_mapIdx] at hlength
    exact hlength.symm
  have hlt : f.bufferedRequests.entries.length < size := by
    simpa [ForwardingReceiver.isFull, hsized] using hroom
  refine ForwardingReceiver.handleRequest_ok hnumber ?_ ?_
  · -- It is as far ahead of the number expected as there are requests in the buffer.
    have hexpected : f.incomingSequenceNumber =
        (Line.firstCSeq s.2.handled).map (·.ahead s.2.forwarded.length) := hbooks.expected f hf
    have hdistance : (f.incomingSequenceNumber.getD (first.ahead s.2.handled.length)).distance
        (first.ahead s.2.handled.length) = f.bufferedRequests.entries.length := by
      rw [hexpected]
      by_cases hne : s.2.handled = []
      · rw [hne] at hheld ⊢
        rw [show Line.firstCSeq ([] : List (Request URI)) = none from rfl, Option.map_none,
          Option.getD_none, CSeq.distance_self]
        exact (Nat.add_eq_zero_iff.mp hheld).2.symm
      · rw [hs.firstCSeq hcounted hne, Option.map_some, Option.getD_some, ← hheld,
          ← CSeq.ahead_ahead]
        exact CSeq.distance_ahead _ (by omega)
    rw [hdistance, hsized, Nat.mod_eq_of_lt hsize]
    exact Nat.le_of_lt hlt
  · -- Its number is that of no request before.
    cases hlookup : f.bufferedRequests.lookup (first.ahead s.2.handled.length) with
    | none => rfl
    | some other =>
      have hmem := haccount.symm.subset (List.mem_append_right _ (mem_contents.mpr hlookup))
      obtain ⟨i, hi, hsame⟩ := hs.mem_accepted hmem
      have hlti := (List.getElem?_eq_some_iff.mp hi).1
      have heq := first.ahead_injective hfew (Nat.lt_trans hlti hfew) hsame
      omega

end Sequence

/-! ## Reading -/

theorem append_answer (T t : Trace URI URIError) (a : StreamAnswer URI URIError) :
    T.append (t.answer a) = (T.append t).answer a := by
  simp only [Trace.append, Trace.answer, List.append_assoc]

theorem append_handle (T t : Trace URI URIError) (request : Request URI)
    (result : Except RequestReceiverError Unit) :
    T.append (t.handle request result) = (T.append t).handle request result := by
  simp only [Trace.append, Trace.handle, List.append_assoc]

namespace InSequence

/-- Something that is no request is read. -/
theorem answer (hs : InSequence first size (r, t)) {a : StreamAnswer URI URIError}
    (ha : a.request? = none) : InSequence first size (r, t.answer a) where
  books := hs.books
  sized := hs.sized
  sequence hcounted := by
    have hs' := hs.sequence (hcounted.of_shorter (List.prefix_append _ _))
    have hrequests : (t.answer a).requests = t.requests := by
      rw [Trace.requests_answer, ha]
      exact List.append_nil _
    exact ⟨hrequests ▸ hs'.handled, hrequests ▸ hs'.all, hs'.accepted, hs'.replies⟩

/-- A request is read that is not allowed any more. -/
theorem ignore (hs : InSequence first size (r, t)) (hshut : r.requestsAllowed = false)
    (request : Request URI) :
    InSequence first size (r, t.answer (.message (.request request))) where
  books := hs.books
  sized := hs.sized
  sequence hcounted := by
    have hs' := hs.sequence (hcounted.of_shorter (List.prefix_append _ _))
    refine ⟨?_, fun hallowed => ?_, hs'.accepted, hs'.replies⟩
    · rw [Trace.requests_answer]
      exact hs'.handled.trans (List.prefix_append _ _)
    · cases hshut.symm.trans hallowed

/-- **A request is read and handled**: it is taken in. -/
theorem handle (hs : InSequence first size (r, t)) (hsize : size < 2 ^ 32)
    {f : ForwardingReceiver URI} (hallowed : r.requestsAllowed = true)
    (hf : r.forwardingReceiver = some f) (hroom : f.isFull = false) (request : Request URI) :
    ((t.answer (.message (.request request))).Counted first →
      (f.handleRequest request).1 = .ok ()) ∧
    InSequence first size ({ r with forwardingReceiver := some (f.handleRequest request).2 },
      (t.answer (.message (.request request))).handle request (f.handleRequest request).1) := by
  have hnumber : (t.answer (.message (.request request))).Counted first →
      t.Counted first ∧ Sequence first (r, t) ∧
        request.headers.typedGet CSeq = some (first.ahead t.handled.length) := fun hcounted => by
    have hbefore := hcounted.of_shorter (t := t) (List.prefix_append _ _)
    have hs' := hs.sequence hbefore
    refine ⟨hbefore, hs', hcounted.numbers _ request ?_⟩
    rw [Trace.requests_answer, hs'.all hallowed]
    exact List.getElem?_concat_length
  have hok : (t.answer (.message (.request request))).Counted first →
      (f.handleRequest request).1 = .ok () := fun hcounted => by
    obtain ⟨hbefore, hs', hnumber⟩ := hnumber hcounted
    exact hs'.handleRequest hbefore hs.books hsize hf (hs.sized f hf) hroom hnumber
  refine ⟨hok, ?_, fun g hg => ?_, fun hcounted => ?_⟩
  · exact hs.books.handle hf request
  · cases hg
    exact (f.handleRequest_length request).1.trans (hs.sized f hf)
  · have hcounted : (t.answer (.message (.request request))).Counted first :=
      hcounted.of_shorter List.prefix_rfl
    obtain ⟨-, hs', hnumber⟩ := hnumber hcounted
    have hrequests : t.handled ++ [request] =
        (t.answer (.message (.request request))).requests := by
      rw [Trace.requests_answer, hs'.all hallowed]
      rfl
    refine ⟨?_, fun _ => hrequests, ?_, hs'.replies⟩
    · exact hrequests ▸ List.prefix_rfl
    · rw [hok hcounted]
      show t.accepted ++ ForwardingReceiver.takenIn request (.ok ()) =
        (t.handled ++ [request]).mapIdx _
      rw [ForwardingReceiver.takenIn_ok hnumber, hs'.accepted, List.mapIdx_concat]

/-- A message is read and handled. -/
theorem handles (hs : InSequence first size (r, T.append t)) (hsize : size < 2 ^ 32)
    (hroom : r.forwardingReceiver.any (·.isFull) = false) {message : Message URI}
    {result : Except RequestReceiverError Unit}
    (h : Handles env r (t.answer (.message message)) message result s') :
    ((T.append s'.2).Counted first → result = .ok ()) ∧
      InSequence first size (s'.1, T.append s'.2) := by
  cases h with
  | request hallowed hf =>
    rw [hf] at hroom
    obtain ⟨hok, hhandled⟩ := hs.handle hsize hallowed hf hroom _
    dsimp only
    rw [append_handle, append_answer]
    exact ⟨fun hcounted => hok (hcounted.of_shorter List.prefix_rfl), hhandled⟩
  | shut hshut =>
    refine ⟨fun _ => rfl, ?_⟩
    rw [append_answer]
    exact hs.ignore hshut _
  | @response response _ _ =>
    refine ⟨fun _ => rfl, ?_⟩
    have hread := hs.answer (a := .message (.response response)) rfl
    rw [← append_answer] at hread
    exact ⟨hread.books, hread.sized, fun hcounted =>
      { hread.sequence (hcounted.of_shorter List.prefix_rfl) with }⟩
  | ignored _ =>
    refine ⟨fun _ => rfl, ?_⟩
    rw [append_answer]
    exact hs.answer rfl

end InSequence

/-- **Reading keeps to the sequence.** -/
theorem ReadsTo.inSequence {answers : List (StreamAnswer URI URIError)}
    {result : Poll Unit (ProtocolError URIError)} (h : ReadsTo env answers s result s')
    (hsize : size < 2 ^ 32) (hs : InSequence first size (s.1, T.append s.2)) :
    InSequence first size (s'.1, T.append s'.2) := by
  induction h with
  | full _ => exact ⟨hs.books, hs.sized, fun hcounted => { hs.sequence hcounted with }⟩
  | notReady _ _ =>
    have hread := hs.answer (a := .notReady) rfl
    rw [← append_answer] at hread
    exact ⟨hread.books, hread.sized, fun hcounted => { hread.sequence hcounted with }⟩
  | message hroom hmessage _ ih => exact ih (hs.handles hsize hroom hmessage).2
  | rejected hroom hmessage herror _ ih =>
    obtain ⟨hok, hhandled⟩ := hs.handles hsize hroom hmessage
    obtain ⟨reply, -, rfl⟩ := handleRequestReceiverError_reply herror
    refine ih ⟨hhandled.books, hhandled.sized, fun hcounted => ?_⟩
    -- The request would have been taken in.
    cases hok (hcounted.of_shorter List.prefix_rfl)
  | ended _ =>
    rw [append_answer]
    exact hs.answer rfl
  | @error error _ r t t' _ herror =>
    have hread := hs.answer (a := .error error) rfl
    rw [← append_answer] at hread
    unfold handleProtocolError at herror
    split at herror
    · split at herror
      · next message hmessage =>
        rw [sendMessage_eq herror]
        refine ⟨hread.books, hread.sized, fun hcounted => ?_⟩
        have hnone := hcounted.errors error (by
          show _ ∈ T.answered ++ (t.answered ++ [_])
          simp)
        rw [hmessage] at hnone
        cases hnone
      · cases herror
        exact hread
    · cases herror
      exact hread

/-! ## The whole poll -/

/-- Two traces that tell the same about requests and replies. -/
structure Trace.SameRequests (t t' : Trace URI URIError) : Prop where
  answered : t'.answered = t.answered
  handled : t'.handled = t.handled
  accepted : t'.accepted = t.accepted
  replies : t'.replies = t.replies

theorem Trace.SameRequests.trans {t₁ t₂ t₃ : Trace URI URIError} (h : SameRequests t₁ t₂)
    (h' : SameRequests t₂ t₃) : SameRequests t₁ t₃ :=
  ⟨h'.answered.trans h.answered, h'.handled.trans h.handled, h'.accepted.trans h.accepted,
    h'.replies.trans h.replies⟩

theorem sameRequests_shutdownResponseReceiver (env : Answers URI URIError)
    (s : State URI URIError) : s.2.SameRequests (shutdownResponseReceiver env s).2 := by
  obtain ⟨ds, hshut⟩ := shutdownResponseReceiver_eq env s.1 s.2
  rw [hshut]
  exact ⟨rfl, rfl, rfl, rfl⟩

theorem sameRequests_pollResponseReceiver (env : Answers URI URIError) (s : State URI URIError) :
    s.2.SameRequests (pollResponseReceiver env s).2 := by
  unfold pollResponseReceiver
  dsimp only
  split
  · split
    · obtain ⟨ds, hshut⟩ := shutdownResponseReceiver_eq env
        { s.1 with responseReceiver := some _ } s.2
      rw [hshut]
      exact ⟨rfl, rfl, rfl, rfl⟩
    · exact ⟨rfl, rfl, rfl, rfl⟩
  · exact ⟨rfl, rfl, rfl, rfl⟩

theorem sameRequests_pollForwarding (env : Answers URI URIError) (s : State URI URIError) :
    s.2.SameRequests (pollForwarding env s).2.2 := by
  unfold pollForwarding
  dsimp only
  split
  · split
    · exact ⟨rfl, rfl, rfl, rfl⟩
    · split
      · exact ⟨rfl, rfl, rfl, rfl⟩
      · exact ⟨rfl, rfl, rfl, rfl⟩
    · exact ⟨rfl, rfl, rfl, rfl⟩
  · exact ⟨rfl, rfl, rfl, rfl⟩

/-- **A poll reads, and does nothing else about requests but forward them.** -/
theorem poll_reads {a : Async Unit} (h : r.poll env = .ok (a, s')) :
    ∃ result s₁, pollStream env (pollResponseReceiver env (r, .empty)) = .ok (result, s₁) ∧
      Acts env s₁ s' ∧ s₁.2.SameRequests s'.2 := by
  obtain ⟨⟨received, s₂⟩, hreceiving, h⟩ := bind_eq_ok h
  obtain ⟨⟨result, r₁, t₁⟩, hstream, hreceiving⟩ := bind_eq_ok hreceiving
  have hrest : Acts env (r₁, t₁) s₂ ∧ t₁.SameRequests s₂.2 := by
    rcases result with _ | (_ | _)
    · cases hreceiving
      exact ⟨.refl, rfl, rfl, rfl, rfl⟩
    · cases hreceiving
      exact ⟨.refl, rfl, rfl, rfl, rfl⟩
    · obtain ⟨r₂, hevents, hreceiving⟩ := bind_eq_ok hreceiving
      obtain ⟨timer, -, hreceiving⟩ := bind_eq_ok hreceiving
      obtain ⟨b, rfl⟩ := pollCodecEvents_eq hevents
      rcases timer with _ | (_ | _)
      · cases hreceiving
        exact ⟨.single (.timer b), rfl, rfl, rfl, rfl⟩
      · cases hreceiving
        exact ⟨.single (.timer b), rfl, rfl, rfl, rfl⟩
      · cases hreceiving
        exact ⟨.single (.timer b), rfl, rfl, rfl, rfl⟩
  refine ⟨result, (r₁, t₁), hstream, ?_⟩
  cases received with
  | ready =>
    cases h
    have hshut := hrest.2.trans
      (sameRequests_shutdownResponseReceiver env (s₂.1.shutdownRequestReceiver, s₂.2))
    exact ⟨(hrest.1.trans shutdownReceiving_acts).trans pollForwarding_acts,
      hshut.trans (sameRequests_pollForwarding env (shutdownReceiving env s₂))⟩
  | notReady =>
    cases h
    exact ⟨hrest.1.trans pollForwarding_acts, hrest.2.trans (sameRequests_pollForwarding env _)⟩

/-- The size of the buffer stays what it was. -/
theorem Action.sized (h : Action env s s')
    (hs : ∀ f, s.1.forwardingReceiver = some f → f.requestBufferSize = size) :
    ∀ f, s'.1.forwardingReceiver = some f → f.requestBufferSize = size := by
  intro g hg
  cases h with
  | @handle r t f request _ hf _ =>
    cases hg
    exact (f.handleRequest_length request).1.trans (hs f hf)
  | shutRequests =>
    rw [shutdownRequestReceiver_eq] at hg
    exact hs g (Option.filter_eq_some_iff.mp hg).1
  | shutResponses =>
    obtain ⟨ds, hshut⟩ := shutdownResponseReceiver_eq env s.1 s.2
    rw [hshut] at hg
    exact hs g hg
  | forward hf ha _ =>
    cases hg
    exact (ForwardingReceiver.poll_length ha).1.trans (hs _ hf)
  | finish _ _ _ =>
    rw [shutdownForwardingReceiver, shutdownRequestReceiver_eq] at hg
    cases hg
  | lose _ _ =>
    rw [shutdownForwardingReceiver, shutdownRequestReceiver_eq] at hg
    cases hg
  | _ => exact hs g hg

theorem Acts.sized (h : Acts env s s')
    (hs : ∀ f, s.1.forwardingReceiver = some f → f.requestBufferSize = size) :
    ∀ f, s'.1.forwardingReceiver = some f → f.requestBufferSize = size := by
  induction h with
  | refl => exact hs
  | tail _ haction ih => exact haction.sized ih

namespace InSequence

/-- Whatever else is done, the requests read stay in sequence. -/
theorem acts (hs : InSequence first size (s.1, T.append s.2)) (h : Acts env s s')
    (hopen : .closed ∉ env.handler) (hsame : s.2.SameRequests s'.2) :
    InSequence first size (s'.1, T.append s'.2) where
  books := by
    exact hs.books.moves (h.line hopen (session (s.1, T)))
  sized := h.sized hs.sized
  sequence hcounted := by
    have hanswered : (T.append s'.2).answered = (T.append s.2).answered :=
      congrArg (T.answered ++ ·) hsame.answered
    have hs' := hs.sequence (hcounted.of_shorter (hanswered ▸ List.prefix_rfl))
    have hrequests : (T.append s'.2).requests = (T.append s.2).requests :=
      congrArg (List.filterMap StreamAnswer.request?) hanswered
    have hhandled : (T.append s'.2).handled = (T.append s.2).handled :=
      congrArg (T.handled ++ ·) hsame.handled
    refine ⟨?_, fun hallowed => ?_, ?_, ?_⟩
    · rw [hrequests, hhandled]
      exact hs'.handled
    · rw [hrequests, hhandled]
      refine hs'.all (Decidable.byContradiction fun hshut => ?_)
      rw [h.requestsAllowed (Bool.not_eq_true _ ▸ hshut)] at hallowed
      cases hallowed
    · rw [hhandled]
      exact (congrArg (T.accepted ++ ·) hsame.accepted).trans hs'.accepted
    · exact (congrArg (T.replies ++ ·) hsame.replies).trans hs'.replies

/-- **A poll keeps to the sequence.** -/
theorem poll (hs : InSequence first size (r, T)) (hsize : size < 2 ^ 32) {a : Async Unit}
    (h : r.poll env = .ok (a, s')) (hopen : .closed ∉ env.handler) :
    InSequence first size (s'.1, T.append s'.2) := by
  obtain ⟨result, s₁, hstream, hacts, hsame⟩ := poll_reads h
  have hstart : InSequence first size (r, T.append (Trace.empty : Trace URI URIError)) := by
    rw [show T.append .empty = T by simp [Trace.append, Trace.empty]]
    exact hs
  have hupdated := hstart.acts (s := (r, .empty)) pollResponseReceiver_acts hopen
    (sameRequests_pollResponseReceiver env _)
  refine acts (s := s₁) ?_ hacts hopen hsame
  generalize pollResponseReceiver env (r, .empty) = s₀ at hstream hupdated
  obtain ⟨r₀, t₀⟩ := s₀
  simp only [pollStream] at hstream
  split at hstream
  · exact (readsTo_of_readLoop hstream).inSequence hsize
      ⟨hupdated.books, hupdated.sized, fun hcounted => { hupdated.sequence hcounted with }⟩
  · cases hstream
    exact hupdated

/-- Shutting requests down. -/
theorem shutdownRequestReceiver (hs : InSequence first size (r, T)) :
    InSequence first size (r.shutdownRequestReceiver, T) := by
  have hmove := Line.Step.shutdown (l := (session (r, T)).line)
  rw [shutdownRequestReceiver_eq]
  refine ⟨hs.books.step hmove, fun f hf => ?_, fun hcounted => ?_⟩
  · exact hs.sized f (Option.filter_eq_some_iff.mp hf).1
  · have hs' := hs.sequence hcounted
    exact ⟨hs'.handled, nofun, hs'.accepted, hs'.replies⟩

end InSequence

end Receiver
end Rtsp
