import Rtsp.Connection.Sound

/-!
# Requests are forwarded in order

A receiver in use is polled again and again, and may be told at any point to
shut the request receiver down. What this does to its forwarding receiver are
moves of the line (`Step.line`). So the books of the line are right
(`forwarded_inOrder`): the requests sent to the handler carry the numbers from
the first one on, each is the one taken in under its number, and none that was
due is left behind.

A session has what no part of the code has, a list of everything that was handled, taken
in and forwarded. Steps append to these lists from the trace of each poll, and nothing
reads them.

The session is that of a receiver whose handler listens. If the channel to the handler
is closed, the next send fails and the receiver drops its buffer; the requests in it are
lost, as the handler that was to answer them is gone too.

A request without a number, or with one that is too far ahead, is not taken in, so it
has no place in the order. What it is answered is in `Connection.Attribution`.
-/

namespace Rtsp
namespace Receiver

open Lib

variable {URI URIError : Type}

/-- A receiver with all that has passed through it. -/
structure Session (URI : Type) where
  receiver : Receiver URI
  handled : List (Request URI)
  accepted : Forwarded URI
  forwarded : Forwarded URI

namespace Session

def new (requestBufferSize : Nat) : Session URI := ⟨.new requestBufferSize, [], [], []⟩

/-- The session once a poll has led to a receiver and left its trace. -/
def after (s : Session URI) (state : State URI URIError) : Session URI where
  receiver := state.1
  handled := s.handled ++ state.2.handled
  accepted := s.accepted ++ state.2.accepted
  forwarded := s.forwarded ++ state.2.forwarded

/-- The steps of a session, as long as the handler listens. -/
inductive Step : Session URI → Op URI URIError → Session URI → Prop where
  | poll {s env a state} : s.receiver.poll env = .ok (a, state) → .closed ∉ env.handler →
      Step s (.poll env) (s.after state)
  | shutdownRequestReceiver {s} :
      Step s .shutdownRequestReceiver { s with receiver := s.receiver.shutdownRequestReceiver }

/-- The line of requests in a session. -/
def line (s : Session URI) : Line URI where
  allowed := s.receiver.requestsAllowed
  receiver := s.receiver.forwardingReceiver
  handled := s.handled
  accepted := s.accepted
  forwarded := s.forwarded

end Session

/-! ## The line of a receiver -/

/-- **Each action of a poll moves the line at most once.** -/
theorem Action.line {env : Answers URI URIError} {state state' : State URI URIError}
    (h : Action env state state') (hopen : .closed ∉ env.handler) (s : Session URI) :
    Relation.ReflTransGen Line.Step (s.after state).line (s.after state').line := by
  cases h with
  | answer => exact .refl
  | stream => exact .refl
  | timer => exact .refl
  | respond => exact .refl
  | reply => exact .refl
  | @handle r t f request hallowed hf =>
    have hmove := Line.Step.handle (l := (s.after (r, t)).line) request hallowed hf
    refine .single ?_
    simpa [Session.line, Session.after, Trace.handle] using hmove
  | @shutRequests r t =>
    have hmove := Line.Step.shutdown (l := (s.after (r, t)).line)
    refine .single ?_
    simpa [Session.line, Session.after, shutdownRequestReceiver_eq] using hmove
  | @shutResponses state =>
    obtain ⟨ds, hshut⟩ := shutdownResponseReceiver_eq env state.1 state.2
    rw [hshut]
    exact .refl
  | @forward r t f a hf ha hready =>
    have hmove := Line.Step.forward (l := (s.after (r, t)).line) env.handler hf ha
    rw [if_neg fun hdropped => by
      have hallowed : r.requestsAllowed = false := hdropped.1
      rw [hready hdropped.2] at hallowed
      cases hallowed] at hmove
    refine .single ?_
    simpa [Session.line, Session.after, Trace.forward] using hmove
  | @finish r t f hf ha hallowed =>
    have hmove := Line.Step.forward (l := (s.after (r, t)).line) env.handler hf ha
    rw [if_pos ⟨hallowed, rfl⟩] at hmove
    refine .single ?_
    simpa [Session.line, Session.after, Trace.forward, shutdownForwardingReceiver,
      shutdownRequestReceiver_eq, hallowed] using hmove
  | lose _ ha =>
    obtain ⟨a, ha'⟩ := ForwardingReceiver.poll_ok hopen
    rw [ha] at ha'
    cases ha'

theorem Acts.line {env : Answers URI URIError} {state state' : State URI URIError}
    (h : Acts env state state') (hopen : .closed ∉ env.handler) (s : Session URI) :
    Relation.ReflTransGen Line.Step (s.after state).line (s.after state').line := by
  induction h with
  | refl => exact .refl
  | tail _ haction ih => exact ih.trans (haction.line hopen s)

namespace Session

/-- **A step of a session moves its line.** -/
theorem Step.line {s s' : Session URI} {op : Op URI URIError} (h : Step s op s') :
    Relation.ReflTransGen Line.Step s.line s'.line := by
  cases h with
  | @poll env a state hpoll hopen =>
    have hmoves := (poll_acts hpoll).line hopen s
    have hstart : (s.after (s.receiver, (Trace.empty : Trace URI URIError))).line = s.line := by
      simp [Session.line, Session.after, Trace.empty]
    rwa [hstart] at hmoves
  | shutdownRequestReceiver =>
    have hmove := Line.Step.shutdown (l := s.line)
    refine .single ?_
    simpa [Session.line, shutdownRequestReceiver_eq] using hmove

theorem run_line {s s' : Session URI} {ops : List (Op URI URIError)} (h : Run Step s ops s') :
    Relation.ReflTransGen Line.Step s.line s'.line := by
  induction h with
  | start => exact .refl
  | snoc _ hstep ih => exact ih.trans hstep.line

/-! ## The result -/

/-- What holds of every session: the requests have been forwarded in order, and exactly
    once. -/
structure InOrder (s : Session URI) : Prop where
  /-- The requests sent to the handler carry the numbers from that of the first request
      handled on, modulo 10⁹. -/
  numbers : ∀ first, Line.firstCSeq s.handled = some first →
    s.forwarded.map (·.1) = (List.range s.forwarded.length).map first.ahead
  /-- Each of them is one that was taken in, under its own number. -/
  accepted : s.forwarded.Subperm s.accepted ∧
    ∀ e ∈ s.accepted, e.2 ∈ s.handled ∧ e.2.headers.typedGet CSeq = some e.1
  /-- While requests are allowed, those taken in are those forwarded and those buffered. -/
  account : s.receiver.requestsAllowed = true → ∃ f, s.receiver.forwardingReceiver = some f ∧
    s.accepted.Perm (s.forwarded ++ contents f.bufferedRequests)
  /-- When the forwarding receiver has been dropped, the number that is next is not among
      the requests left behind. -/
  dropped : s.receiver.forwardingReceiver = none → ∃ lost : Forwarded URI,
    s.accepted.Perm (s.forwarded ++ lost) ∧ ∀ e ∈ lost, ∀ first,
      Line.firstCSeq s.handled = some first → e.1 ≠ first.ahead s.forwarded.length

/-- What holds of a session from a point on. -/
structure Finishes (s s' : Session URI) : Prop where
  /-- Once requests are shut down, none is taken in any more. -/
  shut : s.receiver.requestsAllowed = false →
    s'.receiver.requestsAllowed = false ∧ s'.handled = s.handled ∧ s'.accepted = s.accepted
  /-- A run of requests that is buffered from the number expected on is forwarded next,
      all of it before the forwarding receiver is dropped. -/
  due : ∀ (f : ForwardingReceiver URI) (n : CSeq) (run : Forwarded URI),
    s.receiver.forwardingReceiver = some f → f.incomingSequenceNumber = some n →
    run.map (·.1) = (List.range run.length).map n.ahead → run.Nodup →
    (∀ e ∈ run, f.bufferedRequests.lookup e.1 = some e.2) →
    s'.receiver.forwardingReceiver = none → s.forwarded ++ run <+: s'.forwarded

theorem inOrder_of_books {s : Session URI} (h : s.line.Books) : InOrder s where
  numbers := h.numbers
  accepted := by
    refine ⟨?_, h.genuine⟩
    cases hf : s.receiver.forwardingReceiver with
    | some f => exact (List.sublist_append_left _ _).subperm.trans (h.account f hf).symm.subperm
    | none =>
      obtain ⟨lost, hlost, -⟩ := h.dropped hf
      exact (List.sublist_append_left _ _).subperm.trans hlost.symm.subperm
  account hallowed := by
    obtain ⟨f, hf⟩ := Option.isSome_iff_exists.mp (h.present hallowed)
    exact ⟨f, hf, h.account f hf⟩
  dropped hf := by
    obtain ⟨lost, hlost, hnext⟩ := h.dropped hf
    refine ⟨lost, hlost, fun e he first hfirst heq => hnext e he ?_⟩
    rw [heq, Line.nextCSeq]
    show some _ = (Line.firstCSeq s.handled).map _
    rw [hfirst]
    rfl

theorem finishes_of_line {s s' : Session URI}
    (h : Relation.ReflTransGen Line.Step s.line s'.line) : Finishes s s' where
  shut hshut := Line.shut_run hshut h
  due f n run hf hn hnumbers hnodup hbuffered hdropped := by
    have hdue : s.line.DueRun run := ⟨f, n, hf, hn, hnumbers, hbuffered, hnodup⟩
    obtain ⟨sent, hsent, hall | ⟨rest, -, f', n', hf', -⟩⟩ := hdue.run h
    · rw [show s'.forwarded = s.forwarded ++ sent from hsent]
      exact (List.prefix_append_right_inj _).mpr hall
    · rw [show s'.line.receiver = none from hdropped] at hf'
      cases hf'

/-- **Requests are forwarded in order and exactly once**, whatever the order they arrive
    in, however full the channel to the handler is, and whenever the request receiver is
    shut down, as long as the handler listens. -/
theorem forwarded_inOrder {size : Nat} {ops ops' : List (Op URI URIError)} {s s' : Session URI}
    (h : Run Step (new size) ops s) (h' : Run Step s ops' s') : InOrder s ∧ Finishes s s' :=
  ⟨inOrder_of_books (Line.books_run (run_line h)), finishes_of_line (run_line h')⟩

/-- The numbers wrap, and the channel has no room for the second request until the request
    receiver has been shut down. -/
theorem forwarded_inOrder_wraps : ∃ s s' : Session AsteriskURI, InOrder s ∧ Finishes s s' ∧
    s.receiver.requestsAllowed = false ∧ s'.forwarded.map (·.1.val) = [999999999, 0] := by
  let requests : Answers AsteriskURI Unit := { (Answers.idle : Answers AsteriskURI Unit) with
    stream := [999999999, 0].map fun n => .message (.request (ForwardingReceiver.numbered n))
    handler := [.ready] }
  let read : Session AsteriskURI :=
    (new 2).after (returned ((new 2).receiver.poll requests) (by decide +kernel)).2
  let s : Session AsteriskURI := { read with receiver := read.receiver.shutdownRequestReceiver }
  let s' : Session AsteriskURI :=
    s.after (returned (s.receiver.poll requests) (by decide +kernel)).2
  have hrun : Run Step (new 2) [.poll requests, .shutdownRequestReceiver] s :=
    .snoc (.snoc .start (.poll (eq_ok_returned (by decide +kernel)) (by decide)))
      .shutdownRequestReceiver
  have hrest : Run Step s [.poll requests] s' :=
    .snoc .start (.poll (eq_ok_returned (by decide +kernel)) (by decide))
  have hinOrder := forwarded_inOrder hrun hrest
  exact ⟨s, s', hinOrder.1, hinOrder.2, by decide +kernel, by decide +kernel⟩

end Session
end Receiver
end Rtsp
