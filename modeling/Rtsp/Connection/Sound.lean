import Rtsp.Connection.Actions
import Rtsp.Connection.Line
import Rtsp.Lib.Trans

/-!
# What holds of a receiver in use

A receiver is polled and told to shut its request receiver down, in any order
(`Step`). Its buffer never outgrows its size; a forwarding receiver that is
still there after the request receiver has been shut down has a request due; and
the handle on the sender is kept as long as requests or responses are received
(`Sound`).

The invariant is no more than what the modules behind this one ask for, and it is not
the strongest. It says nothing about which requests are buffered, which is for the line
(`Connection.Line`), and nothing about the response receiver.

The steps do not say when a receiver is polled for the last time. It may be polled after
it has said that it is done, until its owner drops it, and the invariant holds of that
as well.
-/

namespace Rtsp

open Lib

namespace ForwardingReceiver

variable {URI : Type} {f : ForwardingReceiver URI} {answers : List SendAnswer}

/-- The requests sent leave the buffer. -/
theorem Forwards.length {f f' : ForwardingReceiver URI} {n n' : CSeq} {sent : Forwarded URI}
    (h : Forwards f n sent f' n') : f'.requestBufferSize = f.requestBufferSize ∧
      f.bufferedRequests.entries.length =
        sent.length + f'.bufferedRequests.entries.length := by
  refine ⟨?_, by simpa using h.perm.length_eq⟩
  induction h with
  | done => rfl
  | send _ _ ih => exact ih

theorem Ends.length {f f' : ForwardingReceiver URI} {n : CSeq} {r : Async Unit}
    (h : Ends f n (.ok r) f') : f'.requestBufferSize = f.requestBufferSize ∧
      f'.bufferedRequests.entries.length = f.bufferedRequests.entries.length := by
  refine ⟨?_, by simpa using h.kept.2.1.length_eq⟩
  cases h <;> rfl

/-- A poll that finds the handler listening takes out of the buffer what it sends. -/
theorem poll_length {r : Async Unit} (h : (f.poll answers).1 = .ok r) :
    (f.poll answers).2.1.requestBufferSize = f.requestBufferSize ∧
      f.bufferedRequests.entries.length = (f.poll answers).2.2.length +
        (f.poll answers).2.1.bufferedRequests.entries.length := by
  rcases f.poll_cases answers with ⟨-, hpoll⟩ | ⟨n, f₁, n₁, -, hforwards, hends⟩
  · rw [hpoll]
    exact ⟨rfl, (Nat.zero_add _).symm⟩
  · rw [h] at hends
    obtain ⟨hsize, hsent⟩ := hforwards.length
    obtain ⟨hsize', hkept⟩ := hends.length
    exact ⟨hsize'.trans hsize, by rw [hkept]; exact hsent⟩

/-- A poll that is not ready leaves a request that is due. -/
theorem hasRequestsReady_of_notReady (h : (f.poll answers).1 = .ok .notReady) :
    (f.poll answers).2.1.hasRequestsReady = true := by
  rcases f.poll_cases answers with ⟨-, hpoll⟩ | ⟨n, f₁, n₁, -, -, hends⟩
  · rw [hpoll] at h
    cases h
  · rw [h] at hends
    revert hends
    generalize (f.poll answers).2.1 = f'
    intro hends
    cases hends with
    | notReady hlookup => simp [hasRequestsReady, putBack]

/-- A request takes one place in the buffer at most. -/
theorem handleRequest_length (f : ForwardingReceiver URI) (request : Request URI) :
    (f.handleRequest request).2.requestBufferSize = f.requestBufferSize ∧
      (f.handleRequest request).2.bufferedRequests.entries.length ≤
        f.bufferedRequests.entries.length + 1 := by
  have hcases := f.handleRequest_cases request
  revert hcases
  generalize (f.handleRequest request).1 = result
  generalize (f.handleRequest request).2 = f'
  intro hcases
  cases hcases with
  | noCSeq => exact ⟨rfl, Nat.le_succ _⟩
  | tooFar => exact ⟨rfl, Nat.le_succ _⟩
  | occupied => exact ⟨rfl, Nat.le_succ _⟩
  | accepted _ _ hfree =>
    refine ⟨rfl, ?_⟩
    rw [AList.entries_insert_of_notMem (AList.lookup_eq_none.mp hfree)]
    exact Nat.le_refl _

end ForwardingReceiver

namespace Receiver

variable {URI URIError : Type}

/-- What happens to a receiver. -/
inductive Op (URI URIError : Type) where
  | poll (env : Answers URI URIError)
  | shutdownRequestReceiver

/-- The steps of a receiver, whatever its surroundings answer. -/
inductive Step : Receiver URI → Op URI URIError → Receiver URI → Prop where
  | poll {r env a r' t} : r.poll env = .ok (a, r', t) → Step r (.poll env) r'
  | shutdownRequestReceiver {r} : Step r .shutdownRequestReceiver r.shutdownRequestReceiver

/-- What holds of every receiver in use. -/
structure Sound (r : Receiver URI) : Prop where
  fits : ∀ f, r.forwardingReceiver = some f →
    f.bufferedRequests.entries.length ≤ f.requestBufferSize
  /-- Requests are received only as long as they can be forwarded. -/
  present : r.requestsAllowed = true → r.forwardingReceiver.isSome = true
  /-- Behind the end of requests, forwarding goes on for requests that are due. -/
  due : ∀ f, r.requestsAllowed = false → r.forwardingReceiver = some f →
    f.hasRequestsReady = true
  senderHandle : r.senderHandle = (r.requestsAllowed || r.responseReceiver.isSome)

theorem sound_new (size : Nat) : (new size : Receiver URI).Sound :=
  ⟨fun f hf => by cases hf; exact Nat.zero_le _, fun _ => rfl, nofun, rfl⟩

/-- Requests that are shut down stay so. -/
theorem Action.requestsAllowed {env : Answers URI URIError} {s s' : State URI URIError}
    (h : Action env s s') (hshut : s.1.requestsAllowed = false) :
    s'.1.requestsAllowed = false := by
  cases h with
  | shutRequests =>
    rw [shutdownRequestReceiver_eq]
  | shutResponses =>
    obtain ⟨ds, heq⟩ := shutdownResponseReceiver_eq env s.1 s.2
    rw [heq]
    exact hshut
  | finish =>
    rw [shutdownForwardingReceiver, shutdownRequestReceiver_eq]
  | lose =>
    rw [shutdownForwardingReceiver, shutdownRequestReceiver_eq]
  | _ => exact hshut

theorem Acts.requestsAllowed {env : Answers URI URIError} {s s' : State URI URIError}
    (h : Acts env s s') (hshut : s.1.requestsAllowed = false) :
    s'.1.requestsAllowed = false := by
  induction h with
  | refl => exact hshut
  | tail _ haction ih => exact haction.requestsAllowed ih

namespace Sound

variable {r : Receiver URI}

theorem shutdownRequestReceiver (hr : r.Sound) : r.shutdownRequestReceiver.Sound := by
  rw [shutdownRequestReceiver_eq]
  refine ⟨fun f hf => ?_, nofun, fun f _ hf => (Option.filter_eq_some_iff.mp hf).2, ?_⟩
  · exact hr.fits f (Option.filter_eq_some_iff.mp hf).1
  · show (r.senderHandle && r.responseReceiver.isSome) = (false || r.responseReceiver.isSome)
    rw [hr.senderHandle]
    cases r.responseReceiver <;> simp

/-- The forwarding receiver is dropped. -/
theorem shutdownForwardingReceiver
    (hr : r.senderHandle = (r.requestsAllowed || r.responseReceiver.isSome)) :
    r.shutdownForwardingReceiver.Sound := by
  unfold Receiver.shutdownForwardingReceiver
  rw [shutdownRequestReceiver_eq]
  refine ⟨nofun, nofun, nofun, ?_⟩
  show (r.senderHandle && r.responseReceiver.isSome) = (false || r.responseReceiver.isSome)
  rw [hr]
  cases r.responseReceiver <;> simp

/-- **Every action of a poll keeps a receiver sound.** -/
theorem action {env : Answers URI URIError} {s s' : State URI URIError} (hs : s.1.Sound)
    (h : Action env s s') : s'.1.Sound := by
  cases h with
  | answer => exact hs
  | stream => exact ⟨hs.fits, hs.present, hs.due, hs.senderHandle⟩
  | timer => exact ⟨hs.fits, hs.present, hs.due, hs.senderHandle⟩
  | @handle r t f request hallowed hf hroom =>
    obtain ⟨hsize, hlength⟩ := f.handleRequest_length request
    refine ⟨fun g hg => ?_, fun _ => rfl, fun g hshut => ?_, hs.senderHandle⟩
    · cases hg
      have hlt : f.bufferedRequests.entries.length < f.requestBufferSize := by
        simpa [ForwardingReceiver.isFull] using hroom
      rw [hsize]
      exact Nat.le_trans hlength hlt
    · rw [show r.requestsAllowed = false from hshut] at hallowed
      cases hallowed
  | respond _ _ hp =>
    refine ⟨hs.fits, hs.present, hs.due, ?_⟩
    have hsender := hs.senderHandle
    rwa [hp] at hsender
  | reply => exact hs
  | shutRequests => exact hs.shutdownRequestReceiver
  | shutResponses =>
    obtain ⟨ds, hshut⟩ := shutdownResponseReceiver_eq env s.1 s.2
    rw [hshut]
    refine ⟨hs.fits, hs.present, hs.due, ?_⟩
    show (s.1.senderHandle && s.1.requestsAllowed) = (s.1.requestsAllowed || false)
    rw [hs.senderHandle]
    cases s.1.requestsAllowed <;> simp
  | @forward r t f a hf ha hready =>
    obtain ⟨hsize, hlength⟩ := ForwardingReceiver.poll_length ha
    refine ⟨fun g hg => ?_, fun _ => rfl, fun g hshut hg => ?_, hs.senderHandle⟩
    · cases hg
      rw [hsize]
      exact Nat.le_trans (hlength ▸ Nat.le_add_left _ _) (hs.fits f hf)
    · cases hg
      cases a with
      | ready =>
        rw [show r.requestsAllowed = false from hshut] at hready
        cases hready rfl
      | notReady => exact ForwardingReceiver.hasRequestsReady_of_notReady ha
  | finish => exact shutdownForwardingReceiver hs.senderHandle
  | lose => exact shutdownForwardingReceiver hs.senderHandle

theorem acts {env : Answers URI URIError} {s s' : State URI URIError} (hs : s.1.Sound)
    (h : Acts env s s') : s'.1.Sound := by
  induction h with
  | refl => exact hs
  | tail _ haction ih => exact ih.action haction

theorem step {r' : Receiver URI} {op : Op URI URIError} (hr : r.Sound) (h : Step r op r') :
    r'.Sound := by
  cases h with
  | poll hpoll => exact hr.acts (s := (r, .empty)) (poll_acts hpoll)
  | shutdownRequestReceiver => exact hr.shutdownRequestReceiver

end Sound

/-- **A receiver is sound in every run.** -/
theorem sound_run {size : Nat} {ops : List (Op URI URIError)} {r : Receiver URI}
    (h : Run Step (new size) ops r) : r.Sound :=
  h.invariant (sound_new size) fun _ _ _ hr hstep => hr.step hstep

end Receiver
end Rtsp
