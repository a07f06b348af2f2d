import Rtsp.Connection.Connection
import Rtsp.Connection.Sound

/-!
# What holds of a connection in use

A connection is polled, and other tasks put messages into the channel of its
sender, in any order (`Step`). Its receiver is sound, and does not receive
requests once the sender is gone (`Sound`).

`poll_inv` takes a poll apart into its three parts and the end, and is the way in which
the results on connections get at the code. What the invariant says is a matter of the
sender: without one there is nobody to send a response, and so the receiver must not
take in requests that would have to be answered. It may go on receiving responses, and
`Connection.ErrorReplies` is about what comes of that.
-/

namespace Rtsp

open Lib

namespace Connection

variable {URI URIError : Type} {c c' : Connection URI} {env : Answers URI URIError}

/-! ## The connection in use -/

/-- What happens to a connection: it is polled, and messages are put into the channel of its
    sender. -/
inductive Op (URI URIError : Type) where
  | poll (env : Answers URI URIError)
  | send (messages : List (Message URI))

inductive Step : Connection URI → Op URI URIError → Connection URI → Prop where
  | poll {c₁ : Connection URI} {env : Answers URI URIError} {a c₂ t} :
      c₁.poll env = .ok (a, c₂, t) → Step c₁ (.poll env) c₂
  | send {c₁ : Connection URI} (messages : List (Message URI)) :
      Step c₁ (.send messages) { c₁ with sender := c₁.sender.map (·.enqueue messages) }

/-- The parts of a poll. -/
theorem poll_inv {a : Async Unit} {t : Trace URI URIError} (h : c.poll env = .ok (a, c', t)) :
    ∃ c₁ r shutdown, c.pollReceiver env = .ok (c₁, t.receiver) ∧
      t.sender = (c₁.pollSender env).2 ∧
      (c₁.pollSender env).1.shutdown.poll env.shutdown = .ok (r, shutdown) ∧
      (a, c') = conclude (handleShutdownState { (c₁.pollSender env).1 with shutdown } env) := by
  obtain ⟨⟨c₁, received⟩, hreceiver, h⟩ := bind_eq_ok h
  obtain ⟨⟨r, shutdown⟩, hshutdown, h⟩ := bind_eq_ok h
  have heq := Except.ok.inj h
  have ht := congrArg (·.2.2) heq
  dsimp only at ht
  subst ht
  refine ⟨c₁, r, shutdown, hreceiver, rfl, hshutdown, ?_⟩
  exact (Prod.ext (congrArg (·.1) heq) (congrArg (·.2.1) heq)).symm

theorem poll_of {c₁ : Connection URI} {received : Receiver.Trace URI URIError} {r : Async Unit}
    {shutdown : ShutdownHandler} (hreceiver : c.pollReceiver env = .ok (c₁, received))
    (hshutdown : (c₁.pollSender env).1.shutdown.poll env.shutdown = .ok (r, shutdown)) :
    ∃ t, c.poll env = .ok
      ((conclude (handleShutdownState { (c₁.pollSender env).1 with shutdown } env)).1,
        (conclude (handleShutdownState { (c₁.pollSender env).1 with shutdown } env)).2, t) := by
  unfold poll
  rw [hreceiver, ok_bind]
  dsimp only
  rw [hshutdown]
  exact ⟨_, rfl⟩

/-- What holds of every connection in use. -/
structure Sound (c : Connection URI) : Prop where
  receiver : ∀ r, c.receiver = some r → r.Sound
  /-- Requests are received only as long as they can be answered. -/
  sender : c.sender = none → ∀ r, c.receiver = some r → r.requestsAllowed = false

theorem sound_withConfig (service : Bool) (size : Nat) :
    (withConfig service size : Connection URI).Sound :=
  ⟨fun r hr => by cases hr; exact Receiver.sound_new size, nofun⟩

namespace Sound

/-- Whatever becomes of the sender, once requests are shut down. -/
theorem shutdownRequestReceiver (hc : c.Sound) (sender : Option (Sender URI))
    (allowRequests : Bool) : Sound { c.shutdownRequestReceiver with sender, allowRequests } := by
  unfold Connection.shutdownRequestReceiver
  split
  · next r hr =>
    refine ⟨fun r' hr' => ?_, fun _ r' hr' => ?_⟩
    · dsimp only at hr'
      split at hr'
      · cases hr'
      · cases hr'
        exact (hc.receiver r hr).shutdownRequestReceiver
    · dsimp only at hr'
      split at hr'
      · cases hr'
      · cases hr'
        rw [Receiver.shutdownRequestReceiver_eq]
  · next hnone =>
    have habsurd : ∀ r', c.receiver ≠ some r' := fun r' hr' => by
      rw [hnone] at hr'
      cases hr'
    exact ⟨fun r' hr' => absurd hr' (habsurd r'), fun _ r' hr' => absurd hr' (habsurd r')⟩

theorem pollRequestHandlerShutdown (hc : c.Sound) : (c.pollRequestHandlerShutdown env).Sound := by
  unfold Connection.pollRequestHandlerShutdown
  split
  · next hgone =>
    have hnone : c.receiver = none := by
      simpa [isReceiverShutdown] using (Bool.and_eq_true_iff.mp hgone).1
    have hshut : c.shutdownSender.Sound :=
      ⟨hc.receiver, fun _ r hr => by
        rw [show c.receiver = some r from hr] at hnone
        cases hnone⟩
    split
    · exact hshut
    · exact hshut
    · exact hc
  · exact hc

theorem pollReceiver (hc : c.Sound) {t : Receiver.Trace URI URIError}
    (h : c.pollReceiver env = .ok (c', t)) : c'.Sound := by
  unfold Connection.pollReceiver at h
  split at h
  · next r hr =>
    obtain ⟨⟨a, r', t'⟩, hpoll, h⟩ := bind_eq_ok h
    have hacts := Receiver.poll_acts hpoll
    have hsound : r'.Sound := (hc.receiver r hr).acts (s := (r, .empty)) hacts
    have hc₁ : Sound { c with
        receiver := some r'
        sender := c.sender.map (·.enqueue (t'.replies.map .response)) } := by
      refine ⟨fun r₁ hr₁ => by cases hr₁; exact hsound, fun hnone r₁ hr₁ => ?_⟩
      cases hr₁
      exact hacts.requestsAllowed (hc.sender (Option.map_eq_none_iff.mp hnone) r hr)
    cases a with
    | ready =>
      cases h
      exact ⟨nofun, nofun⟩
    | notReady =>
      cases h
      exact hc₁
  · cases h
    exact hc

theorem pollSender (hc : c.Sound) (env : Answers URI URIError) : (c.pollSender env).1.Sound := by
  unfold Connection.pollSender
  split
  · next s hs =>
    have hkept : ∀ s', Sound { c with sender := some s' } := fun s' => ⟨hc.receiver, nofun⟩
    generalize s.poll env.sender = polled
    obtain ⟨result, s', t⟩ := polled
    rcases result with _ | (_ | _)
    · exact (hkept s').shutdownRequestReceiver none _
    · exact (hkept s').shutdownRequestReceiver none _
    · exact hkept s'
  · exact hc

theorem handleShutdownState (hc : c.Sound) (env : Answers URI URIError) :
    (c.handleShutdownState env).2.Sound := by
  unfold Connection.handleShutdownState
  split
  · exact pollRequestHandlerShutdown (c := c.updateAllowRequests) ⟨hc.receiver, hc.sender⟩
  · exact hc.shutdownRequestReceiver _ false
  · exact ⟨nofun, nofun⟩

theorem conclude {handled : Async Unit × Connection URI} (hc : handled.2.Sound) :
    (Connection.conclude handled).2.Sound := by
  obtain ⟨result, c⟩ := handled
  cases result with
  | ready => exact hc
  | notReady =>
    show c.finish.2.Sound
    unfold finish
    split
    · exact ⟨hc.receiver, hc.sender⟩
    · exact hc

/-- **A poll keeps a connection sound.** -/
theorem poll (hc : c.Sound) {a : Async Unit} {t : Trace URI URIError}
    (h : c.poll env = .ok (a, c', t)) : c'.Sound := by
  obtain ⟨c₁, r, shutdown, hreceiver, -, -, hresult⟩ := poll_inv h
  have hsound := (hc.pollReceiver hreceiver).pollSender env
  have hhandled := handleShutdownState (c := { (c₁.pollSender env).1 with shutdown })
    ⟨hsound.receiver, hsound.sender⟩ env
  rw [show c' = _ from congrArg Prod.snd hresult]
  exact conclude hhandled

end Sound

/-- **A connection is sound in every run.** -/
theorem sound_run {service : Bool} {size : Nat} {ops : List (Op URI URIError)}
    (h : Run Step (withConfig service size) ops c) : c.Sound := by
  refine h.invariant (sound_withConfig service size) fun c₁ op c₂ hc hstep => ?_
  cases hstep with
  | poll hpoll => exact hc.poll hpoll
  | send messages => exact ⟨hc.receiver, fun hnone => hc.sender (Option.map_eq_none_iff.mp hnone)⟩

end Connection
end Rtsp
