import Rtsp.Connection.OneWay.Watched

/-!
# What a poll lets go

The parts of `Connection::poll` apart from the shutdown handler take away and never give
back: the receiver and the sender are dropped, the flag is put down (`Sheds`). Each part
is looked at once, and a poll is their composition, since the relation is transitive.

`Onward` is the same with the state of the shutdown handler, which goes from running
over shutting down to shut down. The rank of a state makes an order of that.
-/

namespace Rtsp

open Lib

namespace Connection

variable {URI URIError : Type} {c c' c'' : Connection URI} {env : Answers URI URIError}

/-- What the parts of a poll do apart from the shutdown handler: nothing that has been shut
    down comes back. -/
structure Sheds (c c' : Connection URI) : Prop where
  allowRequests : c.allowRequests = false → c'.allowRequests = false
  receiver : c.receiver = none → c'.receiver = none
  sender : c.sender = none → c'.sender = none
  shutdown : c'.shutdown = c.shutdown

namespace Sheds

theorem refl (c : Connection URI) : c.Sheds c := ⟨id, id, id, rfl⟩

theorem trans (h : c.Sheds c') (h' : c'.Sheds c'') : c.Sheds c'' :=
  ⟨h'.allowRequests ∘ h.allowRequests, h'.receiver ∘ h.receiver, h'.sender ∘ h.sender,
    h'.shutdown.trans h.shutdown⟩

theorem shutdownReceiver (c : Connection URI) : c.Sheds c.shutdownReceiver :=
  ⟨id, fun _ => rfl, id, rfl⟩

theorem shutdownSender (c : Connection URI) : c.Sheds c.shutdownSender :=
  ⟨id, id, fun _ => rfl, rfl⟩

theorem shutdownRequestReceiver (c : Connection URI) : c.Sheds c.shutdownRequestReceiver := by
  unfold Connection.shutdownRequestReceiver
  split
  · next r hr => exact ⟨id, (fun hnone => by rw [hr] at hnone; cases hnone), id, rfl⟩
  · exact refl c

theorem disallow (c : Connection URI) : c.Sheds { c with allowRequests := false } :=
  ⟨fun _ => rfl, id, id, rfl⟩

theorem enqueue (c : Connection URI) (messages : List (Message URI)) :
    c.Sheds { c with sender := c.sender.map (·.enqueue messages) } :=
  ⟨id, id, fun hnone => Option.map_eq_none_iff.mpr hnone, rfl⟩

theorem updateAllowRequests (c : Connection URI) : c.Sheds c.updateAllowRequests := by
  refine ⟨fun hdown => ?_, id, id, rfl⟩
  show (if _ then false else c.allowRequests) = false
  rw [hdown, ite_self]

theorem pollReceiver {t : Receiver.Trace URI URIError} (h : c.pollReceiver env = .ok (c', t)) :
    c.Sheds c' := by
  unfold Connection.pollReceiver at h
  split at h
  · next receiver hreceiver =>
    obtain ⟨⟨result, receiver', t'⟩, -, h⟩ := bind_eq_ok h
    have hpolled : c.Sheds { c with
        receiver := some receiver'
        sender := c.sender.map (·.enqueue (t'.replies.map .response)) } :=
      ⟨id, (fun hnone => by rw [hreceiver] at hnone; cases hnone),
        fun hnone => Option.map_eq_none_iff.mpr hnone, rfl⟩
    cases result with
    | ready =>
      cases h
      exact hpolled.trans (shutdownReceiver _)
    | notReady =>
      cases h
      exact hpolled
  · cases h
    exact refl c

theorem pollSender (c : Connection URI) (env : Answers URI URIError) :
    c.Sheds (c.pollSender env).1 := by
  unfold Connection.pollSender
  split
  · next sender hsender =>
    generalize sender.poll env.sender = polled
    obtain ⟨result, sender', t⟩ := polled
    have hpolled : c.Sheds { c with sender := some sender' } :=
      ⟨id, id, (fun hnone => by rw [hsender] at hnone; cases hnone), rfl⟩
    have hends := (hpolled.trans (shutdownRequestReceiver _)).trans (shutdownSender _)
    rcases result with _ | (_ | _)
    · exact hends
    · exact hends
    · exact hpolled
  · exact refl c

theorem pollRequestHandlerShutdown (c : Connection URI) (env : Answers URI URIError) :
    c.Sheds (c.pollRequestHandlerShutdown env) := by
  unfold Connection.pollRequestHandlerShutdown
  split
  · split
    · exact shutdownSender c
    · exact shutdownSender c
    · exact refl c
  · exact refl c

theorem handleShutdownState (c : Connection URI) (env : Answers URI URIError) :
    c.Sheds (c.handleShutdownState env).2 := by
  unfold Connection.handleShutdownState
  split
  · exact (updateAllowRequests c).trans (pollRequestHandlerShutdown _ env)
  · exact (shutdownRequestReceiver c).trans (disallow _)
  · exact ((shutdownReceiver c).trans (shutdownSender _)).trans (disallow _)

end Sheds

/-- A poll that is ready at once has shut everything down. -/
theorem handleShutdownState_ready (env : Answers URI URIError)
    (h : (c.handleShutdownState env).1 = .ready ()) :
    (c.handleShutdownState env).2.allowRequests = false ∧
      (c.handleShutdownState env).2.receiver = none ∧
      (c.handleShutdownState env).2.sender = none ∧ c.shutdown.state = .shutdown := by
  unfold handleShutdownState at h ⊢
  split at h
  · cases h
  · cases h
  · next hstate => exact ⟨rfl, rfl, rfl, hstate⟩

/-- Without a receiver the flag is down. -/
theorem handleShutdownState_flag (env : Answers URI URIError)
    (hreceiver : (c.handleShutdownState env).2.receiver = none) :
    (c.handleShutdownState env).2.allowRequests = false := by
  unfold handleShutdownState at hreceiver ⊢
  cases hstate : c.shutdown.state with
  | running =>
    rw [hstate] at hreceiver
    -- Whether the sender goes is of no account here.
    have hkept : ∀ c : Connection URI, (c.pollRequestHandlerShutdown env).receiver = c.receiver ∧
        (c.pollRequestHandlerShutdown env).allowRequests = c.allowRequests := fun c => by
      unfold pollRequestHandlerShutdown
      split
      · split <;> exact ⟨rfl, rfl⟩
      · exact ⟨rfl, rfl⟩
    obtain ⟨hsame, hflag⟩ := hkept c.updateAllowRequests
    have hnone : c.receiver = none := hsame.symm.trans hreceiver
    show (c.updateAllowRequests.pollRequestHandlerShutdown env).allowRequests = false
    rw [hflag, updateAllowRequests, hnone]
    rfl
  | shuttingDown => rfl
  | shutdown => rfl

/-- Nothing of a shutdown is taken back. -/
structure Onward (c c' : Connection URI) : Prop where
  allowRequests : c.allowRequests = false → c'.allowRequests = false
  receiver : c.receiver = none → c'.receiver = none
  sender : c.sender = none → c'.sender = none
  state : c.shutdown.state.rank ≤ c'.shutdown.state.rank

namespace Onward

theorem refl (c : Connection URI) : c.Onward c := ⟨id, id, id, le_refl _⟩

theorem trans (h : c.Onward c') (h' : c'.Onward c'') : c.Onward c'' :=
  ⟨h'.allowRequests ∘ h.allowRequests, h'.receiver ∘ h.receiver, h'.sender ∘ h.sender,
    le_trans h.state h'.state⟩

/-- The shutdown handler goes on after the other parts. -/
theorem of_sheds (h : c.Sheds c') {shutdown : ShutdownHandler}
    (hstate : c.shutdown.state.rank ≤ shutdown.state.rank) : c.Onward { c' with shutdown } :=
  ⟨h.allowRequests, h.receiver, h.sender, hstate⟩

end Onward
end Connection

end Rtsp
