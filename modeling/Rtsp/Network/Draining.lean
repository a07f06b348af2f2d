import Rtsp.Network.Linked

/-!
# A sender is drained

What waits at a sender whose sink has not failed can be sent: as long as something
does, a step of the sender's task gives the sink one more message, or starts the
poll that will (`Delivery.advance`).

The sink answers that it is ready each time. Its other answers are possible as well, at
any time and as often as it likes, and the sender's task copes with them; here a run is
looked for that gets somewhere, and a sink that is never ready gets nowhere.

`toDo` counts twice for each message, for a poll has to be started as well as to accept.
-/

namespace Rtsp

open Lib

namespace Delivery

variable {URI URIError : Type} [RequestURI URI URIError] {d : Delivery URI} {date : HeaderValue}

theorem account_of_run {ops : List (Op URI)} (h : Run Step start ops d) : d.Account :=
  h.invariant account_start fun _ _ _ hd hstep => hd.step hstep

/-- What waits is within the limits, once it has this date. -/
structure Within (date : HeaderValue) (d : Delivery URI) : Prop where
  kept : ∀ m ∈ d.sender.bufferedMessage, m.Sendable
  channel : ∀ m ∈ d.sender.outgoing, (Sender.insertDate date m).Sendable

/-- The sender goes on: neither has its sink failed, nor is it gone. -/
def GoesOn (d : Delivery URI) : Prop := d.stage ≠ .failed ∧ d.stage ≠ .dropped

/-- The sink has accepted everything. -/
def Drained (d : Delivery URI) : Prop := d.accepted.length = d.pushed.length

/-- **Nothing is left** once the channel is empty and no message is kept. -/
theorem Account.drained (hd : d.Account) (hgoes : d.GoesOn)
    (hkept : d.sender.bufferedMessage = none) (hempty : d.sender.outgoing = []) :
    d.Drained := by
  obtain ⟨taken, hpushed, hdated⟩ := hd.kept hgoes.1 hgoes.2
  rw [hempty, List.append_nil] at hpushed
  rw [hkept, Option.toList_none, List.append_nil] at hdated
  rw [Drained, hpushed, hdated.length_eq]

/-- What a step of the task does that brings the sender on. -/
structure Advances (date : HeaderValue) (d d' : Delivery URI) : Prop where
  goesOn : d'.GoesOn
  handles : d'.handles = d.handles
  within : d'.Within date
  pushed : d'.pushed = d.pushed
  accepted : d'.accepted = d.accepted ∧ d.stage = .idle ∧ d'.stage = .writing ∨
    ∃ m, m.Sendable ∧ d'.accepted = d.accepted ++ [m] ∧ d'.stage = .writing

/-- **A sender can be brought on** until it is drained. -/
theorem Account.advance (hd : d.Account) (hgoes : d.GoesOn) (hwithin : d.Within date)
    (hleft : ¬ d.Drained) : ∃ op d', op.isOwn = true ∧ Step d op d' ∧ d.Advances date d' := by
  obtain ⟨handles, pushed, ⟨kept, outgoing⟩, accepted, closed, stage⟩ := d
  cases stage with
  | idle =>
    refine ⟨.retry .ready, _, rfl, .retry .ready rfl, ?_⟩
    cases kept with
    | none =>
      exact ⟨⟨nofun, nofun⟩, rfl, ⟨hwithin.kept, hwithin.channel⟩, rfl, .inl ⟨rfl, rfl, rfl⟩⟩
    | some m =>
      exact ⟨⟨nofun, nofun⟩, rfl, ⟨nofun, hwithin.channel⟩, rfl,
        .inr ⟨m, hwithin.kept m rfl, rfl, rfl⟩⟩
  | writing =>
    have hkept := hd.clear (.inl rfl)
    dsimp only at hkept
    subst hkept
    cases outgoing with
    | nil => exact absurd (hd.drained hgoes rfl rfl) hleft
    | cons m outgoing =>
      exact ⟨.take date .ready, _, rfl, .take date .ready rfl rfl, ⟨nofun, nofun⟩, rfl,
        ⟨nofun, fun m' hm' => hwithin.channel m' (.tail _ hm')⟩, rfl,
        .inr ⟨_, hwithin.channel m (.head _), rfl, rfl⟩⟩
  | closing =>
    exact absurd (hd.drained hgoes (hd.clear (.inr rfl)) (hd.ended (.inl rfl)).2) hleft
  | returned =>
    exact absurd (hd.drained hgoes (hd.returned rfl).1 (hd.ended (.inr rfl)).2) hleft
  | failed => exact absurd rfl hgoes.1
  | panicked => exact absurd rfl hd.asserted
  | dropped => exact absurd rfl hgoes.2

/-- How much is left to do: the messages that the sink has not accepted, and the start of the
    poll. -/
def toDo (d : Delivery URI) : Nat :=
  2 * (d.pushed.length - d.accepted.length) + if d.stage = .idle then 1 else 0

theorem Account.accepted_le (hd : d.Account) : d.accepted.length ≤ d.pushed.length := by
  obtain ⟨taken, hshorter, hdated⟩ := hd.accepted
  rw [← hdated.length_eq]
  exact hshorter.length_le

/-- What brings a sender on leaves less to do. -/
theorem Advances.toDo_lt {d' : Delivery URI} (h : d.Advances date d') (hd' : d'.Account) :
    d'.toDo < d.toDo := by
  have hle := hd'.accepted_le
  unfold toDo
  rw [h.pushed] at hle ⊢
  rcases h.accepted with ⟨hsame, hidle, hwriting⟩ | ⟨m, -, hmore, hwriting⟩
  · rw [hsame, hidle, hwriting, if_neg nofun, if_pos rfl]
    exact Nat.lt_succ_self _
  · rw [hmore, List.length_append, List.length_singleton] at hle ⊢
    rw [hwriting, if_neg nofun]
    omega

end Delivery
end Rtsp
