import Rtsp.Connection.Exchange

/-!
# Chains of channels

A request starts out with one oneshot channel. A Continue response uses it up, and
carries the receiving half of a new one, so a request that has had `k` of them has `k +
1` channels, each but the last holding the message that leads to the next. The future
walks down this chain as it looks at its replies, and the response receiver sends into
the last channel.

The model names a channel by its request and its place in the chain (a *hop*), so that
the halves the code hands around are just numbers here. `Chain channels n h e last` is
the part of request `n`'s chain that has not been looked at: hop `h` is where the future
stands, hop `e` the last one in use, and `last` what has happened to that. Behind it the
channels are new.

The lemmas are one for each thing that can happen to a chain: it gets longer at the end
(`extend`), its last channel is used (`put_last`), its front is looked at (`take`). They
need nothing of who holds the halves, which is what the ledger adds.
-/

namespace Rtsp

open Lib

/-- The channels of request `n` from hop `h` on: Continue responses up to hop `e`, which is
    the last one in use. -/
structure Chain (channels : Channels) (n h e : Nat) (last : Oneshot PendingRequestResponse) :
    Prop where
  le : h ≤ e
  continues : ∀ j, h ≤ j → j < e → channels ⟨n, j⟩ = .filled (.«continue» ⟨n, j + 1⟩)
  last : channels ⟨n, e⟩ = last
  fresh : ∀ j, e < j → channels ⟨n, j⟩ = .new

namespace Chain

variable {channels channels' : Channels} {n h e : Nat} {last : Oneshot PendingRequestResponse}

theorem congr (hchain : Chain channels n h e last)
    (hsame : ∀ c : ReplyChannel, c.request = n → channels' c = channels c) :
    Chain channels' n h e last where
  le := hchain.le
  continues j hj hlt := (hsame _ rfl).trans (hchain.continues j hj hlt)
  last := (hsame _ rfl).trans hchain.last
  fresh j hj := (hsame _ rfl).trans (hchain.fresh j hj)

/-- What happens at the end of the chain. -/
theorem put_last (hchain : Chain channels n h e last)
    (channel : Oneshot PendingRequestResponse) :
    Chain (channels.put ⟨n, e⟩ channel) n h e channel where
  le := hchain.le
  continues j hj hlt := by
    rw [Channels.put_of_ne _ _ fun heq => Nat.ne_of_lt hlt (congrArg ReplyChannel.hop heq)]
    exact hchain.continues j hj hlt
  last := Channels.put_self ..
  fresh j hj := by
    rw [Channels.put_of_ne _ _ fun heq => Nat.ne_of_gt hj (congrArg ReplyChannel.hop heq)]
    exact hchain.fresh j hj

/-- A Continue makes the chain longer. -/
theorem extend (hchain : Chain channels n h e .new) :
    Chain (channels.put ⟨n, e⟩ (.filled (.«continue» ⟨n, e + 1⟩))) n h (e + 1) .new where
  le := Nat.le_succ_of_le hchain.le
  continues j hj hlt := by
    rcases Nat.lt_succ_iff_lt_or_eq.mp hlt with hlt | rfl
    · exact (hchain.put_last _).continues j hj hlt
    · exact Channels.put_self ..
  last := (hchain.put_last _).fresh _ (Nat.lt_succ_self e)
  fresh j hj := (hchain.put_last _).fresh j (Nat.lt_of_succ_lt hj)

/-- The first channel of a chain: its only one, or it holds a Continue. -/
theorem first (hchain : Chain channels n h e last) :
    h = e ∧ channels ⟨n, h⟩ = last ∨
      h < e ∧ channels ⟨n, h⟩ = .filled (.«continue» ⟨n, h + 1⟩) := by
  rcases Nat.eq_or_lt_of_le hchain.le with rfl | hlt
  · exact .inl ⟨rfl, hchain.last⟩
  · exact .inr ⟨hlt, hchain.continues h (Nat.le_refl h) hlt⟩

/-- A Continue is looked at. -/
theorem take (hchain : Chain channels n h e last) (hlt : h < e)
    (channel : Oneshot PendingRequestResponse) :
    Chain (channels.put ⟨n, h⟩ channel) n (h + 1) e last := by
  have hother : ∀ j, h < j → channels.put ⟨n, h⟩ channel ⟨n, j⟩ = channels ⟨n, j⟩ := by
    intro j hj
    exact Channels.put_of_ne _ _ fun heq => Nat.ne_of_gt hj (congrArg ReplyChannel.hop heq)
  exact {
    le := hlt
    continues := fun j hj hlt => (hother j hj).trans (hchain.continues j (Nat.le_of_succ_le hj) hlt)
    last := (hother e hlt).trans hchain.last
    fresh := fun j hj => (hother j (Nat.lt_trans hlt hj)).trans (hchain.fresh j hj) }

/-- A chain ends with the first channel that does not hold a Continue. -/
theorem unique (hchain : Chain channels n h e last) {e' : Nat} (hnew : Chain channels n h e' .new)
    (hlast : ∀ rx, last ≠ .filled (.«continue» rx)) : e = e' ∧ last = .new := by
  rcases Nat.lt_trichotomy e e' with hlt | rfl | hlt
  · exact absurd (hchain.last.symm.trans (hnew.continues e hchain.le hlt)) (hlast _)
  · exact ⟨rfl, hchain.last.symm.trans hnew.last⟩
  · exact absurd ((hchain.continues e' hnew.le hlt).symm.trans hnew.last) Oneshot.filled_ne_new

/-- Nothing has happened in the channels of a request that has just been made. -/
theorem of_untouched (hnew : ∀ c : ReplyChannel, c.request = n → channels c = .new) :
    Chain channels n 0 0 .new where
  le := Nat.le_refl 0
  continues _ _ hlt := absurd hlt (Nat.not_lt_zero _)
  last := hnew _ rfl
  fresh _ _ := hnew _ rfl

end Chain

end Rtsp
