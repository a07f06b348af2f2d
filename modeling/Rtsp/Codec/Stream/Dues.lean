import Rtsp.Codec.Turns.Response

/-!
# What turns owe to their loop

A call of `decode` returns if every turn does, and makes progress if a message takes at
least one byte. The second does not follow from the turns one by one: the turn that
builds a message takes none, and neither does that of an empty body. So bytes are
counted in advance. `due` is what a message under way still takes at least, every turn
pays for what it brings down, and it is nothing exactly where the message is built.

`Dues` lists what the turns have to satisfy, and `Dues.decodeLoop` is what the loop then
does, for both decoders.
-/

namespace Rtsp

open Syntax Lib Decoder

namespace Decoder

variable {δ μ ε : Type}

/-- What the turns of a decoder owe to the loop around them. `I` holds of the decoder at
    every turn; `due` counts bytes that are taken before a message is built. -/
structure Dues (turn : δ → Bytes → Rust (Turn δ μ ε)) (setError : δ → ε → δ) (rank : δ → Nat)
    (I : δ → Prop) (due : δ → Nat) : Prop where
  returns : ∀ d b, I d → ∃ t, turn d b = .ok t
  complete : ∀ d b d' n, I d → turn d b = .ok (.complete d' n) →
    I d' ∧ n ≤ b.length ∧ due d ≤ n + due d' ∧ rank d' < 4 * n + rank d
  error : ∀ d b n e, I d → turn d b = .ok (.error n e) →
    I (setError d e) ∧ n ≤ b.length ∧ 0 < due (setError d e)
  incomplete : ∀ d b, I d → turn d b = .ok .incomplete → 0 < due d
  message : ∀ d b m d', I d → turn d b = .ok (.message m d') → I d' ∧ due d = 0 ∧ 0 < due d'
  failed : ∀ d b e, I d → turn d b = .ok (.failed e) → 0 < due d

/-- **The loop returns**, with turns enough; a message took what was due. -/
theorem Dues.decodeLoop {turn : δ → Bytes → Rust (Turn δ μ ε)} {setError : δ → ε → δ}
    {rank : δ → Nat} {I : δ → Prop} {due : δ → Nat} (h : Dues turn setError rank I due)
    (turns : Nat) (d : δ) (b : Bytes) (decoded : Nat) (hturns : 4 * b.length + rank d < turns)
    (hd : I d) :
    ∃ result n d', Decoder.decodeLoop turn setError turns d b decoded = .ok (result, n, d') ∧
      I d' ∧ 0 < due d' ∧ n ≤ decoded + b.length ∧
      ∀ m, result = .complete m → decoded + due d ≤ n := by
  induction turns generalizing d b decoded with
  | zero => omega
  | succ turns ih =>
    unfold Decoder.decodeLoop
    obtain ⟨t, ht⟩ := h.returns d b hd
    rw [ht, ok_bind]
    cases t with
    | complete d₁ n₁ =>
      obtain ⟨hd₁, hle, hdue, hrank⟩ := h.complete _ _ _ _ hd ht
      obtain ⟨result, n, d', hloop, hd', hpos, hn, hm⟩ := ih d₁ (b.drop n₁) (decoded + n₁)
        (by rw [List.length_drop]; omega) hd₁
      rw [List.length_drop] at hn
      refine ⟨result, n, d', hloop, hd', hpos, by omega, fun m hr => ?_⟩
      have := hm m hr
      omega
    | error n₁ e =>
      obtain ⟨hd', hle, hpos⟩ := h.error _ _ _ _ hd ht
      exact ⟨_, _, _, rfl, hd', hpos, by omega, fun m hr => by cases hr⟩
    | incomplete =>
      exact ⟨_, _, _, rfl, hd, h.incomplete _ _ hd ht, by omega, fun m hr => by cases hr⟩
    | message m d₁ =>
      obtain ⟨hd', hdue, hpos⟩ := h.message _ _ _ _ hd ht
      exact ⟨_, _, _, rfl, hd', hpos, by omega, fun m hr => by omega⟩
    | failed e =>
      exact ⟨_, _, _, rfl, hd, h.failed _ _ _ hd ht, by omega, fun m hr => by cases hr⟩

end Decoder

end Rtsp
