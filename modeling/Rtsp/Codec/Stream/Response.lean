import Rtsp.Codec.Stream.Request

/-!
# What the response decoder owes

The same count as for requests, stage by stage.

The first state takes nine bytes and no fewer, but one is all that is said of any state
before the end: that a message takes a byte is enough for the loops to end, and a
sharper count would have to be taken through every state.
-/

namespace Rtsp

open Syntax Lib Decoder

namespace ResponseDecoder

variable {d d' : ResponseDecoder} {b : Bytes} {n : Nat}

/-- How many bytes a message under way takes at least, before it is built. -/
def due (d : ResponseDecoder) : Nat :=
  match d.state with
  | .end => 0
  | .body => d.contentLength.val
  | _ => 1

theorem due_eq_one (hend : d.state ≠ .end) (hbody : d.state ≠ .body) : d.due = 1 := by
  unfold due
  split
  · next hstate => exact absurd hstate hend
  · next hstate => exact absurd hstate hbody
  · rfl

theorem Completes.due (h : Completes d b d' n) : d.due ≤ n + d'.due := by
  cases h with
  | body hstate _ hlen =>
    rw [ResponseDecoder.due, hstate, ← hlen]
    exact Nat.le_add_right _ _
  | version hstate =>
    rw [due_eq_one (by simp [hstate]) (by simp [hstate])]
    omega
  | statusCode hstate =>
    rw [due_eq_one (by simp [hstate]) (by simp [hstate])]
    omega
  | reasonPhrase hstate =>
    rw [due_eq_one (by simp [hstate]) (by simp [hstate])]
    omega
  | header hstate =>
    rw [due_eq_one (by simp [hstate]) (by simp [hstate])]
    omega
  | headersEnd hstate =>
    rw [due_eq_one (by simp [hstate]) (by simp [hstate])]
    omega

/-- What a turn came to. -/
inductive Came (d : ResponseDecoder) : Turn → Prop where
  | complete (d₁ n₁) : Came d (.complete d₁ n₁)
  | error (n₁ e) : Came d (.error n₁ e)
  | incomplete : 0 < d.due → Came d .incomplete
  | message {response} : d.state = .end → d.builder.build = .ok response →
      Came d (.message response { d with builder := .new, state := .version })
  | failed {e} : d.state = .error e → Came d (.failed e)

theorem turn_came {t : Turn} (h : d.turn b = .ok t) : d.Came t := by
  have hpos : d.state ≠ .end → d.state ≠ .body → 0 < d.due := fun hend hbody => by
    rw [due_eq_one hend hbody]
    exact Nat.one_pos
  unfold turn at h
  cases hstate : d.state with
  | version =>
    rw [hstate] at h
    simp only [decodeVersion] at h
    split at h
    · cases h
      exact .incomplete (hpos (by simp [hstate]) (by simp [hstate]))
    · obtain ⟨_, _, h⟩ := bind_eq_ok h
      split at h
      · cases h
        exact .error _ _
      · obtain ⟨_, _, h⟩ := bind_eq_ok h
        split at h
        · cases h
          exact .error _ _
        · obtain ⟨rfl, -⟩ := consume_eq_ok h
          exact .complete _ _
        · cases h
          exact .error _ _
  | statusCode =>
    rw [hstate] at h
    simp only [decodeStatusCode] at h
    split at h
    · cases h
      exact .incomplete (hpos (by simp [hstate]) (by simp [hstate]))
    · obtain ⟨_, _, h⟩ := bind_eq_ok h
      split at h
      · cases h
        exact .error _ _
      · obtain ⟨_, _, h⟩ := bind_eq_ok h
        split at h
        · cases h
          exact .error _ _
        · obtain ⟨rfl, -⟩ := consume_eq_ok h
          exact .complete _ _
  | reasonPhrase =>
    rw [hstate] at h
    obtain ⟨_, _, h⟩ := bind_eq_ok h
    split at h
    · obtain ⟨_, _, h⟩ := bind_eq_ok h
      split at h
      · cases h
        exact .error _ _
      · obtain ⟨rfl, -⟩ := consume_eq_ok h
        exact .complete _ _
    · split at h
      · cases h
        exact .error _ _
      · cases h
        exact .incomplete (hpos (by simp [hstate]) (by simp [hstate]))
  | header =>
    rw [hstate] at h
    obtain ⟨l, _, h⟩ := bind_eq_ok h
    cases l with
    | header => cases h; exact .complete _ _
    | ended => cases h; exact .complete _ _
    | endedWithError => cases h; exact .error _ _
    | error => cases h; exact .error _ _
    | incomplete =>
      cases h
      exact .incomplete (hpos (by simp [hstate]) (by simp [hstate]))
  | body =>
    rw [hstate] at h
    simp only [decodeBody, Decoder.decodeBody] at h
    split at h
    · next hbody =>
      split at hbody
      · next hlt =>
        cases h
        refine .incomplete ?_
        rw [ResponseDecoder.due, hstate]
        exact Nat.zero_lt_of_lt hlt
      · cases hbody
    · obtain ⟨rfl, -⟩ := consume_eq_ok h
      exact .complete _ _
  | «end» =>
    rw [hstate] at h
    obtain ⟨_, hbuild, h⟩ := bind_eq_ok h
    cases h
    exact .message hstate (expect_toOption_eq_ok hbuild)
  | error e =>
    rw [hstate] at h
    cases h
    exact .failed hstate

/-- A decoder between two calls of `decode`. -/
structure Resting (d : ResponseDecoder) : Prop where
  config : d.config.Ample
  formed : d.Formed
  due : 0 < d.due

theorem Resting.state_ne_end (h : d.Resting) : d.state ≠ .end := by
  intro hstate
  have := h.due
  rw [ResponseDecoder.due, hstate] at this
  exact absurd this (Nat.lt_irrefl 0)

theorem resting_withConfig {config : Config} (h : config.Ample) : (withConfig config).Resting :=
  ⟨h, trivial, Nat.one_pos⟩

/-- **The turns of the response decoder pay their dues.** -/
theorem dues : Dues turn setError rank (fun d => d.config.Ample ∧ d.Formed) due where
  returns _ b hd := turn_returns hd.1 hd.2 b
  complete d b d' n hd h := by
    have hc := turn_complete h
    cases turn_moves h with
    | complete hle hconfig _ hrank => exact ⟨⟨hconfig ▸ hd.1, hc.formed hd.2⟩, hle, hc.due, hrank⟩
  error d b n e hd h := by
    cases turn_moves h with
    | error hle => exact ⟨⟨hd.1, trivial⟩, hle, Nat.one_pos⟩
  incomplete d b hd h := by
    cases turn_came h with
    | incomplete hpos => exact hpos
  message d b response d' hd h := by
    cases turn_came h with
    | message hstate => exact ⟨⟨hd.1, trivial⟩, by rw [ResponseDecoder.due, hstate], Nat.one_pos⟩
  failed d b e hd h := by
    cases turn_came h with
    | failed hstate =>
      rw [ResponseDecoder.due, hstate]
      exact Nat.one_pos

/-- **A call of `decode` returns**, and a message took at least one byte. -/
theorem Resting.decode (h : d.Resting) (b : Bytes) :
    ∃ result n d', d.decode b = .ok (result, n, d') ∧ d'.Resting ∧ n ≤ b.length ∧
      ∀ response, result = .complete response → 0 < n := by
  have hrank := d.rank_le
  obtain ⟨result, n, d', hloop, hd', hpos, hn, hm⟩ := dues.decodeLoop (turns b) d b 0
    (by unfold turns; omega) ⟨h.config, h.formed⟩
  refine ⟨result, n, d', hloop, ⟨hd'.1, hd'.2, hpos⟩, by omega, fun response hr => ?_⟩
  have := hm response hr
  have := h.due
  omega

end ResponseDecoder

end Rtsp
