import Rtsp.Codec.Stream.Dues

/-!
# What the request decoder owes

A request takes at least one byte for as long as its headers have not ended, and then
the bytes of its body, of which there may be none. Between two calls of `decode` a
decoder is therefore never in its last state, and never in front of an empty body
(`Resting`). This is kept by every call (`Resting.decode`), whatever is in the buffer
and however much of it.

`Came` leaves out everything about a turn but whether the decoder still has bytes to
take. It is what a proof about calls needs to know of turns, and what the turn did in
detail is in `Completes`.
-/

namespace Rtsp

open Syntax Lib Decoder

namespace RequestDecoder

variable {URI URIError : Type} {d d' : RequestDecoder URI URIError} {b : Bytes} {n : Nat}

/-- How many bytes a message under way takes at least, before it is built. -/
def due (d : RequestDecoder URI URIError) : Nat :=
  match d.state with
  | .end => 0
  | .body => d.contentLength.val
  | _ => 1

variable [RequestURI URI URIError]

omit [RequestURI URI URIError] in
theorem due_eq_one (hend : d.state ≠ .end) (hbody : d.state ≠ .body) : d.due = 1 := by
  unfold due
  split
  · next hstate => exact absurd hstate hend
  · next hstate => exact absurd hstate hbody
  · rfl

theorem Completes.due (h : Completes d b d' n) : d.due ≤ n + d'.due := by
  cases h with
  | body hstate _ hlen =>
    rw [RequestDecoder.due, hstate, ← hlen]
    exact Nat.le_add_right _ _
  | method hstate =>
    rw [due_eq_one (by simp [hstate]) (by simp [hstate])]
    omega
  | uri hstate =>
    rw [due_eq_one (by simp [hstate]) (by simp [hstate])]
    omega
  | version hstate =>
    rw [due_eq_one (by simp [hstate]) (by simp [hstate])]
    omega
  | header hstate =>
    rw [due_eq_one (by simp [hstate]) (by simp [hstate])]
    omega
  | headersEnd hstate =>
    rw [due_eq_one (by simp [hstate]) (by simp [hstate])]
    omega

/-- What a turn came to. A decoder that asks for more still has bytes to take, and the
    message is built in the end state. -/
inductive Came (d : RequestDecoder URI URIError) : Turn URI URIError → Prop where
  | complete (d₁ n₁) : Came d (.complete d₁ n₁)
  | error (n₁ e) : Came d (.error n₁ e)
  | incomplete : 0 < d.due → Came d .incomplete
  | message {request} : d.state = .end → d.builder.build = .ok request →
      Came d (.message request { d with builder := .new, state := .method })
  | failed {e} : d.state = .error e → Came d (.failed e)

theorem turn_came {t : Turn URI URIError} (h : d.turn b = .ok t) : d.Came t := by
  have hpos : d.state ≠ .end → d.state ≠ .body → 0 < d.due := fun hend hbody => by
    rw [due_eq_one hend hbody]
    exact Nat.one_pos
  unfold turn at h
  cases hstate : d.state with
  | method =>
    rw [hstate] at h
    rcases readField_eq_ok h with rfl | ⟨e, rfl⟩ | ⟨text, h⟩
    · exact .incomplete (hpos (by simp [hstate]) (by simp [hstate]))
    · exact .error _ _
    · split at h
      · obtain ⟨rfl, -⟩ := consume_eq_ok h
        exact .complete _ _
      · cases h
        exact .error _ _
  | uri =>
    rw [hstate] at h
    rcases readField_eq_ok h with rfl | ⟨e, rfl⟩ | ⟨text, h⟩
    · exact .incomplete (hpos (by simp [hstate]) (by simp [hstate]))
    · exact .error _ _
    · split at h
      · obtain ⟨rfl, -⟩ := consume_eq_ok h
        exact .complete _ _
      · cases h
        exact .error _ _
  | version =>
    rw [hstate] at h
    simp only [decodeVersion] at h
    split at h
    · cases h
      exact .incomplete (hpos (by simp [hstate]) (by simp [hstate]))
    · obtain ⟨_, _, h⟩ := bind_eq_ok h
      split at h
      · cases h
        exact .error _ _
      · obtain ⟨_, _, h⟩ := bind_eq_ok h
        split at h
        · cases h
          exact .error _ _
        · obtain ⟨rfl, -⟩ := consume_eq_ok h
          exact .complete _ _
        · cases h
          exact .error _ _
  | header =>
    rw [hstate] at h
    obtain ⟨l, _, h⟩ := bind_eq_ok h
    cases l with
    | header => cases h; exact .complete _ _
    | ended => cases h; exact .complete _ _
    | endedWithError => cases h; exact .error _ _
    | error => cases h; exact .error _ _
    | incomplete =>
      cases h
      exact .incomplete (hpos (by simp [hstate]) (by simp [hstate]))
  | body =>
    rw [hstate] at h
    simp only [decodeBody, Decoder.decodeBody] at h
    split at h
    · next hbody =>
      -- Some of the body is missing, so it is not empty.
      split at hbody
      · next hlt =>
        cases h
        refine .incomplete ?_
        rw [RequestDecoder.due, hstate]
        exact Nat.zero_lt_of_lt hlt
      · cases hbody
    · obtain ⟨rfl, -⟩ := consume_eq_ok h
      exact .complete _ _
  | «end» =>
    rw [hstate] at h
    obtain ⟨_, hbuild, h⟩ := bind_eq_ok h
    cases h
    exact .message hstate (expect_toOption_eq_ok hbuild)
  | error e =>
    rw [hstate] at h
    cases h
    exact .failed hstate

/-- A decoder between two calls of `decode`: the parts of the message that it has read are
    there, and it has bytes to take before it is at the end. -/
structure Resting (d : RequestDecoder URI URIError) : Prop where
  config : d.config.Ample
  formed : d.Formed
  due : 0 < d.due

omit [RequestURI URI URIError] in
theorem Resting.state_ne_end (h : d.Resting) : d.state ≠ .end := by
  intro hstate
  have := h.due
  rw [RequestDecoder.due, hstate] at this
  exact absurd this (Nat.lt_irrefl 0)

omit [RequestURI URI URIError] in
theorem resting_withConfig {config : Config} (h : config.Ample) :
    (withConfig config : RequestDecoder URI URIError).Resting :=
  ⟨h, trivial, Nat.one_pos⟩

/-- **The turns of the request decoder pay their dues.** -/
theorem dues : Dues turn setError rank
    (fun d : RequestDecoder URI URIError => d.config.Ample ∧ d.Formed) due where
  returns _ b hd := turn_returns hd.1 hd.2 b
  complete d b d' n hd h := by
    have hc := turn_complete h
    cases turn_moves h with
    | complete hle hconfig _ hrank => exact ⟨⟨hconfig ▸ hd.1, hc.formed hd.2⟩, hle, hc.due, hrank⟩
  error d b n e hd h := by
    cases turn_moves h with
    | error hle => exact ⟨⟨hd.1, trivial⟩, hle, Nat.one_pos⟩
  incomplete d b hd h := by
    cases turn_came h with
    | incomplete hpos => exact hpos
  message d b request d' hd h := by
    cases turn_came h with
    | message hstate => exact ⟨⟨hd.1, trivial⟩, by rw [RequestDecoder.due, hstate], Nat.one_pos⟩
  failed d b e hd h := by
    cases turn_came h with
    | failed hstate =>
      rw [RequestDecoder.due, hstate]
      exact Nat.one_pos

/-- **A call of `decode` returns**, and a message took at least one byte. -/
theorem Resting.decode (h : d.Resting) (b : Bytes) :
    ∃ result n d', d.decode b = .ok (result, n, d') ∧ d'.Resting ∧ n ≤ b.length ∧
      ∀ request, result = .complete request → 0 < n := by
  have hrank := d.rank_le
  obtain ⟨result, n, d', hloop, hd', hpos, hn, hm⟩ := dues.decodeLoop (turns b) d b 0
    (by unfold turns; omega) ⟨h.config, h.formed⟩
  refine ⟨result, n, d', hloop, ⟨hd'.1, hd'.2, hpos⟩, by omega, fun request hr => ?_⟩
  have := hm request hr
  have := h.due
  omega

end RequestDecoder

end Rtsp
