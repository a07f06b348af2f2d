import Rtsp.Codec.ResponseLimits

/-!
# Decoders that run in step

Two decoders on the same input, the second with larger limits. What the first reads, the
second reads as well and in the same place, since a limit says how far to look and never
where to stop: a separator that was found among fewer bytes is the first one among more.

There is one way for a larger limit to fail. The code adds to its limits, one for a
separator or a line break, or two for the line break behind a reason phrase, and a limit
next to the largest `usize` makes the addition overflow. Each lemma about a step
therefore asks that the sums of the larger limits can be taken; which of them are taken
on a given input is worked out for either decoder by itself.

`decodeLoop_simulates` is the rule for the loop, with the map from one decoder to the
other as a parameter. It is used with the map that changes the configuration.
-/

namespace Rtsp

open Syntax Lib Decoder

namespace Decoder

variable {δ μ ε : Type} {b : Bytes}

/-- Limits that are at least as large. -/
structure Limits.RaisedTo (limits limits' : Limits) : Prop where
  body : limits.bodyMaxLength ≤ limits'.bodyMaxLength
  count : limits.headerMaxCount ≤ limits'.headerMaxCount
  name : limits.headerNameMaxLength ≤ limits'.headerNameMaxLength
  value : limits.headerValueMaxLength ≤ limits'.headerValueMaxLength

/-! ## Each stage reads the same -/

theorem readUntil_raised {separator : Byte} {max max' : Nat} {tooLong : ε} {field : Bytes}
    (hle : max ≤ max') (hmax : max' + 1 ≤ usizeMax)
    (h : readUntil separator max tooLong b = .ok (.complete field)) :
    readUntil separator max' tooLong b = .ok (.complete field) := by
  obtain ⟨-, rest, hb, hsep, hlen⟩ := readUntil_complete_iff.mp h
  exact readUntil_complete_iff.mpr ⟨hmax, rest, hb, hsep, Nat.le_trans hlen hle⟩

/-- More pairs are looked at behind those that were. -/
theorem lineBreaks_mono {n n' : Nat} (h : n ≤ n') : lineBreaks b n <+: lineBreaks b n' := by
  obtain ⟨w, hw⟩ := List.take_prefix_take_left (l := windows2 b) h
  simp only [lineBreaks, ← hw, List.zipIdx_append, List.filter_append, List.map_append]
  exact List.prefix_append _ _

theorem decodeHeaderValue_raised {max max' : Nat} {tooLong : ε} {value : Bytes}
    (hle : max ≤ max') (hmax : max' + 1 ≤ usizeMax)
    (h : decodeHeaderValue max tooLong b = .ok (.complete value)) :
    decodeHeaderValue max' tooLong b = .ok (.complete value) := by
  rw [decodeHeaderValue_eq (decodeHeaderValue_complete h).1] at h
  rw [decodeHeaderValue_eq hmax]
  -- The end of the value is the first line break that does not fold, with either limit.
  cases hfind : (lineBreaks b (max + 1)).find? fun i => !folds b i with
  | none =>
    rw [hfind] at h
    dsimp only at h
    split at h <;> cases h
  | some i =>
    rw [hfind] at h
    rw [(lineBreaks_mono (Nat.succ_le_succ hle)).find?_eq_some hfind]
    exact h

theorem decodeHeaderName_raised {max max' : Nat} {tooLong : ε} {name : Bytes}
    (hle : max ≤ max') (hmax : max' + 1 ≤ usizeMax)
    (h : decodeHeaderName max tooLong b = .ok (.complete (some name))) :
    decodeHeaderName max' tooLong b = .ok (.complete (some name)) := by
  unfold decodeHeaderName at h ⊢
  split at h
  · cases h
  · next hcrlf =>
    obtain ⟨r, hread, h⟩ := bind_eq_ok h
    cases r with
    | error e => cases h
    | incomplete => cases h
    | complete field =>
      rw [if_neg hcrlf, readUntil_raised hle hmax hread, ok_bind]
      exact h

variable {limits limits' : Limits} {errors : HeaderErrors ε} {headers : HeaderMap}

theorem bodyLength_raised {l : ContentLength} (hle : limits.RaisedTo limits')
    (h : bodyLength limits errors headers = .ok l) : bodyLength limits' errors headers = .ok l := by
  unfold bodyLength at h ⊢
  split at h
  · next l' _ =>
    split at h
    · cases h
    · next hbody =>
      have hbody' := Nat.le_trans (Nat.not_lt.mp hbody) hle.body
      rw [if_neg (Nat.not_lt.mpr hbody')]
      exact h
  · exact h
  · cases h

theorem decodeHeader_raised {headerName : HeaderName} {headerValue : HeaderValue} {n : Nat}
    (hle : limits.RaisedTo limits') (hample : limits'.Ample)
    (h : decodeHeader limits errors headers b = .ok (.header headerName headerValue n)) :
    decodeHeader limits' errors headers b = .ok (.header headerName headerValue n) := by
  obtain ⟨r, hname, h⟩ := bind_eq_ok h
  cases r with
  | incomplete => cases h
  | error e => cases h
  | complete name =>
    cases name with
    | none =>
      obtain ⟨_, _, h⟩ := bind_eq_ok h
      split at h <;> cases h
    | some name =>
      rw [decodeHeader, decodeHeaderName_raised hle.name hample.name hname, ok_bind]
      dsimp only at h ⊢
      unfold decodeHeaderField at h ⊢
      split at h
      · cases h
      · next hcount =>
        -- There is room for one more header.
        have hcount' := Nat.lt_of_lt_of_le (Nat.not_le.mp hcount) hle.count
        obtain ⟨rest, hrest, h⟩ := bind_eq_ok h
        obtain ⟨v, hv, h⟩ := bind_eq_ok h
        rw [if_neg (Nat.not_le.mpr hcount'), hrest, ok_bind]
        cases v with
        | incomplete => cases h
        | error e => cases h
        | complete value =>
          rw [decodeHeaderValue_raised hle.value hample.value hv, ok_bind]
          exact h

/-- The empty line takes no sums. -/
theorem decodeHeader_ended_raised {l : ContentLength} (hle : limits.RaisedTo limits')
    (h : decodeHeader limits errors headers b = .ok (.ended l)) :
    decodeHeader limits' errors headers b = .ok (.ended l) := by
  obtain ⟨⟨rest, rfl⟩, hbody⟩ := decodeHeader_ended_inv h
  exact decodeHeader_empty errors rest (bodyLength_raised hle hbody)

/-- What a turn takes out of the buffer does not depend on the decoder. -/
theorem consume_map {d d' : δ} {n m : Nat} (f : δ → δ)
    (h : consume (μ := μ) (ε := ε) b d n = .ok (.complete d' m)) :
    consume (μ := μ) (ε := ε) b (f d) n = .ok (.complete (f d') m) := by
  obtain ⟨heq, hlen⟩ := consume_eq_ok h
  cases heq
  exact consume_of_le _ hlen

/-! ## The loops run in step -/

/-- **Two decoders that take the same turns come to the same message.** -/
theorem decodeLoop_simulates {turn : δ → Bytes → Rust (Turn δ μ ε)} {setError : δ → ε → δ}
    {f : δ → δ} {J : δ → Bytes → Prop}
    (hcomplete : ∀ d b d' n, J d b → turn d b = .ok (.complete d' n) →
      J d' (b.drop n) ∧ turn (f d) b = .ok (.complete (f d') n))
    (hmessage : ∀ d b m d', J d b → turn d b = .ok (.message m d') →
      turn (f d) b = .ok (.message m (f d')))
    {turns : Nat} {d d' : δ} {decoded n : Nat} {m : μ} (hd : J d b)
    (h : decodeLoop turn setError turns d b decoded = .ok (.complete m, n, d')) :
    decodeLoop turn setError turns (f d) b decoded = .ok (.complete m, n, f d') := by
  induction turns generalizing d b decoded with
  | zero => cases h
  | succ turns ih =>
    unfold decodeLoop at h ⊢
    obtain ⟨t, hturn, h⟩ := bind_eq_ok h
    cases t with
    | complete d₁ n₁ =>
      obtain ⟨hd₁, hturn'⟩ := hcomplete _ _ _ _ hd hturn
      rw [hturn', ok_bind]
      exact ih hd₁ h
    | error n₁ e => cases h
    | incomplete => cases h
    | message m₁ d₁ =>
      cases h
      rw [hmessage _ _ _ _ hd hturn]
      rfl
    | failed e => cases h

end Decoder

end Rtsp
