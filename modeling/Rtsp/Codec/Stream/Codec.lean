import Rtsp.Codec.Stream.Response

/-!
# A call of `decode` returns

The codec calls one of its decoders on what is left behind the line breaks. Between two
calls both are at rest, and so they are after the next call, for every buffer
(`decode_returns`). A message took at least one byte, so calling `decode` until it asks
for more comes to an end, with one call more than there are bytes (`decodeAll_returns`).

`decode_again` is about a call that asked for more: asked again on the same buffer, the
codec does the same. The driver relies on it, since it calls `decode_eof` on what is
left, which begins with a call of `decode`.
-/

namespace Rtsp

open Syntax Lib Decoder

namespace Codec

variable {URI URIError : Type}

/-- Between messages: neither decoder has started. -/
def Initial (c : Codec URI URIError) : Prop :=
  c.requestDecoder.isInitial = true ∧ c.responseDecoder.isInitial = true

instance (c : Codec URI URIError) : Decidable c.Initial := inferInstanceAs (Decidable (_ ∧ _))

/-- A codec between two calls of `decode`. -/
structure Resting (c : Codec URI URIError) : Prop where
  request : c.requestDecoder.Resting
  response : c.responseDecoder.Resting

@[simp] theorem requestDecoder_sendCodecEvent (c : Codec URI URIError) (event : CodecEvent) :
    (c.sendCodecEvent event).requestDecoder = c.requestDecoder :=
  congrArg Decoders.request (decoders_sendCodecEvent c event)

@[simp] theorem responseDecoder_sendCodecEvent (c : Codec URI URIError) (event : CodecEvent) :
    (c.sendCodecEvent event).responseDecoder = c.responseDecoder :=
  congrArg Decoders.response (decoders_sendCodecEvent c event)

theorem Resting.sendCodecEvent {c : Codec URI URIError} (h : c.Resting) (event : CodecEvent) :
    (c.sendCodecEvent event).Resting :=
  ⟨by simpa using h.request, by simpa using h.response⟩

theorem skipNewlines_eq_drop (b : Bytes) : ∃ n, skipNewlines b = b.drop n ∧ n ≤ b.length := by
  fun_induction skipNewlines b with
  | case1 rest ih =>
    obtain ⟨n, hn, hle⟩ := ih
    exact ⟨n + 2, hn, Nat.add_le_add_right hle 2⟩
  | case2 => exact ⟨0, rfl, Nat.zero_le _⟩

/-- What a call of `decode` owes its caller: it returns, takes bytes off the front of the
    buffer that are there, at least one for a message, and can be called again. -/
def Returns (b : Bytes) (r : Rust (Decoded URI URIError)) : Prop :=
  ∃ result c' n, r = .ok (result, c', b.drop n) ∧ c'.Resting ∧ n ≤ b.length ∧
    ∀ m, result = .ok (some m) → 0 < n

theorem Returns.of_drop {b : Bytes} {n : Nat} {r : Rust (Decoded URI URIError)}
    (h : Returns (b.drop n) r) (hn : n ≤ b.length) : Returns b r := by
  obtain ⟨result, c', n', hr, hc, hle, hm⟩ := h
  rw [List.drop_drop] at hr
  rw [List.length_drop] at hle
  exact ⟨result, c', n + n', hr, hc, by omega, fun m h => Nat.lt_of_lt_of_le (hm m h)
    (Nat.le_add_left _ _)⟩

variable [RequestURI URI URIError] {c : Codec URI URIError}

theorem decodeRequest_returns (h : c.Resting) (b : Bytes) : Returns b (c.decodeRequest b) := by
  obtain ⟨result, n, d', hdecode, hd', hle, hm⟩ := h.request.decode b
  have hc' : Resting { c with requestDecoder := d' } := ⟨hd', h.response⟩
  rw [decodeRequest, hdecode, ok_bind]
  dsimp only
  rw [sliceFrom_of_le hle, ok_bind]
  cases result with
  | complete request =>
    exact ⟨_, _, _, rfl, hc'.sendCodecEvent _, hle, fun m _ => hm request rfl⟩
  | incomplete => exact ⟨_, _, _, rfl, hc', hle, fun m hr => by cases hr⟩
  | error e => exact ⟨_, _, _, rfl, hc'.sendCodecEvent _, hle, fun m hr => by cases hr⟩

omit [RequestURI URI URIError] in
theorem decodeResponse_returns (h : c.Resting) (b : Bytes) : Returns b (c.decodeResponse b) := by
  obtain ⟨result, n, d', hdecode, hd', hle, hm⟩ := h.response.decode b
  have hc' : Resting { c with responseDecoder := d' } := ⟨h.request, hd'⟩
  rw [decodeResponse, hdecode, ok_bind]
  dsimp only
  rw [sliceFrom_of_le hle, ok_bind]
  cases result with
  | complete response =>
    exact ⟨_, _, _, rfl, hc'.sendCodecEvent _, hle, fun m _ => hm response rfl⟩
  | incomplete => exact ⟨_, _, _, rfl, hc', hle, fun m hr => by cases hr⟩
  | error e => exact ⟨_, _, _, rfl, hc'.sendCodecEvent _, hle, fun m hr => by cases hr⟩

/-- **`decode` returns.** -/
theorem decode_returns (h : c.Resting) (b : Bytes) : Returns b (c.decode b) := by
  rw [decode]
  split
  · exact decodeRequest_returns h b
  · split
    · exact decodeResponse_returns h b
    · obtain ⟨n, hskip, hle⟩ := skipNewlines_eq_drop b
      have hc : (if (b.drop n).isEmpty then c else c.sendCodecEvent .decodingStarted).Resting := by
        split
        · exact h
        · exact h.sendCodecEvent _
      dsimp only
      rw [hskip]
      split
      · exact ⟨_, _, n, rfl, hc, hle, fun m hr => by cases hr⟩
      · split
        · exact (decodeResponse_returns hc _).of_drop hle
        · exact (decodeRequest_returns hc _).of_drop hle

/-- Calling `decode` until it asks for more comes to an end, with a call to spare for
    each byte. -/
theorem decodeAll_returns {calls : Nat} (h : c.Resting) {b : Bytes} (hcalls : b.length < calls) :
    ∃ fed, decodeAll calls c b = .ok fed := by
  induction calls generalizing c b with
  | zero => omega
  | succ calls ih =>
    obtain ⟨result, c', n, hdecode, hc', hle, hm⟩ := decode_returns h b
    rw [decodeAll, hdecode, ok_bind]
    match result with
    | .error e => exact ⟨_, rfl⟩
    | .ok none => exact ⟨_, rfl⟩
    | .ok (some m) =>
      have hpos := hm m rfl
      obtain ⟨⟨messages, stop⟩, hfed⟩ := ih hc' (b := b.drop n) (by rw [List.length_drop]; omega)
      exact ⟨(m :: messages, stop), by simp only [hfed, ok_bind]⟩

/-- **A call that asked for more asks again** as long as nothing arrives. -/
theorem decode_again {c' : Codec URI URIError} {b b' : Bytes}
    (h : c.decode b = .ok (.ok none, c', b')) :
    ∃ c₁, c'.decode b' = .ok (.ok none, c₁, b') ∧ c₁.decoders = c'.decoders := by
  have hneed : c'.decoders.step b' = .need := by
    obtain ⟨d, b₁, -, hstop⟩ := decode_stopped c b
    rw [h] at hstop
    unfold Stopped at hstop
    cases hs : d.step b₁ with
    | need =>
      rw [hs] at hstop
      obtain ⟨_, heq, rfl⟩ := hstop
      cases heq
      exact hs
    | skip =>
      rw [hs] at hstop
      exact hstop.elim
    | emit =>
      rw [hs] at hstop
      obtain ⟨_, heq, -⟩ := hstop
      cases heq
    | fail f =>
      rw [hs] at hstop
      cases f with
      | panic => cases hstop
      | error =>
        obtain ⟨_, _, heq⟩ := hstop
        cases heq
  obtain ⟨d, b₁, hskips, hstop⟩ := decode_stopped c' b'
  cases hskips with
  | refl =>
    rw [Stopped, hneed] at hstop
    exact hstop
  | head _ hskip => simp [hneed] at hskip

end Codec

end Rtsp
