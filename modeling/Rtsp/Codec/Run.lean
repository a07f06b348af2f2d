import Rtsp.Codec.Run.Steps

/-!
# Running the decoders

The loops of the code and of its driver, as runs of a resumable decoder. A call of
`decode` is a run of the codec's steps up to one that does not go on (`decode_stopped`),
calling it to the end is a drain (`decodeAll_drain`), and `feed` is a feed of the
library's kind (`feed_feeds`): that is the theorem the results on whole streams go
through.

`decodeAll` and `feed` are the driver and not the code. `tokio`'s `Framed` calls
`decode` again and again until it asks for more, and then reads; what it adds to the
buffer in one go is a chunk. The driver stops at the first error and keeps the messages
from before; what a codec does when it is called again after an error is not looked at
here.
-/

namespace Rtsp

open Syntax Lib

namespace Codec

open Decoder

variable {URI URIError : Type}

namespace Decoders

variable [RequestURI URI URIError]

/-! ## A call of `decode` -/

section Skips

variable {P : Decoders URI URIError → Bytes → Prop} {b b' : Bytes}

/-- A run of the request decoder is a run of the codec, once the codec has turned to it. -/
theorem requestSkips {Q : RequestDecoder URI URIError → Bytes → Prop}
    {d : Decoders URI URIError} {r : RequestDecoder URI URIError}
    (h : Skips (stepOf RequestDecoder.turn) Q d.request b r b')
    (hP : ∀ r b, Q r b → P { d with request := r } b) (hd : d.step b = d.requestStep b) :
    Skips step P d b { d with request := r } b' ∧
      step { d with request := r } b' = requestStep { d with request := r } b' := by
  generalize hr : d.request = r₀ at h
  induction h generalizing d with
  | refl => subst hr; exact ⟨.refl, hd⟩
  | @head _ buffer r₁ n _ _ hp hs _ ih =>
    subst hr
    have hmoves := RequestDecoder.turn_moves (stepOf_eq_skip hs)
    cases hmoves with
    | complete _ _ hpos _ =>
      have hnext : step { d with request := r₁ } (buffer.drop n) =
          requestStep { d with request := r₁ } (buffer.drop n) := by
        simp [step, RequestDecoder.not_isInitial hpos]
      obtain ⟨hskips, hlast⟩ := ih (d := { d with request := r₁ }) hP hnext rfl
      refine ⟨.head (hP _ _ hp) ?_ hskips, hlast⟩
      rw [hd, requestStep, hs]
      rfl

/-- A run of the response decoder is a run of the codec, once the codec has turned to it. -/
theorem responseSkips {Q : ResponseDecoder → Bytes → Prop} {d : Decoders URI URIError}
    {r : ResponseDecoder} (h : Skips (stepOf ResponseDecoder.turn) Q d.response b r b')
    (hP : ∀ r b, Q r b → P { d with response := r } b) (hreq : d.request.isInitial = true)
    (hd : d.step b = d.responseStep b) :
    Skips step P d b { d with response := r } b' ∧
      step { d with response := r } b' = responseStep { d with response := r } b' := by
  generalize hr : d.response = r₀ at h
  induction h generalizing d with
  | refl => subst hr; exact ⟨.refl, hd⟩
  | @head _ buffer r₁ n _ _ hp hs _ ih =>
    subst hr
    have hmoves := ResponseDecoder.turn_moves (stepOf_eq_skip hs)
    cases hmoves with
    | complete _ _ hpos _ =>
      have hnext : step { d with response := r₁ } (buffer.drop n) =
          responseStep { d with response := r₁ } (buffer.drop n) := by
        simp [step, hreq, ResponseDecoder.not_isInitial hpos]
      obtain ⟨hskips, hlast⟩ := ih (d := { d with response := r₁ }) hP hreq hnext rfl
      refine ⟨.head (hP _ _ hp) ?_ hskips, hlast⟩
      rw [hd, responseStep, hs]
      rfl

end Skips

end Decoders

open Decoders

variable [RequestURI URI URIError]

/-- The result of `decode` for the step a run of the codec stops at. -/
def Stopped (d : Decoders URI URIError) (buffer : Bytes) (r : Rust (Decoded URI URIError)) :
    Prop :=
  match d.step buffer with
  | .need => ∃ c, r = .ok (.ok none, c, buffer) ∧ c.decoders = d
  | .skip _ _ => False
  | .emit d' n m => ∃ c, r = .ok (.ok (some m), c, buffer.drop n) ∧ c.decoders = d'
  | .fail (.panic p) => r = .error p
  | .fail (.error e) => ∃ c buffer, r = .ok (.error e, c, buffer)

theorem decodeRequest_stopped (c : Codec URI URIError) (b : Bytes)
    (hd : c.decoders.step b = c.decoders.requestStep b) :
    ∃ d b', Skips step Always c.decoders b d b' ∧ Stopped d b' (c.decodeRequest b) := by
  have hrank := c.requestDecoder.rank_le
  obtain ⟨r, n, hle, hskips, hstop⟩ :=
    decodeLoop_stopped RequestDecoder.setError
      (fun _ _ _ h => RequestDecoder.turn_moves h) (turns b) c.requestDecoder b 0
      (by unfold turns; omega)
  obtain ⟨hcodec, hstep⟩ := requestSkips (P := Always) hskips (fun _ _ h => h) hd
  refine ⟨_, _, hcodec, ?_⟩
  rw [Nat.zero_add] at hstop
  change Decoder.Stopped _ r (b.drop n) n (c.requestDecoder.decode b) at hstop
  unfold Decoder.Stopped at hstop
  unfold Stopped decodeRequest
  rw [hstep, requestStep]
  cases hs : stepOf RequestDecoder.turn r (b.drop n) with
  | need =>
    rw [hs] at hstop
    simp only [hstop, ok_bind, sliceFrom_of_le hle]
    exact ⟨_, rfl, rfl⟩
  | skip => rw [hs] at hstop; exact hstop
  | emit r' n' m =>
    rw [hs] at hstop
    obtain ⟨rfl, -⟩ := stepOf_eq_emit hs
    simp only [hstop, ok_bind, sliceFrom_of_le hle]
    exact ⟨_, rfl, decoders_sendCodecEvent _ _⟩
  | fail f =>
    rw [hs] at hstop
    cases f with
    | panic p => simp only [hstop, error_bind]; rfl
    | error e =>
      obtain ⟨n', d', hres, hle'⟩ := hstop
      rw [List.length_drop] at hle'
      simp only [hres, ok_bind, sliceFrom_of_le (by omega : n' ≤ b.length)]
      exact ⟨_, _, rfl⟩

theorem decodeResponse_stopped (c : Codec URI URIError) (b : Bytes)
    (hreq : c.requestDecoder.isInitial = true)
    (hd : c.decoders.step b = c.decoders.responseStep b) :
    ∃ d b', Skips step Always c.decoders b d b' ∧ Stopped d b' (c.decodeResponse b) := by
  have hrank := c.responseDecoder.rank_le
  obtain ⟨r, n, hle, hskips, hstop⟩ :=
    decodeLoop_stopped ResponseDecoder.setError
      (fun _ _ _ h => ResponseDecoder.turn_moves h) (turns b) c.responseDecoder b 0
      (by unfold turns; omega)
  obtain ⟨hcodec, hstep⟩ := responseSkips (P := Always) hskips (fun _ _ h => h) hreq hd
  refine ⟨_, _, hcodec, ?_⟩
  rw [Nat.zero_add] at hstop
  change Decoder.Stopped _ r (b.drop n) n (c.responseDecoder.decode b) at hstop
  unfold Decoder.Stopped at hstop
  unfold Stopped decodeResponse
  rw [hstep, responseStep]
  cases hs : stepOf ResponseDecoder.turn r (b.drop n) with
  | need =>
    rw [hs] at hstop
    simp only [hstop, ok_bind, sliceFrom_of_le hle]
    exact ⟨_, rfl, rfl⟩
  | skip => rw [hs] at hstop; exact hstop
  | emit r' n' m =>
    rw [hs] at hstop
    obtain ⟨rfl, -⟩ := stepOf_eq_emit hs
    simp only [hstop, ok_bind, sliceFrom_of_le hle]
    exact ⟨_, rfl, decoders_sendCodecEvent _ _⟩
  | fail f =>
    rw [hs] at hstop
    cases f with
    | panic p => simp only [hstop, error_bind]; rfl
    | error e =>
      obtain ⟨n', d', hres, hle'⟩ := hstop
      rw [List.length_drop] at hle'
      simp only [hres, ok_bind, sliceFrom_of_le (by omega : n' ≤ b.length)]
      exact ⟨_, _, rfl⟩

omit [RequestURI URI URIError] in
theorem isPrefixOf_skipNewlines (b : Bytes) : CRLF.isPrefixOf (skipNewlines b) = false := by
  fun_induction skipNewlines b with
  | case1 rest ih => exact ih
  | case2 b h =>
    refine eq_false_of_ne_true fun hcrlf => ?_
    obtain ⟨rest, rfl⟩ := List.isPrefixOf_iff_prefix.mp hcrlf
    exact h rest rfl

/-- The loop over the newlines is a run of the codec between messages. -/
theorem skipNewlines_skips {d : Decoders URI URIError} (hreq : d.request.isInitial = true)
    (hresp : d.response.isInitial = true) (b : Bytes) :
    Skips step Always d b d (skipNewlines b) := by
  fun_induction skipNewlines b with
  | case1 rest ih =>
    refine .head (n := 2) trivial ?_ ih
    simp [step, hreq, hresp, CRLF, CR, LF, List.isPrefixOf]
  | case2 => exact .refl

/-- **A call of `decode` is a run of the codec's steps**, up to one that does not go on. -/
theorem decode_stopped (c : Codec URI URIError) (b : Bytes) :
    ∃ d b', Skips step Always c.decoders b d b' ∧ Stopped d b' (c.decode b) := by
  unfold decode
  cases hreq : c.requestDecoder.isInitial with
  | false =>
    exact decodeRequest_stopped c b (by simp [step, decoders, hreq])
  | true =>
    cases hresp : c.responseDecoder.isInitial with
    | false =>
      exact decodeResponse_stopped c b hreq (by simp [step, decoders, hreq, hresp])
    | true =>
      have hskips := skipNewlines_skips (d := c.decoders) hreq hresp b
      have hcrlf := isPrefixOf_skipNewlines b
      simp only [Bool.not_true, Bool.false_eq_true, if_false]
      generalize skipNewlines b = buffer at *
      -- The event does not touch the decoders.
      obtain ⟨c', hc', hdec⟩ : ∃ c', (if buffer.isEmpty then c
          else c.sendCodecEvent .decodingStarted) = c' ∧ c'.decoders = c.decoders := by
        refine ⟨_, rfl, ?_⟩
        split
        · rfl
        · exact decoders_sendCodecEvent _ _
      rw [hc', ← hdec]
      rw [← hdec] at hskips
      have hreq' : c'.requestDecoder.isInitial = true :=
        (congrArg (·.request.isInitial) hdec).trans hreq
      have hresp' : c'.responseDecoder.isInitial = true :=
        (congrArg (·.response.isInitial) hdec).trans hresp
      by_cases hlen : buffer.length < MINIMUM_INFO_LINE_SIZE
      · refine ⟨_, _, hskips, ?_⟩
        have : c'.decoders.step buffer = .need := by
          simp [step, decoders, hreq', hresp', hcrlf, hlen]
        rw [if_pos hlen, Stopped, this]
        exact ⟨c', rfl, rfl⟩
      · rw [if_neg hlen]
        by_cases hrtsp : (ascii "RTSP/").isPrefixOf buffer = true
        · rw [if_pos hrtsp]
          obtain ⟨d, b', h, hstop⟩ := decodeResponse_stopped c' buffer hreq'
            (by simp [step, decoders, hreq', hresp', hcrlf, hlen, hrtsp])
          exact ⟨d, b', hskips.trans h, hstop⟩
        · rw [if_neg hrtsp]
          obtain ⟨d, b', h, hstop⟩ := decodeRequest_stopped c' buffer
            (by simp [step, decoders, hreq', hresp', hcrlf, hlen, hrtsp])
          exact ⟨d, b', hskips.trans h, hstop⟩

/-! ## The driver -/

/-- The outcome of a drain or a feed, as the driver returns it. -/
def Returned (messages : List (Message URI))
    (o : Except (Failure (ProtocolError URIError)) (Decoders URI URIError × Bytes))
    (r : Rust (Fed URI URIError)) : Prop :=
  match o with
  | .ok (d, buffer) => ∃ c, r = .ok (messages, .ok (c, buffer)) ∧ c.decoders = d
  | .error (.error e) => r = .ok (messages, .error e)
  | .error (.panic p) => r = .error p

/-- Calling `decode` to the end is a drain, and the calls suffice for it. -/
theorem decodeAll_drain (calls : Nat) (c : Codec URI URIError) (b : Bytes)
    (hcalls : c.decoders.measure b < calls) :
    ∃ messages o, Drain step c.decoders b messages o ∧
      Returned messages o (decodeAll calls c b) := by
  induction calls generalizing c b with
  | zero => omega
  | succ calls ih =>
    obtain ⟨d, b', hskips, hstop⟩ := decode_stopped c b
    unfold Stopped at hstop
    unfold decodeAll
    cases hs : d.step b' with
    | need =>
      rw [hs] at hstop
      obtain ⟨c', hret, hdec⟩ := hstop
      refine ⟨_, _, hskips.drain (.need hs), ?_⟩
      rw [hret]
      exact ⟨c', rfl, hdec⟩
    | skip => rw [hs] at hstop; exact hstop.elim
    | emit d' n m =>
      rw [hs] at hstop
      obtain ⟨c', hret, rfl⟩ := hstop
      have hless := decreasing _ _ _ _ (.inr ⟨m, hs⟩)
      have hle := hskips.le decreasing
      obtain ⟨messages, o, hdrain, hreturned⟩ := ih c' (b'.drop n) (by omega)
      refine ⟨m :: messages, o, hskips.drain (.emit hs hdrain), ?_⟩
      rw [hret, ok_bind]
      unfold Returned at hreturned ⊢
      split at hreturned
      · obtain ⟨c'', hret', hdec⟩ := hreturned
        exact ⟨c'', by simp only [hret', ok_bind], hdec⟩
      · simp only [hreturned, ok_bind]
      · simp only [hreturned, error_bind]
    | fail f =>
      rw [hs] at hstop
      refine ⟨_, _, hskips.drain (.fail hs), ?_⟩
      cases f with
      | panic p => rw [hstop]; rfl
      | error e =>
        obtain ⟨c', b'', hret⟩ := hstop
        rw [hret]
        rfl

/-- **Feeding the codec is a feed of its steps.** -/
theorem feed_feeds (c : Codec URI URIError) (b : Bytes) (chunks : List Bytes) :
    ∃ messages o, Feeds step c.decoders b chunks messages o ∧
      Returned messages o (feed c b chunks) := by
  induction chunks generalizing c b with
  | nil => exact ⟨[], _, .nil, c, rfl, rfl⟩
  | cons chunk chunks ih =>
    have hreq := c.requestDecoder.rank_le
    have hresp := c.responseDecoder.rank_le
    obtain ⟨messages, o, hdrain, hreturned⟩ := decodeAll_drain (turns (b ++ chunk)) c (b ++ chunk)
      (by simp only [Decoders.measure, decoders, turns]; omega)
    unfold feed
    unfold Returned at hreturned
    split at hreturned
    · obtain ⟨c', hret, rfl⟩ := hreturned
      obtain ⟨messages', o', hfeeds, hreturned'⟩ := ih c' _
      refine ⟨messages ++ messages', o', .chunk hdrain hfeeds, ?_⟩
      rw [hret, ok_bind]
      unfold Returned at hreturned' ⊢
      split at hreturned'
      · obtain ⟨c'', hret', hdec⟩ := hreturned'
        exact ⟨c'', by simp only [hret', ok_bind], hdec⟩
      · simp only [hreturned', ok_bind]
      · simp only [hreturned', error_bind]
    · exact ⟨messages, _, .stop hdrain, by rw [hreturned]; rfl⟩
    · exact ⟨messages, _, .stop hdrain, by rw [hreturned]; rfl⟩

end Codec
end Rtsp
