import Rtsp.Codec.Run.Decoders

/-!
# The steps of the codec

The codec decides at each message which of its two decoders is to read it, and before a
message it skips line breaks. Its step (`Codec.Decoders.step`) is accordingly a turn of
the decoder under way, or one line break skipped between messages, or the first turn of
the decoder that the next bytes call for.

Steps are of the two decoders and not of the codec as a whole. What else is in the
codec, the channel for events, is written to and never read, and the events that a call
sends are not a matter of single steps: they depend on where a call began. They have a
module of their own (`Codec.Events`), and here they are left out.
-/

namespace Rtsp

open Syntax Lib

namespace Codec

open Decoder

variable {URI URIError : Type}

/-- The decoding half of the codec's state. -/
structure Decoders (URI URIError : Type) where
  request : RequestDecoder URI URIError
  response : ResponseDecoder

def decoders (c : Codec URI URIError) : Decoders URI URIError :=
  ⟨c.requestDecoder, c.responseDecoder⟩

@[simp] theorem decoders_sendCodecEvent (c : Codec URI URIError) (e : CodecEvent) :
    (c.sendCodecEvent e).decoders = c.decoders := by
  unfold sendCodecEvent
  split
  · rfl
  · split <;> rfl

namespace Decoders

variable [RequestURI URI URIError]

/-- A step of the codec. -/
abbrev Step (URI URIError : Type) :=
  Lib.Step (Decoders URI URIError) (Message URI) (Failure (ProtocolError URIError))

/-- A turn of the request decoder. -/
def requestStep (d : Decoders URI URIError) (buffer : Bytes) : Step URI URIError :=
  (stepOf RequestDecoder.turn d.request buffer).map (fun request => { d with request })
    Message.request (Failure.map fun e => .decodeError (.request e))

/-- A turn of the response decoder. -/
def responseStep (d : Decoders URI URIError) (buffer : Bytes) : Step URI URIError :=
  (stepOf ResponseDecoder.turn d.response buffer).map (fun response => { d with response })
    Message.response (Failure.map fun e => .decodeError (.response e))

/-- One step of the codec: a turn of the decoder that has started, or between messages a
    line break skipped, or the first turn of the next message. -/
def step (d : Decoders URI URIError) (buffer : Bytes) : Step URI URIError :=
  if !d.request.isInitial then d.requestStep buffer
  else if !d.response.isInitial then d.responseStep buffer
  else if CRLF.isPrefixOf buffer then .skip d 2
  else if buffer.length < MINIMUM_INFO_LINE_SIZE then .need
  else if (ascii "RTSP/").isPrefixOf buffer then d.responseStep buffer
  else d.requestStep buffer

/-- Which of the four the step was. -/
theorem step_cases (d : Decoders URI URIError) (b : Bytes) :
    d.step b = d.requestStep b ∨ d.step b = d.responseStep b ∨
      (d.step b = .skip d 2 ∧ 2 ≤ b.length) ∨ d.step b = .need := by
  unfold step
  split
  · exact .inl rfl
  · split
    · exact .inr (.inl rfl)
    · split
      · next h =>
        exact .inr (.inr (.inl ⟨rfl, (List.isPrefixOf_iff_prefix.mp h).length_le⟩))
      · split
        · exact .inr (.inr (.inr rfl))
        · split
          · exact .inr (.inl rfl)
          · exact .inl rfl

/-- The measure that every step makes smaller. -/
def measure (d : Decoders URI URIError) (buffer : Bytes) : Nat :=
  4 * buffer.length + d.request.rank + d.response.rank

/-- What a step that moves on did to the decoders: it took bytes that were there, left the
    configurations alone, and made the measure smaller. -/
structure Moved (d : Decoders URI URIError) (buffer : Bytes) (d' : Decoders URI URIError)
    (n : Nat) : Prop where
  le : n ≤ buffer.length
  measure : d'.measure (buffer.drop n) < d.measure buffer
  request : d'.request.config = d.request.config
  response : d'.response.config = d.response.config

theorem requestStep_eq_fail {d : Decoders URI URIError} {b : Bytes}
    {e : RequestDecoder.DecodeError URIError}
    (h : d.requestStep b = .fail (.error (.decodeError (.request e)))) :
    (∃ n, d.request.turn b = .ok (.error n e)) ∨ d.request.turn b = .ok (.failed e) := by
  obtain ⟨f, hf, he⟩ := Step.map_eq_fail h
  cases f <;> cases he
  exact stepOf_eq_fail hf

omit [RequestURI URI URIError] in
theorem responseStep_eq_fail {d : Decoders URI URIError} {b : Bytes}
    {e : ResponseDecoder.DecodeError}
    (h : d.responseStep b = .fail (.error (.decodeError (.response e)))) :
    (∃ n, d.response.turn b = .ok (.error n e)) ∨ d.response.turn b = .ok (.failed e) := by
  obtain ⟨f, hf, he⟩ := Step.map_eq_fail h
  cases f <;> cases he
  exact stepOf_eq_fail hf

theorem requestStep_moved {d d' : Decoders URI URIError} {b : Bytes} {n : Nat}
    (h : d.requestStep b = .skip d' n ∨ ∃ m, d.requestStep b = .emit d' n m) :
    Moved d b d' n := by
  rcases h with h | ⟨m, h⟩
  · obtain ⟨r, hskip, rfl⟩ := Step.map_eq_skip h
    cases RequestDecoder.turn_moves (stepOf_eq_skip hskip) with
    | complete hle hconfig _ hrank =>
      refine ⟨hle, ?_, hconfig, rfl⟩
      simp only [Decoders.measure, List.length_drop]
      omega
  · obtain ⟨r, m', hemit, rfl, -⟩ := Step.map_eq_emit h
    obtain ⟨rfl, hturn⟩ := stepOf_eq_emit hemit
    cases RequestDecoder.turn_moves hturn with
    | message hconfig hrank =>
      refine ⟨Nat.zero_le _, ?_, hconfig, rfl⟩
      simp only [Decoders.measure, List.drop_zero]
      omega

omit [RequestURI URI URIError] in
theorem responseStep_moved {d d' : Decoders URI URIError} {b : Bytes} {n : Nat}
    (h : d.responseStep b = .skip d' n ∨ ∃ m, d.responseStep b = .emit d' n m) :
    Moved d b d' n := by
  rcases h with h | ⟨m, h⟩
  · obtain ⟨r, hskip, rfl⟩ := Step.map_eq_skip h
    cases ResponseDecoder.turn_moves (stepOf_eq_skip hskip) with
    | complete hle hconfig _ hrank =>
      refine ⟨hle, ?_, rfl, hconfig⟩
      simp only [Decoders.measure, List.length_drop]
      omega
  · obtain ⟨r, m', hemit, rfl, -⟩ := Step.map_eq_emit h
    obtain ⟨rfl, hturn⟩ := stepOf_eq_emit hemit
    cases ResponseDecoder.turn_moves hturn with
    | message hconfig hrank =>
      refine ⟨Nat.zero_le _, ?_, rfl, hconfig⟩
      simp only [Decoders.measure, List.drop_zero]
      omega

theorem step_moved {d d' : Decoders URI URIError} {b : Bytes} {n : Nat}
    (h : d.step b = .skip d' n ∨ ∃ m, d.step b = .emit d' n m) : Moved d b d' n := by
  rcases step_cases d b with hstep | hstep | ⟨hstep, hlen⟩ | hstep <;> rw [hstep] at h
  · exact requestStep_moved h
  · exact responseStep_moved h
  · rcases h with h | ⟨m, h⟩ <;> cases h
    refine ⟨hlen, ?_, rfl, rfl⟩
    simp only [Decoders.measure, List.length_drop]
    omega
  · rcases h with h | ⟨m, h⟩ <;> cases h

theorem bounded : Bounded (step : Decoders URI URIError → _) :=
  fun _ _ _ _ h => (step_moved h).le

theorem decreasing : Decreasing (step : Decoders URI URIError → _) measure :=
  fun _ _ _ _ h => (step_moved h).measure

end Decoders

end Codec
end Rtsp
